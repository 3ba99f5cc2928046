import OrderedStore.Error

/-!
# Options

How a store is opened. A caller may leave the two tuning numbers unset; an engine takes them as
plain numbers, where zero is "unset". No answer of a store depends on the tuning numbers or on
`compression`: they are kept and reported.

* `Options`, `EngineOptions`: the caller's and the engine's form;
* `Options.lower`: the engine's form of the caller's; `EngineOptions.raise`: the way back;
* `EngineOptions.validate`: the range of the tuning numbers.
-/

namespace OrderedStore

/-- The options of a caller. -/
structure Options where
  createIfMissing : Bool := true
  errorIfExists : Bool := false
  /-- Bits per key of the read filter. -/
  bloomBitsPerKey : Option UInt32 := none
  /-- Capacity of the read cache in bytes. -/
  cacheSize : Option UInt64 := none
  compression : Bool := true
  /-- Refuse a damaged log instead of dropping its damaged end. -/
  paranoidChecks : Bool := false
  deriving DecidableEq

/-- The options of an engine; a zero leaves a tuning number to the engine. -/
structure EngineOptions where
  createIfMissing : Bool := true
  errorIfExists : Bool := false
  bloomBitsPerKey : UInt32 := 0
  cacheSize : UInt64 := 0
  compression : Bool := true
  paranoidChecks : Bool := false
  deriving DecidableEq

/-- The engine's form of a caller's options. -/
def Options.lower (o : Options) : EngineOptions where
  createIfMissing := o.createIfMissing
  errorIfExists := o.errorIfExists
  bloomBitsPerKey := o.bloomBitsPerKey.getD 0
  cacheSize := o.cacheSize.getD 0
  compression := o.compression
  paranoidChecks := o.paranoidChecks

namespace EngineOptions

/-- A caller's form of an engine's options: a zero is unset. -/
def raise (o : EngineOptions) : Options where
  createIfMissing := o.createIfMissing
  errorIfExists := o.errorIfExists
  bloomBitsPerKey := if o.bloomBitsPerKey = 0 then none else some o.bloomBitsPerKey
  cacheSize := if o.cacheSize = 0 then none else some o.cacheSize
  compression := o.compression
  paranoidChecks := o.paranoidChecks

/-- The tuning numbers are in range. -/
def validate (o : EngineOptions) : Except EngineError Unit :=
  if maxBloomBitsPerKey < o.bloomBitsPerKey.toNat then
    .error (.invalidArgument (.bloomBits o.bloomBitsPerKey.toNat))
  else .ok ()

/-- The options as a line of text. -/
def describe (o : EngineOptions) : String :=
  s!"create_if_missing={o.createIfMissing} error_if_exists={o.errorIfExists} " ++
  s!"bloom_filter_bits_per_key={o.bloomBitsPerKey.toNat} cache_size_bytes={o.cacheSize.toNat} " ++
  s!"compression={o.compression} paranoid_checks={o.paranoidChecks}"

/-- The options as a diagnostic shows them. -/
def diagnostic (o : EngineOptions) : String :=
  s!"EngineOptions \x7b create_if_missing: {o.createIfMissing}, error_if_exists: {o.errorIfExists}, " ++
  s!"bloom_filter_bits_per_key: {o.bloomBitsPerKey.toNat}, cache_size_bytes: {o.cacheSize.toNat}, " ++
  s!"compression: {o.compression}, paranoid_checks: {o.paranoidChecks} \x7d"

/-- Lowering what was raised gives it back. -/
@[simp] theorem lower_raise (o : EngineOptions) : o.raise.lower = o := by
  cases o
  simp only [raise, Options.lower, EngineOptions.mk.injEq, true_and, and_true]
  constructor <;> split <;> simp_all

end EngineOptions

end OrderedStore
