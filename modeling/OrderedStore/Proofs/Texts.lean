import OrderedStore.Disk.Route
import OrderedStore.Interface.Status
import Mathlib.Data.List.Basic

/-!
# Texts without a zero

The text of the last error is handed out behind an address, up to its first zero byte, so a text with a zero in it
cannot be kept. What messages are put together of has none: numbers and what is shown between quotes have none, and
paths have none because they come in the same way.

* `Text.ZeroFree`: a text that can be kept;
* `zeroFree_digits`, `zeroFree_quoted`, `zeroFree_of_toText?`: numbers, quoted texts, texts that were passed in;
* `EngineError.foreign`: the texts that an error shows just as they came; `EngineError.zeroFree_message`: the message
  can be kept if these can, and so can those of stores and of calls.
-/

namespace OrderedStore

namespace Text

/-- The text has no zero in it. -/
def ZeroFree (text : String) : Prop := '\x00' ∉ text.toList

instance (text : String) : Decidable (ZeroFree text) := inferInstanceAs (Decidable (_ ∉ _))

theorem ZeroFree.append {s t : String} (hs : ZeroFree s) (ht : ZeroFree t) : ZeroFree (s ++ t) := by
  rw [ZeroFree, String.toList_append, List.mem_append]
  exact fun hmem => hmem.elim hs ht

theorem zeroFree_ofList {cs : List Char} : ZeroFree (String.ofList cs) ↔ '\x00' ∉ cs := by
  rw [ZeroFree, String.toList_ofList]

/-! ## Numbers -/

theorem digitChar_ne_zero (d : Nat) : '\x00' ≠ Nat.digitChar d := by
  by_cases hlt : d < 16
  · have hdigits : ∀ d < 16, '\x00' ≠ Nat.digitChar d := by decide
    exact hdigits d hlt
  · rw [Nat.digitChar_eq_star.mpr (Nat.le_of_not_lt hlt)]
    decide

/-- A number has no zero byte among its digits, which are added at the end one by one. -/
theorem zero_notMem_toDigits {base : Nat} (hbase : 1 < base) (n : Nat) : '\x00' ∉ Nat.toDigits base n := by
  induction n using Nat.strongRecOn with
  | ind n ih =>
    by_cases hlt : n < base
    · rw [Nat.toDigits_of_lt_base hlt, List.mem_singleton]
      exact digitChar_ne_zero n
    · have hfront : 0 < n / base := Nat.div_pos (Nat.le_of_not_lt hlt) (Nat.lt_of_succ_lt hbase)
      have hless : n / base < n := Nat.div_lt_self (by omega) hbase
      have hlast : n % base < base := Nat.mod_lt n (by omega)
      rw [← Nat.div_add_mod n base, ← Nat.toDigits_append_toDigits hbase hfront hlast,
        Nat.toDigits_of_lt_base hlast, List.mem_append, List.mem_singleton]
      exact fun hmem => hmem.elim (ih _ hless) (digitChar_ne_zero _)

theorem zeroFree_digits (n : Nat) : ZeroFree (toString n) := by
  show '\x00' ∉ n.repr.toList
  rw [Nat.toList_repr]
  exact zero_notMem_toDigits (by decide) n

theorem zero_notMem_hexDigits (width n : Nat) : '\x00' ∉ hexDigits width n := by
  induction width generalizing n with
  | zero => exact List.not_mem_nil
  | succ width ih =>
    rw [hexDigits, List.mem_append, List.mem_singleton]
    exact fun hmem => hmem.elim (ih _) (digitChar_ne_zero _)

theorem zeroFree_hexWord (w : UInt32) : ZeroFree (hexWord w) := zeroFree_ofList.mpr (zero_notMem_hexDigits 8 w.toNat)

/-! ## Texts from outside -/

/-- A zero between quotes is shown by an escape. -/
theorem zero_notMem_quoteChar (c : Char) : '\x00' ∉ quoteChar c := by
  unfold quoteChar
  split
  · decide
  · rename_i hne
    repeat' split
    any_goals decide
    · have hdigits : '\x00' ∉ Nat.toDigits 16 c.toNat := zero_notMem_toDigits (by decide) _
      simp only [hexNumber, List.mem_append, List.mem_cons, List.not_mem_nil, or_false, hdigits]
      decide
    · rw [List.mem_singleton]
      exact Ne.symm hne

theorem zeroFree_quoted (text : String) : ZeroFree (quoted text) := by
  refine zeroFree_ofList.mpr ?_
  simp only [List.mem_append, List.mem_cons, List.mem_flatMap, List.not_mem_nil, or_false]
  rintro ((hquote | ⟨c, -, hmem⟩) | hquote)
  · cases hquote
  · exact zero_notMem_quoteChar c hmem
  · cases hquote

/-- A text with a zero in it has a zero byte. -/
theorem zeroFree_of_toText? {bytes : Bytes} {text : String} (h : Bytes.toText? bytes = some text) (hbytes : 0 ∉ bytes) :
    ZeroFree text := by
  unfold Bytes.toText? String.fromUTF8? at h
  split at h
  · have hencoded : text.toByteArray = ⟨bytes.toArray⟩ := by
      cases h
      rfl
    rw [← String.utf8Encode_toList, List.utf8Encode] at hencoded
    have hchars : text.toList.flatMap String.utf8EncodeChar = bytes := by
      simpa only [List.data_toByteArray] using congrArg (·.data.toList) hencoded
    intro hmem
    have hzero : (0 : UInt8) ∈ String.utf8EncodeChar '\x00' := by decide
    exact hbytes (hchars ▸ List.mem_flatMap.mpr ⟨_, hmem, hzero⟩)
  · cases h

end Text

open Text

theorem zeroFree_joinPath {path name : String} (hpath : ZeroFree path) (hname : ZeroFree name) :
    ZeroFree (joinPath path name) := by
  unfold joinPath
  split
  · exact hpath.append hname
  · exact hpath.append hname
  · exact (hpath.append (by decide)).append hname

/-! ## Messages -/

theorem PayloadFault.zeroFree_detail (fault : PayloadFault) : ZeroFree fault.detail := by
  cases fault with
  | unexpectedEnd => decide
  | unknownTag tag => exact .append (by decide) (zeroFree_digits _)
  | trailing used total =>
    exact ((ZeroFree.append (by decide) (zeroFree_digits used)).append (by decide)).append (zeroFree_digits total)

theorem FrameFault.zeroFree_reason (fault : FrameFault) : ZeroFree fault.reason := by
  cases fault with
  | tornHeader | badMagic | tornBody => decide
  | unsupportedVersion version => exact .append (by decide) (zeroFree_digits version)
  | unknownType tag => exact .append (by decide) (zeroFree_digits _)
  | checksumMismatch stored actual =>
    exact ((ZeroFree.append (by decide) (zeroFree_hexWord stored)).append (by decide)).append (zeroFree_hexWord actual)
  | payload fault => exact .append (by decide) fault.zeroFree_detail

theorem Damage.zeroFree_describe (d : Damage) : ZeroFree d.describe :=
  (d.fault.zeroFree_reason.append (by decide)).append (zeroFree_digits d.offset)

theorem SystemFault.zeroFree_describe (fault : SystemFault) : ZeroFree fault.describe := by
  cases fault <;> decide

/-- The texts that a damage or a refusal shows just as they came. -/
def EngineError.foreign : EngineError → List String
  | io (.reported text) => [text]
  | notFound path | alreadyExists path | locked path => [path]
  | corruption (.format _ file) => [file]
  | corruption (.other text) => [text]
  | invalidArgument (.notADirectory path) => [path]
  | invalidArgument (.other text) => [text]
  | _ => []

/-- The message of an error can be kept if the texts can that it shows as they came. -/
theorem EngineError.zeroFree_message {e : EngineError} (h : ∀ text ∈ e.foreign, ZeroFree text) :
    ZeroFree e.message := by
  cases e with
  | io fault =>
    cases fault with
    | system fault => exact .append (by decide) fault.zeroFree_describe
    | reported text => exact .append (by decide) (h text List.mem_cons_self)
  | notFound path | alreadyExists path | locked path => exact .append (by decide) (h path List.mem_cons_self)
  | corruption cause =>
    cases cause with
    | payload fault => exact .append (by decide) fault.zeroFree_detail
    | log damage => exact .append (by decide) damage.zeroFree_describe
    | format tag file =>
      refine .append (by decide) ?_
      exact ((ZeroFree.append (by decide) (zeroFree_quoted tag)).append (by decide)).append (h file List.mem_cons_self)
    | other text => exact .append (by decide) (h text List.mem_cons_self)
  | closed => decide
  | invalidArgument cause =>
    refine .append (by decide) ?_
    cases cause with
    | bloomBits bits =>
      exact ((ZeroFree.append (by decide) (zeroFree_digits bits)).append (by decide)).append (zeroFree_digits _)
    | notADirectory path => exact .append (by decide) (h path List.mem_cons_self)
    | truncateBeyond length size =>
      exact ((ZeroFree.append (by decide) (zeroFree_digits length)).append (by decide)).append (zeroFree_digits size)
    | fieldTooLong | payloadTooLong | tooManyOperations => decide
    | other text => exact h text List.mem_cons_self

theorem EngineError.zeroFree_ofSystem (fault : SystemFault) : ZeroFree (ofSystem fault).message :=
  zeroFree_message nofun

namespace StoreError

theorem zeroFree_ofEngine {e : EngineError} (h : ZeroFree e.message) : ZeroFree (ofEngine e).message := by
  cases e with
  | closed => decide
  | _ => exact .append (by decide) h

theorem zeroFree_ofOpen {path : String} {e : EngineError} (hpath : ZeroFree path) (h : ZeroFree e.message) :
    ZeroFree (ofOpen path e).message := by
  cases e with
  | alreadyExists => exact .append (by decide) hpath
  | _ => exact ((ZeroFree.append (by decide) hpath).append (by decide)).append h

theorem zeroFree_closed (resource : Resource) : ZeroFree (closed resource).message := by cases resource <;> decide

theorem zeroFree_invalidCursorState {call : String} (hcall : ZeroFree call) (state : CursorState) :
    ZeroFree (invalidCursorState call state).message := by
  have hstate : ZeroFree state.name := by cases state <;> decide
  exact ((ZeroFree.append (by decide) hcall).append (by decide)).append hstate

end StoreError

end OrderedStore
