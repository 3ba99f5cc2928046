import OrderedStore.Crc32
import OrderedStore.Record.Payload

/-!
# Record frames

A frame is four bytes of magic, the format version in two, the record's kind in one, the payload's
length in four, the payload, and a checksum of everything before it in four.

* `Frame.encodeWith`, `Frame.parseWith`: writing a frame, and reading the frame at the front of a
  byte string, for any checksum;
* `Frame.encode`, `Frame.parse`: the same with the CRC-32 that logs use.

Reading examines the fields from left to right and names the first one that is wrong.
-/

namespace OrderedStore.Frame

/-- The bytes `BLOG`. -/
def magic : Bytes := [66, 76, 79, 71]

/-- The format version written and read here. -/
def version : Nat := 1

/-- Bytes before the payload. -/
def headerSize : Nat := 11

/-- Bytes of the checksum. -/
def checksumSize : Nat := 4

/-- Everything that the checksum covers. -/
def body (kind : Record.Kind) (payload : Bytes) : Bytes :=
  magic ++ Bytes.ofNatLE 2 version ++ kind.tag :: Bytes.ofNatLE 4 payload.length ++ payload

def encodeWith (sum : Bytes → UInt32) (r : Record) : Except BadArgument Bytes := do
  let payload ← Payload.encode r
  if payload.length < Payload.limit then
    let body := body r.kind payload
    return body ++ Bytes.ofNatLE checksumSize (sum body).toNat
  else .error .payloadTooLong

/-- Reads what stands behind a header that announces a payload of `length` bytes: `covered` is all that the
checksum covers, and `rest` starts at the payload. -/
def parseBody (sum : Bytes → UInt32) (kind : Record.Kind) (length : Nat) (covered rest : Bytes) :
    Except FrameFault (Record × Nat) :=
  let checksum := (rest.drop length).take checksumSize
  if checksum.length < checksumSize then .error .tornBody
  else
    let stored := UInt32.ofNat (Bytes.toNatLE checksum)
    let actual := sum covered
    if stored ≠ actual then .error (.checksumMismatch stored actual)
    else match Payload.decode kind (rest.take length) with
      | .error fault => .error (.payload fault)
      | .ok record => .ok (record, headerSize + length + checksumSize)

/-- The record at the front of `data`, and the length of its frame. -/
def parseWith (sum : Bytes → UInt32) (data : Bytes) : Except FrameFault (Record × Nat) :=
  match data with
  | m₀ :: m₁ :: m₂ :: m₃ :: v₀ :: v₁ :: tag :: l₀ :: l₁ :: l₂ :: l₃ :: rest =>
    if [m₀, m₁, m₂, m₃] ≠ magic then .error .badMagic
    else if Bytes.toNatLE [v₀, v₁] ≠ version then .error (.unsupportedVersion (Bytes.toNatLE [v₀, v₁]))
    else match Record.Kind.ofTag? tag with
      | none => .error (.unknownType tag)
      | some kind =>
        let length := Bytes.toNatLE [l₀, l₁, l₂, l₃]
        parseBody sum kind length (data.take (headerSize + length)) rest
  | _ => .error .tornHeader

theorem parseBody_eq_ok {sum : Bytes → UInt32} {kind : Record.Kind} {length : Nat} {covered rest : Bytes}
    {r : Record} {n : Nat} (h : parseBody sum kind length covered rest = .ok (r, n)) :
    n = headerSize + length + checksumSize ∧ length + checksumSize ≤ rest.length := by
  simp only [parseBody] at h
  split at h
  · cases h
  · rename_i hlen
    split at h
    · cases h
    · split at h
      · cases h
      · simp only [Except.ok.injEq, Prod.mk.injEq] at h
        simp only [List.length_take, List.length_drop, checksumSize] at hlen ⊢
        exact ⟨h.2.symm, by omega⟩

/-- A frame is not empty, and it ends within the bytes it was read from. -/
theorem parseWith_bounds {sum : Bytes → UInt32} {data : Bytes} {r : Record} {n : Nat}
    (h : parseWith sum data = .ok (r, n)) : 0 < n ∧ n ≤ data.length := by
  unfold parseWith at h
  split at h
  · split at h
    · cases h
    · split at h
      · cases h
      · split at h
        · cases h
        · have := parseBody_eq_ok h
          simp only [List.length_cons, headerSize, checksumSize] at this ⊢
          omega
  · cases h

/-- The frame of a record. -/
def encode : Record → Except BadArgument Bytes := encodeWith crc32

/-- The record at the front of a log, and the length of its frame. -/
def parse : Bytes → Except FrameFault (Record × Nat) := parseWith crc32

end OrderedStore.Frame
