import OrderedStore.Record.Frame

/-!
# Replay

Reading a log back: frame after frame, up to the end or to the first place that is not a frame.
What follows a damage is not looked at.
-/

namespace OrderedStore

/-- What a log holds. -/
structure Replay where
  /-- The records before the first damage, in log order. -/
  records : List Record
  /-- Bytes up to the end of the last of them. -/
  validLength : Nat
  /-- Bytes of the whole log. -/
  totalLength : Nat
  damage : Option Damage
  deriving DecidableEq

namespace Replay

/-- Reads the frames of `data`, which starts at `offset` of a log. -/
def readWith (sum : Bytes → UInt32) (offset : Nat) (data : Bytes) : Replay :=
  if data = [] then ⟨[], offset, offset, none⟩
  else match _h : Frame.parseWith sum data with
    | .error fault => ⟨[], offset, offset + data.length, some ⟨fault, offset⟩⟩
    | .ok (record, n) =>
      let rest := readWith sum (offset + n) (data.drop n)
      { rest with records := record :: rest.records }
termination_by data.length
decreasing_by
  have := Frame.parseWith_bounds _h
  simp only [List.length_drop]
  omega

/-- Reads a log. -/
def read (data : Bytes) : Replay := readWith crc32 0 data

end Replay

/-- The bytes of a list of records, one frame behind the other, for any checksum. -/
def encodeLogWith (sum : Bytes → UInt32) : List Record → Except BadArgument Bytes
  | [] => .ok []
  | r :: rs => do
    let first ← Frame.encodeWith sum r
    let rest ← encodeLogWith sum rs
    return first ++ rest

/-- The bytes of a log that holds a list of records. -/
def encodeLog : List Record → Except BadArgument Bytes := encodeLogWith crc32

end OrderedStore
