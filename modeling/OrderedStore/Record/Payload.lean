import OrderedStore.Error
import OrderedStore.Record

/-!
# Record payloads

A payload holds the sequence in eight bytes and then the record's fields. A byte string is written
behind its four-byte length. A batch writes the number of its operations in four bytes, and each
operation behind a tag: `1` for a put, `2` for a delete.

`Payload.encode` writes a payload and `Payload.decode` reads one. Reading is strict: a field may
not run past the end, and no byte may be left.
-/

namespace OrderedStore.Payload

/-- What a four-byte number cannot reach. -/
def limit : Nat := Bytes.capacity 4

/-! ## Writing -/

/-- A byte string behind its length. -/
def field (bs : Bytes) : Except BadArgument Bytes :=
  if bs.length < limit then .ok (Bytes.ofNatLE 4 bs.length ++ bs) else .error .fieldTooLong

def encodeOperation : Operation → Except BadArgument Bytes
  | .put key value => do
    let key ← field key
    let value ← field value
    return 1 :: key ++ value
  | .delete key => do
    let key ← field key
    return 2 :: key

def encodeOperations : List Operation → Except BadArgument Bytes
  | [] => .ok []
  | op :: ops => do
    let first ← encodeOperation op
    let rest ← encodeOperations ops
    return first ++ rest

/-- The fields behind the sequence. -/
def encodeFields : Record → Except BadArgument Bytes
  | .put _ key value => do
    let key ← field key
    let value ← field value
    return key ++ value
  | .delete _ key => field key
  | .batch _ ops =>
    if ops.length < limit then do
      let fields ← encodeOperations ops
      return Bytes.ofNatLE 4 ops.length ++ fields
    else .error .tooManyOperations

/-- The payload of a record. -/
def encode (r : Record) : Except BadArgument Bytes := do
  let fields ← encodeFields r
  return Bytes.ofNatLE 8 r.seq.toNat ++ fields

/-! ## Reading

Each reader takes what it reads off the front and returns the rest.
-/

/-- The first `n` bytes. -/
def takeBytes (n : Nat) (bs : Bytes) : Except PayloadFault (Bytes × Bytes) :=
  let front := bs.take n
  if front.length = n then .ok (front, bs.drop n) else .error .unexpectedEnd

/-- A number of `w` bytes. -/
def takeNumber (w : Nat) (bs : Bytes) : Except PayloadFault (Nat × Bytes) := do
  let (front, rest) ← takeBytes w bs
  return (Bytes.toNatLE front, rest)

/-- A byte string behind its length. -/
def takeField (bs : Bytes) : Except PayloadFault (Bytes × Bytes) := do
  let (n, rest) ← takeNumber 4 bs
  takeBytes n rest

def takeOperation : Bytes → Except PayloadFault (Operation × Bytes)
  | [] => .error .unexpectedEnd
  | tag :: rest =>
    if tag = 1 then do
      let (key, rest) ← takeField rest
      let (value, rest) ← takeField rest
      return (.put key value, rest)
    else if tag = 2 then do
      let (key, rest) ← takeField rest
      return (.delete key, rest)
    else .error (.unknownTag tag)

def takeOperations : Nat → Bytes → Except PayloadFault (List Operation × Bytes)
  | 0, bs => .ok ([], bs)
  | n + 1, bs => do
    let (op, rest) ← takeOperation bs
    let (ops, rest) ← takeOperations n rest
    return (op :: ops, rest)

/-- The fields of a record whose sequence has been read. -/
def takeFields (kind : Record.Kind) (seq : Sequence) (bs : Bytes) : Except PayloadFault (Record × Bytes) :=
  match kind with
  | .put => do
    let (key, rest) ← takeField bs
    let (value, rest) ← takeField rest
    return (.put seq key value, rest)
  | .delete => do
    let (key, rest) ← takeField bs
    return (.delete seq key, rest)
  | .batch => do
    let (count, rest) ← takeNumber 4 bs
    let (ops, rest) ← takeOperations count rest
    return (.batch seq ops, rest)

/-- The record with this payload. -/
def decode (kind : Record.Kind) (payload : Bytes) : Except PayloadFault Record := do
  let (seq, rest) ← takeNumber 8 payload
  let (record, rest) ← takeFields kind (UInt64.ofNat seq) rest
  if rest = [] then return record
  else .error (.trailing (payload.length - rest.length) payload.length)

end OrderedStore.Payload
