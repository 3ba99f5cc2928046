import OrderedStore.Bytes

/-!
# Records

A committed write, as the log keeps it: one put, one delete, or a batch of operations that share
one sequence. Sequences count commits; sequence `0` is the empty store.
-/

namespace OrderedStore

/-- The number stamped on a commit. -/
abbrev Sequence := UInt64

/-- One change of one key. -/
inductive Operation where
  | put (key value : Bytes)
  | delete (key : Bytes)
  deriving DecidableEq

namespace Operation

/-- The key that the operation changes. -/
def key : Operation → Bytes
  | put key _ => key
  | delete key => key

/-- The value that the operation leaves: none for a delete. -/
def value? : Operation → Option Bytes
  | put _ value => some value
  | delete _ => none

/-- Key and value bytes of the operation. -/
def byteSize : Operation → Nat
  | put key value => key.length + value.length
  | delete key => key.length

/-- Key and value bytes of a batch. -/
def totalSize : List Operation → Nat
  | [] => 0
  | op :: ops => op.byteSize + totalSize ops

end Operation

/-- One commit. -/
inductive Record where
  | put (seq : Sequence) (key value : Bytes)
  | delete (seq : Sequence) (key : Bytes)
  | batch (seq : Sequence) (ops : List Operation)
  deriving DecidableEq

namespace Record

/-- The three kinds of record. -/
inductive Kind where
  | put
  | delete
  | batch
  deriving DecidableEq

namespace Kind

/-- The byte that marks the kind in a log. -/
def tag : Kind → UInt8
  | put => 1
  | delete => 2
  | batch => 3

def ofTag? (tag : UInt8) : Option Kind :=
  if tag = 1 then some put else if tag = 2 then some delete else if tag = 3 then some batch else none

theorem ofTag?_eq_some_iff {tag : UInt8} {kind : Kind} : ofTag? tag = some kind ↔ tag = kind.tag := by
  unfold ofTag?
  cases kind <;> split <;> simp_all [Kind.tag] <;> split <;> simp_all

end Kind

def kind : Record → Kind
  | put .. => .put
  | delete .. => .delete
  | batch .. => .batch

def seq : Record → Sequence
  | put seq _ _ => seq
  | delete seq _ => seq
  | batch seq _ => seq

/-- The changes of a record, in order. -/
def operations : Record → List Operation
  | put _ key value => [.put key value]
  | delete _ key => [.delete key]
  | batch _ ops => ops

end Record

end OrderedStore
