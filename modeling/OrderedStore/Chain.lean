import OrderedStore.Record

/-!
# Versions of one key

Every write of a key leaves a version: its sequence, and the value or a tombstone. A chain is the
list of the versions that are kept, oldest first in the order of writing. A reader at sequence `s`
sees the last version whose sequence is at most `s`.

* `Chain.write`: one more write; a second write of the same sequence replaces the first;
* `Chain.prune`: dropping what no reader at or above a floor can see;
* `Chain.gone`: what is left is a tombstone that every such reader sees;
* `Chain.reclaimable`: a higher floor could drop more.
-/

namespace OrderedStore

/-- One version of a key: no value is a tombstone. -/
structure Version where
  seq : Sequence
  value : Option Bytes
  deriving DecidableEq

/-- The versions of a key, oldest first. -/
abbrev Chain := List Version

namespace Chain

/-- Adds a version; a last version of the same sequence is replaced. -/
def write (seq : Sequence) (value : Option Bytes) : Chain → Chain
  | [] => [⟨seq, value⟩]
  | [v] => if v.seq = seq then [⟨seq, value⟩] else [v, ⟨seq, value⟩]
  | v :: w :: rest => v :: write seq value (w :: rest)

/-- The version that a reader at `seq` selects. -/
def select (seq : Sequence) (c : Chain) : Option Version := c.reverse.find? (·.seq ≤ seq)

/-- The value that a reader at `seq` sees. -/
def visible (seq : Sequence) (c : Chain) : Option Bytes := (select seq c).bind (·.value)

/-- Drops the versions before the last one at or below `floor`. -/
def prune (floor : Sequence) : Chain → Chain
  | [] => []
  | v :: rest => if rest.any (·.seq ≤ floor) then prune floor rest else v :: rest

/-- Whether the chain is one tombstone that every reader at or above `floor` sees. -/
def gone (floor : Sequence) : Chain → Bool
  | [v] => v.value.isNone && v.seq ≤ floor
  | _ => false

/-- Whether a higher floor could drop any of the versions. -/
def reclaimable (c : Chain) : Bool := 1 < c.length || c.any (·.value.isNone)

end Chain

end OrderedStore
