import OrderedStore.Chain
import OrderedStore.KeyMap

/-!
# Version maps

An ordered map from keys to their versions, and the set of its stale keys: those with versions that
a higher floor would drop. Writing prunes the chain of the key it touches; a sweep prunes the stale
keys.

* `insert`, `apply`, `record`: writing one key, a batch, a logged record;
* `sweep`: pruning when the floor has risen, with the number of versions freed;
* `get?`, `seek`, `after`, `before`, `first?`, `last?`, `live`: what a reader at a sequence sees.
-/

namespace OrderedStore

/-- An entry that a reader sees: a key and its value. -/
abbrev Entry := Bytes × Bytes

/-- The versions of every key. -/
@[ext] structure VersionMap where
  chains : KeyMap Chain
  /-- The keys with versions that a higher floor would drop. -/
  stale : KeySet
  deriving DecidableEq

namespace VersionMap

def empty : VersionMap := ⟨.empty, .empty⟩

instance : Inhabited VersionMap := ⟨empty⟩

/-! ## Writing -/

/-- Records a write of `key`. No reader is below `floor`. -/
def insert (m : VersionMap) (key : Bytes) (seq : Sequence) (value : Option Bytes) (floor : Sequence) :
    VersionMap :=
  let chain := (((m.chains.get? key).getD []).write seq value).prune floor
  if chain.gone floor then ⟨m.chains.erase key, m.stale.erase key⟩
  else if chain.reclaimable then ⟨m.chains.insert key chain, m.stale.insert key ()⟩
  else ⟨m.chains.insert key chain, m.stale.erase key⟩

/-- Records the operations of a batch, in order, at one sequence. -/
def apply (m : VersionMap) (ops : List Operation) (seq floor : Sequence) : VersionMap :=
  ops.foldl (fun m op => m.insert op.key seq op.value? floor) m

/-- Records what a logged record changes. -/
def record (m : VersionMap) (r : Record) (floor : Sequence) : VersionMap := m.apply r.operations r.seq floor

/-- Prunes the chain of one stale key; with it the number of versions freed. -/
def sweepKey (floor : Sequence) (m : VersionMap) (key : Bytes) : VersionMap × Nat :=
  match m.chains.get? key with
  | none => (⟨m.chains, m.stale.erase key⟩, 0)
  | some chain =>
    let kept := chain.prune floor
    if kept.gone floor then (⟨m.chains.erase key, m.stale.erase key⟩, chain.length)
    else
      let stale := if kept.reclaimable then m.stale else m.stale.erase key
      (⟨m.chains.insert key kept, stale⟩, chain.length - kept.length)

/-- Prunes the chain of every stale key; with it the number of versions freed. -/
def sweep (m : VersionMap) (floor : Sequence) : VersionMap × Nat :=
  m.stale.keys.foldl (fun (m, freed) key =>
    let (m, more) := sweepKey floor m key
    (m, freed + more)) (m, 0)

/-! ## Reading -/

/-- The value of `key` for a reader at `seq`. -/
def get? (m : VersionMap) (key : Bytes) (seq : Sequence) : Option Bytes :=
  (m.chains.get? key).bind (Chain.visible seq)

/-- An entry of the map as a reader sees it. -/
def seen (seq : Sequence) (e : Bytes × Chain) : Option Entry := (e.2.visible seq).map (e.1, ·)

/-- The smallest visible entry whose key is not below `target`. -/
def seek (m : VersionMap) (target : Bytes) (seq : Sequence) : Option Entry :=
  (m.chains.entries.filter (fun e => ¬ e.1 < target)).findSome? (seen seq)

/-- The smallest visible entry above `key`. -/
def after (m : VersionMap) (key : Bytes) (seq : Sequence) : Option Entry :=
  (m.chains.entries.filter (key < ·.1)).findSome? (seen seq)

/-- The largest visible entry below `key`. -/
def before (m : VersionMap) (key : Bytes) (seq : Sequence) : Option Entry :=
  (m.chains.entries.filter (·.1 < key)).reverse.findSome? (seen seq)

/-- The smallest visible entry. -/
def first? (m : VersionMap) (seq : Sequence) : Option Entry := m.chains.entries.findSome? (seen seq)

/-- The largest visible entry. -/
def last? (m : VersionMap) (seq : Sequence) : Option Entry := m.chains.entries.reverse.findSome? (seen seq)

/-- Every visible entry, in ascending order of keys. -/
def live (m : VersionMap) (seq : Sequence) : List Entry := m.chains.entries.filterMap (seen seq)

/-- The number of versions kept. -/
def versionCount (m : VersionMap) : Nat := m.chains.entries.foldr (fun e n => e.2.length + n) 0

end VersionMap

end OrderedStore
