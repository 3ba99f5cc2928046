import OrderedStore.Pins
import OrderedStore.VersionMap

/-!
# Timelines

What a connection and its readers share: the versions of every key, the pins of the readers, and
the sequence of the last commit. Versions are kept as long as a pinned reader, or a reader of the
present, could select them.

* `commit`: a write at the next sequence; `replay`: a logged write, when no reader is there;
* `pin`, `unpin`: a reader comes or goes; when the oldest one goes, what it held is swept.
-/

namespace OrderedStore

/-- The state that a connection shares with its readers. -/
structure Timeline where
  versions : VersionMap
  pins : Pins
  /-- The sequence of the last commit. -/
  sequence : Sequence
  deriving DecidableEq

namespace Timeline

def empty : Timeline := ⟨.empty, .empty, 0⟩

instance : Inhabited Timeline := ⟨empty⟩

/-- The oldest sequence at which a reader may stand when `latest` is the last commit. -/
def floor (t : Timeline) (latest : Sequence) : Sequence :=
  match t.pins.oldest? with
  | none => latest
  | some oldest => if oldest ≤ latest then oldest else latest

/-- Publishes a record. -/
def commit (t : Timeline) (r : Record) : Timeline :=
  { t with versions := t.versions.record r (t.floor r.seq), sequence := r.seq }

/-- Takes up a record from a log. The sequence is the largest one met. -/
def replay (t : Timeline) (r : Record) : Timeline :=
  { t with
    versions := t.versions.record r r.seq
    sequence := if t.sequence ≤ r.seq then r.seq else t.sequence }

/-- The timeline of a list of logged records. -/
def ofRecords (records : List Record) : Timeline := records.foldl replay empty

/-- Pins `seq`. -/
def pin (t : Timeline) (seq : Sequence) : Timeline := { t with pins := t.pins.pin seq }

/-- Drops the versions that only readers already gone could see. -/
def sweep (t : Timeline) : Timeline := { t with versions := (t.versions.sweep (t.floor t.sequence)).1 }

/-- Releases one pin at `seq`, and sweeps if it was the oldest. -/
def unpin (t : Timeline) (seq : Sequence) : Timeline :=
  let released := { t with pins := t.pins.unpin seq }
  if released.pins.oldest? = t.pins.oldest? then released else released.sweep

/-- The entries at the last commit, in ascending order of keys. -/
def live (t : Timeline) : List Entry := t.versions.live t.sequence

end Timeline

end OrderedStore
