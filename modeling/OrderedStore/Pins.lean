import OrderedStore.Record

/-!
# Pins

The sequences at which readers stand, one pin for each reader. The oldest of them bounds what may
be dropped.
-/

namespace OrderedStore

/-- The pinned sequences, once for every pin. -/
structure Pins where
  pinned : List Sequence
  deriving DecidableEq

namespace Pins

def empty : Pins := ⟨[]⟩

instance : Inhabited Pins := ⟨empty⟩

/-- One more pin. -/
def pin (p : Pins) (seq : Sequence) : Pins := ⟨seq :: p.pinned⟩

/-- One pin less; nothing if there is none at `seq`. -/
def unpin (p : Pins) (seq : Sequence) : Pins := ⟨p.pinned.erase seq⟩

/-- The smallest pinned sequence. -/
def oldest? (p : Pins) : Option Sequence := p.pinned.min?

/-- The number of pins. -/
def size (p : Pins) : Nat := p.pinned.length

end Pins

end OrderedStore
