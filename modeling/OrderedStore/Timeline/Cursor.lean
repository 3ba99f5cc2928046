import OrderedStore.Timeline

/-!
# Cursors on a timeline

A reader stands at a pinned sequence. A cursor is such a reader with a current entry, which it has
copied: the entry stays what it was while the timeline moves on. A view is such a reader without one.

* `Move`: the ways in which a cursor moves;
* `Cursor.move`: a move on a timeline;
* `View.get?`: looking a key up at the view's sequence.
-/

namespace OrderedStore

/-- The ways in which a cursor moves. -/
inductive Move where
  | first
  | last
  /-- To the smallest key that is not below the target. -/
  | seek (target : Bytes)
  | next
  | prev
  deriving DecidableEq

namespace Timeline

/-- A reader that walks over the entries. -/
structure Cursor where
  /-- The pinned sequence. -/
  seq : Sequence
  current : Option Entry
  deriving DecidableEq

namespace Cursor

/-- A cursor at `seq` that has not been moved yet. -/
def start (seq : Sequence) : Cursor := ⟨seq, none⟩

/-- The entry that a move leads to; the next and the previous entry of no entry are none. -/
def destination (t : Timeline) (c : Cursor) : Move → Option Entry
  | .first => t.versions.first? c.seq
  | .last => t.versions.last? c.seq
  | .seek target => t.versions.seek target c.seq
  | .next => c.current.bind fun e => t.versions.after e.1 c.seq
  | .prev => c.current.bind fun e => t.versions.before e.1 c.seq

def move (m : Move) (t : Timeline) (c : Cursor) : Cursor := { c with current := c.destination t m }

end Cursor

/-- A reader that looks keys up. -/
structure View where
  /-- The pinned sequence. -/
  seq : Sequence
  deriving DecidableEq

def View.get? (v : View) (key : Bytes) (t : Timeline) : Option Bytes := t.versions.get? key v.seq

end Timeline

end OrderedStore
