import OrderedStore.Store.Cursor

/-!
# Snapshots

A snapshot sees the store as it was when the snapshot was made. It can be read and can hand out cursors
that see the same; those stay when the snapshot is closed.

* `Store.snapshot`: a new snapshot of a store;
* `Snapshot.get`, `sequence`, `cursor`: what it is asked; a failed read is not counted;
* `Snapshot.close`, `drop`: the end of a snapshot.
-/

namespace OrderedStore

namespace Store

/-- A snapshot of a store. -/
structure Snapshot where
  token : TokenId
  id : Nat
  deriving DecidableEq

variable {ε κ ς : Type} [Engine ε κ ς]

/-- Takes a snapshot of the last commit. -/
def snapshot (s : Store ε κ ς) : Except StoreError Snapshot × Store ε κ ς :=
  match s.request Engine.openView with
  | (.error e, s) => (.error e, s)
  | (.ok view, s) =>
    let (token, id, s) := { s with counters := s.counters.countSnapshot }.adopt .snapshot (.snapshot view)
    (.ok ⟨token, id⟩, s)

namespace Snapshot

def isOpen (n : Snapshot) (s : Store ε κ ς) : Bool := (s.snapshot? n.token).isSome

/-- The sequence of the last commit that the snapshot sees. -/
def sequence (n : Snapshot) (s : Store ε κ ς) : Except StoreError Sequence :=
  match s.snapshot? n.token with
  | none => .error (.closed .snapshot)
  | some view => .ok (Engine.sequence ε view)

/-- The value of a key. -/
def get (key : Bytes) (n : Snapshot) (s : Store ε κ ς) : Except StoreError (Option Bytes) × Store ε κ ς :=
  match s.snapshot? n.token with
  | none => (.error (.closed .snapshot), s)
  | some view =>
    let (result, engine) := Engine.getAt view key s.engine
    (result.mapError .ofEngine, { s with engine })

/-- Opens a cursor on what the snapshot sees. -/
def cursor (n : Snapshot) (s : Store ε κ ς) : Except StoreError Cursor × Store ε κ ς :=
  if !s.isOpen then (.error (.closed .snapshot), s)
  else match s.snapshot? n.token with
    | none => (.error (.closed .snapshot), s)
    | some view =>
      let (raw, engine) := Engine.cursorAt view s.engine
      let (c, s) := { s with engine }.adoptCursor raw
      (.ok c, s)

/-- Closes the snapshot. -/
def close (n : Snapshot) (s : Store ε κ ς) : Store ε κ ς := s.forget n.token n.id

/-- Closes a snapshot that nobody has any more. -/
def drop (n : Snapshot) (s : Store ε κ ς) : Store ε κ ς := s.discard n.token n.id

/-- The snapshot as a diagnostic shows it. -/
def diagnostic (n : Snapshot) (s : Store ε κ ς) : String :=
  s!"Snapshot \x7b id: {n.id}, open: {n.isOpen s} \x7d"

end Snapshot

end Store

end OrderedStore
