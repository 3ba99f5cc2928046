import OrderedStore.Store

/-!
# Cursors

A cursor walks over the entries that were there when it was made. A seek may be made from anywhere; a
step to a neighbour, and reading, only from an entry.

* `Store.cursor`: a new cursor of a store;
* `Cursor.move`: a seek or a step, after which the cursor is on an entry or exhausted;
* `Cursor.key`, `value`, `entry`: reading;
* `Cursor.close`, `drop`: the end of a cursor.
-/

namespace OrderedStore

/-- The name of a move that needs an entry to start from. -/
def Move.step? : Move → Option String
  | .next => some "next"
  | .prev => some "prev"
  | _ => none

namespace Store

/-- A cursor of a store. -/
structure Cursor where
  token : TokenId
  id : Nat
  /-- Where the last move led. -/
  position : CursorState
  deriving DecidableEq

variable {ε κ ς : Type} [Engine ε κ ς]

/-- Takes an engine cursor in as a new child. -/
def adoptCursor (s : Store ε κ ς) (raw : κ) : Cursor × Store ε κ ς :=
  let (token, id, s) := { s with counters := s.counters.countCursor }.adopt .cursor (.cursor raw)
  (⟨token, id, .unset⟩, s)

/-- Opens a cursor on the entries at the last commit. -/
def cursor (s : Store ε κ ς) : Except StoreError Cursor × Store ε κ ς :=
  match s.request Engine.openCursor with
  | (.error e, s) => (.error e, s)
  | (.ok raw, s) => let (c, s) := s.adoptCursor raw; (.ok c, s)

namespace Cursor

def state (c : Cursor) (s : Store ε κ ς) : CursorState := if (s.cursor? c.token).isSome then c.position else .closed

/-- The cursor is on an entry. -/
def isValid (c : Cursor) (s : Store ε κ ς) : Bool := c.state s = .positioned

/-- Refuses a call that needs an entry. -/
def requirePositioned (c : Cursor) (s : Store ε κ ς) (call : String) : Except StoreError Unit :=
  match c.state s with
  | .positioned => .ok ()
  | .closed => .error (.closed .cursor)
  | state => .error (.invalidCursorState call state)

/-- Moves the cursor from wherever it is. -/
def step (m : Move) (c : Cursor) (s : Store ε κ ς) : Except StoreError Unit × Cursor × Store ε κ ς :=
  match s.cursor? c.token with
  | none => (.error (.closed .cursor), c, s)
  | some raw =>
    let (raw, engine) := Engine.move m raw s.engine
    let position := if Engine.isValid raw engine then .positioned else .exhausted
    (.ok (), { c with position }, { s with engine }.hold c.token (.cursor raw))

/-- Moves the cursor; a step to a neighbour needs an entry to start from. -/
def move (m : Move) (c : Cursor) (s : Store ε κ ς) : Except StoreError Unit × Cursor × Store ε κ ς :=
  match (m.step?.elim (.ok ()) (c.requirePositioned s) : Except StoreError Unit) with
  | .error e => (.error e, c, s)
  | .ok () => c.step m s

/-- Reads from the engine cursor; one that stands on an entry but shows nothing counts as exhausted. -/
def read {α : Type} (c : Cursor) (s : Store ε κ ς) (call : String) (f : κ → ε → Option α) : Except StoreError α := do
  c.requirePositioned s call
  match s.cursor? c.token with
  | none => .error (.closed .cursor)
  | some raw =>
    match f raw s.engine with
    | none => .error (.invalidCursorState call .exhausted)
    | some a => .ok a

def key (c : Cursor) (s : Store ε κ ς) : Except StoreError Bytes := c.read s "key" Engine.key

def value (c : Cursor) (s : Store ε κ ς) : Except StoreError Bytes := c.read s "value" Engine.value

def entry (c : Cursor) (s : Store ε κ ς) : Except StoreError Entry :=
  c.read s "entry" fun raw engine => do
    let key ← Engine.key raw engine
    let value ← Engine.value raw engine
    return (key, value)

/-- Closes the cursor. -/
def close (c : Cursor) (s : Store ε κ ς) : Store ε κ ς := s.forget c.token c.id

/-- Closes a cursor that nobody has any more. -/
def drop (c : Cursor) (s : Store ε κ ς) : Store ε κ ς := s.discard c.token c.id

/-- The cursor as a diagnostic shows it. -/
def diagnostic (c : Cursor) (s : Store ε κ ς) : String :=
  s!"Cursor \x7b id: {c.id}, state: {(c.state s).word} \x7d"

end Cursor

end Store

end OrderedStore
