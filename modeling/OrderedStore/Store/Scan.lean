import OrderedStore.Store.Cursor

/-!
# Scans

Listing the entries of a store in one direction.

* `Window`: which entries are asked for;
* `Cursor.walk`: the entries from where a cursor is;
* `Cursor.place`: the cursor at the first entry of a window;
* `Store.scan`: the entries of a window.
-/

namespace OrderedStore

/-- The entries that a scan asks for. -/
structure Window where
  /-- The key to begin at: the smallest one not below it, or in reverse the largest one not above it. -/
  start : Option Bytes := none
  /-- From the largest key down. -/
  reverse : Bool := false
  limit : Option Nat := none
  deriving DecidableEq

namespace Window

/-- The length of a scan without a limit, which no store reaches. -/
def unlimited : Nat := UInt64.size - 1

/-- How many entries the scan lists at most. -/
def bound (w : Window) : Nat := w.limit.getD unlimited

/-- The step from one entry to the next. -/
def step (reverse : Bool) : Move := if reverse then .prev else .next

end Window

namespace Store

variable {ε κ ς : Type} [Engine ε κ ς]

namespace Cursor

/-- At most `n` entries from where the cursor is, in one direction. -/
def walk (reverse : Bool) (n : Nat) (c : Cursor) (s : Store ε κ ς) :
    Except StoreError (List Entry) × Cursor × Store ε κ ς :=
  match n with
  | 0 => (.ok [], c, s)
  | n + 1 =>
    if !c.isValid s then (.ok [], c, s)
    else match c.entry s with
      | .error e => (.error e, c, s)
      | .ok entry =>
        match c.move (Window.step reverse) s with
        | (.error e, c, s) => (.error e, c, s)
        | (.ok (), c, s) =>
          let (rest, c, s) := walk reverse n c s
          (rest.map (entry :: ·), c, s)

/-- Moves the cursor to the largest key that is not above `target`. -/
def seekBack (target : Bytes) (c : Cursor) (s : Store ε κ ς) : Except StoreError Unit × Cursor × Store ε κ ς :=
  match c.move (.seek target) s with
  | (.error e, c, s) => (.error e, c, s)
  | (.ok (), c, s) =>
    if !c.isValid s then c.move .last s
    else match c.key s with
      | .error e => (.error e, c, s)
      | .ok key => if key = target then (.ok (), c, s) else c.move .prev s

/-- Moves the cursor to the first entry of a window. -/
def place (w : Window) (c : Cursor) (s : Store ε κ ς) : Except StoreError Unit × Cursor × Store ε κ ς :=
  match w.start, w.reverse with
  | none, false => c.move .first s
  | none, true => c.move .last s
  | some start, false => c.move (.seek start) s
  | some start, true => c.seekBack start s

end Cursor

/-- The entries of a window, in the order of the scan. -/
def scan (w : Window) (s : Store ε κ ς) : Except StoreError (List Entry) × Store ε κ ς :=
  match s.cursor with
  | (.error e, s) => (.error e, s)
  | (.ok c, s) =>
    match c.place w s with
    | (.error e, c, s) => (.error e, c.drop s)
    | (.ok (), c, s) =>
      let (entries, c, s) := c.walk w.reverse w.bound s
      (entries, c.drop s)

end Store

end OrderedStore
