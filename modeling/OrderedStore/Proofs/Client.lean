import OrderedStore.Store.Batch
import OrderedStore.Store.Snapshot

/-!
# Clients

A client holds a store and the children that the store has given it, and calls them in any order. Between
two calls the engine may change by itself.

* `Client.Handle`, `Client.Place`: a child, and what its owner has done with it;
* `Client.step`: the reply to a call; `Client.run`: what events lead to.
-/

namespace OrderedStore

namespace Client

/-- A child of a store, as its owner holds it. -/
inductive Handle where
  | cursor (c : Store.Cursor)
  | batch (b : Store.Batch)
  | snapshot (n : Store.Snapshot)
  deriving DecidableEq

namespace Handle

def kind : Handle → Resource
  | cursor _ => .cursor
  | batch _ => .batch
  | snapshot _ => .snapshot

def token : Handle → TokenId
  | cursor c => c.token
  | batch b => b.token
  | snapshot n => n.token

def id : Handle → Nat
  | cursor c => c.id
  | batch b => b.id
  | snapshot n => n.id

/-- The entry of a registry that is about the child. -/
def entry (h : Handle) : Child := ⟨h.id, h.kind, h.token⟩

variable {ε κ ς : Type}

/-- Whether the child reports itself live. -/
def isLive (s : Store ε κ ς) : Handle → Bool
  | cursor c => c.state s ≠ .closed
  | batch b => b.state s ≠ .closed
  | snapshot n => n.isOpen s

variable [Engine ε κ ς]

def close (s : Store ε κ ς) : Handle → Store ε κ ς
  | cursor c => c.close s
  | batch b => b.close s
  | snapshot n => n.close s

def drop (s : Store ε κ ς) : Handle → Store ε κ ς
  | cursor c => c.drop s
  | batch b => b.drop s
  | snapshot n => n.drop s

theorem close_eq (s : Store ε κ ς) (h : Handle) : h.close s = s.forget h.token h.id := by
  cases h <;> rfl

theorem drop_eq (s : Store ε κ ς) (h : Handle) : h.drop s = s.discard h.token h.id := by
  cases h <;> rfl

end Handle

/-- What the owner of a child has done with it. -/
inductive Fate where
  /-- Neither closed nor dropped. -/
  | inUse
  | closed
  | dropped
  deriving DecidableEq

/-- A child that has been given to a client. -/
structure Place where
  handle : Handle
  fate : Fate
  deriving DecidableEq

end Client

/-- A store and its children, numbered in the order in which they were made. -/
structure Client (ε κ ς : Type) where
  store : Store ε κ ς
  places : List Client.Place

namespace Client

/-! ## Calls -/

/-- What a cursor is asked. -/
inductive CursorCall where
  | move (m : Move)
  | key
  | value
  | entry
  deriving DecidableEq

/-- What a batch is asked. -/
inductive BatchCall where
  | add (op : Operation)
  | write
  | writeAndClose
  deriving DecidableEq

/-- What a snapshot is asked. -/
inductive SnapshotCall where
  | get (key : Bytes)
  | sequence
  | cursor
  deriving DecidableEq

/-- What a child is asked. -/
inductive ChildCall where
  | cursor (q : CursorCall)
  | batch (q : BatchCall)
  | snapshot (q : SnapshotCall)
  | close
  | drop
  deriving DecidableEq

/-- The kind of child that a call is for; every child can be closed and dropped. -/
def ChildCall.kind? : ChildCall → Option Resource
  | cursor _ => some .cursor
  | batch _ => some .batch
  | snapshot _ => some .snapshot
  | close | drop => none

/-- What a client calls. -/
inductive Call where
  | get (key : Bytes)
  | put (key value : Bytes)
  | delete (key : Bytes)
  | property (name : String)
  | openCursor
  | openBatch
  | openSnapshot
  /-- Asks child `n`. -/
  | child (n : Nat) (q : ChildCall)
  /-- Closes the store. -/
  | close
  /-- Drops the store. -/
  | drop
  deriving DecidableEq

/-- The call is the end of the store. -/
def Call.ends : Call → Bool
  | close | drop => true
  | _ => false

/-- What a call that succeeds gives. -/
inductive Outcome where
  | done
  | value (v : Option Bytes)
  | text (t : Option String)
  /-- The number of a new child. -/
  | child (n : Nat)
  | bytes (b : Bytes)
  | entry (e : Entry)
  /-- Whether a batch was applied now. -/
  | applied (now : Bool)
  | sequence (s : Sequence)
  /-- There is no such child, or it is of another kind, or it has been dropped. -/
  | noChild
  deriving DecidableEq

/-- What a call gives. -/
abbrev Reply := Except StoreError Outcome

/-- What happens around a store: a call, or a change of the engine that is described by a `δ`. -/
inductive Event (δ : Type) where
  | call (q : Call)
  | change (d : δ)

/-- The event is the end of the store. -/
def Event.ends {δ : Type} : Event δ → Bool
  | call q => q.ends
  | change _ => false

variable {ε κ ς δ : Type}

/-- A client of a store that has no children yet. -/
def start (store : Store ε κ ς) : Client ε κ ς := ⟨store, []⟩

/-- Takes a new child, if there is one. -/
def receive (c : Client ε κ ς) : Except StoreError Handle × Store ε κ ς → Reply × Client ε κ ς
  | (.error e, store) => (.error e, { c with store })
  | (.ok handle, store) => (.ok (.child c.places.length), ⟨store, c.places ++ [⟨handle, .inUse⟩]⟩)

variable [Engine ε κ ς]

/-- Asks the cursor in place `n`. -/
def askCursor (c : Client ε κ ς) (n : Nat) (place : Place) (cursor : Store.Cursor) : CursorCall → Reply × Client ε κ ς
  | .move m =>
    let (result, cursor, store) := cursor.move m c.store
    (result.map fun _ => .done, ⟨store, c.places.set n { place with handle := .cursor cursor }⟩)
  | .key => ((cursor.key c.store).map .bytes, c)
  | .value => ((cursor.value c.store).map .bytes, c)
  | .entry => ((cursor.entry c.store).map .entry, c)

/-- Asks the batch in place `n`. Writing and closing it uses it up. -/
def askBatch (c : Client ε κ ς) (n : Nat) (place : Place) (batch : Store.Batch) : BatchCall → Reply × Client ε κ ς
  | .add op =>
    let (result, store) := batch.add op c.store
    (result.map fun _ => .done, { c with store })
  | .write =>
    let (result, batch, store) := batch.write c.store
    (result.map .applied, ⟨store, c.places.set n { place with handle := .batch batch }⟩)
  | .writeAndClose =>
    let (result, store) := batch.writeAndClose c.store
    (result.map .applied, ⟨store, c.places.set n { place with fate := .dropped }⟩)

/-- Asks a snapshot. -/
def askSnapshot (c : Client ε κ ς) (snapshot : Store.Snapshot) : SnapshotCall → Reply × Client ε κ ς
  | .get key =>
    let (result, store) := snapshot.get key c.store
    (result.map .value, { c with store })
  | .sequence => ((snapshot.sequence c.store).map .sequence, c)
  | .cursor =>
    let (result, store) := snapshot.cursor c.store
    c.receive (result.map .cursor, store)

/-- Asks the child in place `n`. -/
def ask (c : Client ε κ ς) (n : Nat) (place : Place) (q : ChildCall) : Reply × Client ε κ ς :=
  match place.handle, q with
  | .cursor cursor, .cursor q => c.askCursor n place cursor q
  | .batch batch, .batch q => c.askBatch n place batch q
  | .snapshot snapshot, .snapshot q => c.askSnapshot snapshot q
  | handle, .close => (.ok .done, ⟨handle.close c.store, c.places.set n { place with fate := .closed }⟩)
  | handle, .drop => (.ok .done, ⟨handle.drop c.store, c.places.set n { place with fate := .dropped }⟩)
  | _, _ => (.ok .noChild, c)

/-- The reply to a call. -/
def step (c : Client ε κ ς) : Call → Reply × Client ε κ ς
  | .get key =>
    let (result, store) := c.store.get key
    (result.map .value, { c with store })
  | .put key value =>
    let (result, store) := c.store.put key value
    (result.map fun _ => .done, { c with store })
  | .delete key =>
    let (result, store) := c.store.delete key
    (result.map fun _ => .done, { c with store })
  | .property name =>
    let (result, store) := c.store.property name
    (result.map .text, { c with store })
  | .openCursor =>
    let (result, store) := c.store.cursor
    c.receive (result.map .cursor, store)
  | .openBatch =>
    let (result, store) := c.store.writeBatch
    c.receive (result.map .batch, store)
  | .openSnapshot =>
    let (result, store) := c.store.snapshot
    c.receive (result.map .snapshot, store)
  | .child n q =>
    match c.places[n]? with
    | none => (.ok .noChild, c)
    | some place => if place.fate = .dropped then (.ok .noChild, c) else c.ask n place q
  | .close =>
    let (result, store) := c.store.close
    (result.map fun _ => .done, { c with store })
  | .drop => (.ok .done, { c with store := c.store.drop })

/-- A child that nobody has dropped is asked. -/
theorem step_child {c : Client ε κ ς} {n : Nat} {place : Place} (hn : c.places[n]? = some place)
    (hfate : place.fate ≠ .dropped) (q : ChildCall) : c.step (.child n q) = c.ask n place q := by
  simp only [step, hn, if_neg hfate]

theorem step_dropped {c : Client ε κ ς} {n : Nat} {place : Place} (hn : c.places[n]? = some place)
    (hfate : place.fate = .dropped) (q : ChildCall) : c.step (.child n q) = (.ok .noChild, c) := by
  simp only [step, hn, if_pos hfate]

theorem step_unmade {c : Client ε κ ς} {n : Nat} (hn : c.places[n]? = none) (q : ChildCall) :
    c.step (.child n q) = (.ok .noChild, c) := by
  simp only [step, hn]

/-- The client after an event, when `act` says how the engine changes. -/
def next (act : δ → ε → ε) (c : Client ε κ ς) : Event δ → Client ε κ ς
  | .call q => (c.step q).2
  | .change d => { c with store := c.store.mapEngine (act d) }

/-- The client after events. -/
def run (act : δ → ε → ε) (c : Client ε κ ς) (events : List (Event δ)) : Client ε κ ς := events.foldl (next act) c

end Client

end OrderedStore
