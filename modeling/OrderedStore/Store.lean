import OrderedStore.Counters
import OrderedStore.Engine
import OrderedStore.Store.Error

/-!
# Stores

A store owns one engine, counts what it does, and hands out cursors, batches and snapshots. Closing the
store releases all of them and then closes the engine; what is left of them reports itself closed.

* `Store`: an engine, the registry of the store's children, their tokens, the counters;
* `get`, `put`, `delete`, `property`: calls that go to the engine;
* `adopt`, `release`, `forget`: how a child comes and goes;
* `close`, `drop`: the end of a store.

A failed call is counted as an error, but for the calls that only make a child: those are counted when
they succeed.
-/

namespace OrderedStore

/-- What the token of a child holds. -/
inductive Held (κ ς : Type) where
  | cursor (raw : κ)
  | batch (ops : List Operation)
  | snapshot (view : ς)
  deriving DecidableEq

/-- A store over an engine of type `ε`, with cursors `κ` and views `ς`. -/
structure Store (ε κ ς : Type) where
  path : Option String
  options : Options
  engine : ε
  isOpen : Bool
  registry : Registry
  tokens : Tokens (Held κ ς)
  counters : Counters

namespace Store

variable {ε κ ς : Type}

/-- A new store over an open engine. -/
def ofEngine (path : Option String) (options : Options) (engine : ε) : Store ε κ ς :=
  ⟨path, options, engine, true, .empty, .empty, {}⟩

/-- The same store over another form of its engine. -/
def mapEngine {δ : Type} (f : ε → δ) (s : Store ε κ ς) : Store δ κ ς :=
  ⟨s.path, s.options, f s.engine, s.isOpen, s.registry, s.tokens, s.counters⟩

/-- The numbers of live cursors, batches and snapshots. -/
def liveChildren (s : Store ε κ ς) : Nat × Nat × Nat :=
  (s.registry.live .cursor, s.registry.live .batch, s.registry.live .snapshot)

/-- The store as a diagnostic shows it. -/
def diagnostic (s : Store ε κ ς) : String :=
  s!"Store \x7b path: {Text.quotedPath? s.path}, open: {s.isOpen}, children: {s.registry.diagnostic} \x7d"

/-! ## Children -/

/-- Takes a new child in: a token that holds `held`, and a number. -/
def adopt (s : Store ε κ ς) (kind : Resource) (held : Held κ ς) : TokenId × Nat × Store ε κ ς :=
  let (token, tokens) := s.tokens.create held
  let (id, registry) := s.registry.register kind token
  (token, id, { s with tokens, registry })

/-- The engine cursor behind a token. -/
def cursor? (s : Store ε κ ς) (token : TokenId) : Option κ :=
  match s.tokens.get? token with
  | some (.cursor raw) => some raw
  | _ => none

/-- The operations behind a token. -/
def batch? (s : Store ε κ ς) (token : TokenId) : Option (List Operation) :=
  match s.tokens.get? token with
  | some (.batch ops) => some ops
  | _ => none

/-- The engine view behind a token. -/
def snapshot? (s : Store ε κ ς) (token : TokenId) : Option ς :=
  match s.tokens.get? token with
  | some (.snapshot view) => some view
  | _ => none

/-- Changes what a live token holds. -/
def hold (s : Store ε κ ς) (token : TokenId) (held : Held κ ς) : Store ε κ ς :=
  { s with tokens := s.tokens.set token held }

variable [Engine ε κ ς]

/-- Takes away what a token holds; a reader of the engine is dropped. -/
def release (s : Store ε κ ς) (token : TokenId) : Store ε κ ς :=
  let tokens := s.tokens.release token
  match s.tokens.get? token with
  | none => s
  | some (.cursor raw) => { s with tokens, engine := Engine.dropCursor raw s.engine }
  | some (.batch _) => { s with tokens }
  | some (.snapshot view) => { s with tokens, engine := Engine.dropView view s.engine }

/-- Closes the child of a token and a number. -/
def forget (s : Store ε κ ς) (token : TokenId) (id : Nat) : Store ε κ ς :=
  let s := s.release token
  { s with registry := s.registry.unregister id }

/-- Forgets a child that nobody has any more. -/
def discard (s : Store ε κ ς) (token : TokenId) (id : Nat) : Store ε κ ς :=
  let s := s.forget token id
  { s with tokens := s.tokens.discard token }

/-! ## Calls -/

/-- Calls the engine of an open store, and counts an error. -/
def call {α : Type} (s : Store ε κ ς) (f : ε → Except EngineError α × ε) : Except StoreError α × Store ε κ ς :=
  if !s.isOpen then (.error (.closed .store), s)
  else match f s.engine with
    | (.ok a, engine) => (.ok a, { s with engine })
    | (.error e, engine) => (.error (.ofEngine e), { s with engine, counters := s.counters.countError })

/-- Counts a call that succeeded. -/
def count {α : Type} (note : α → Counters → Counters) :
    Except StoreError α × Store ε κ ς → Except StoreError α × Store ε κ ς
  | (.ok a, s) => (.ok a, { s with counters := note a s.counters })
  | (.error e, s) => (.error e, s)

/-- The value of a key. -/
def get (s : Store ε κ ς) (key : Bytes) : Except StoreError (Option Bytes) × Store ε κ ς :=
  count (fun value c => c.countRead (.ofNat (value.elim 0 List.length))) (s.call (Engine.get key))

def put (s : Store ε κ ς) (key value : Bytes) : Except StoreError Unit × Store ε κ ς :=
  count (fun _ c => c.countWrite (.ofNat (key.length + value.length))) (s.call (Engine.put key value))

def delete (s : Store ε κ ς) (key : Bytes) : Except StoreError Unit × Store ε κ ς :=
  count (fun _ c => c.countDelete) (s.call (Engine.delete key))

/-- A property of the engine. -/
def property (s : Store ε κ ς) (name : String) : Except StoreError (Option String) × Store ε κ ς :=
  s.call fun engine => let (value, engine) := Engine.property name engine; (.ok value, engine)

/-- Asks the engine of an open store for a reader; a failure is not counted. -/
def request {α : Type} (s : Store ε κ ς) (f : ε → Except EngineError α × ε) :
    Except StoreError α × Store ε κ ς :=
  if !s.isOpen then (.error (.closed .store), s)
  else match f s.engine with
    | (.ok a, engine) => (.ok a, { s with engine })
    | (.error e, engine) => (.error (.ofEngine e), { s with engine })

/-! ## Closing -/

/-- Releases every child. -/
def releaseAll (s : Store ε κ ς) : Store ε κ ς :=
  let (children, registry) := s.registry.drain s.tokens
  children.foldl (fun s child => s.release child.token) { s with registry }

/-- Closes the store, whether closing the engine succeeds or not. A second closing does nothing. -/
def close (s : Store ε κ ς) : Except StoreError Unit × Store ε κ ς :=
  if !s.isOpen then (.ok (), s)
  else
    let s := s.releaseAll
    match Engine.close s.engine with
    | (.ok (), engine) => (.ok (), { s with engine, isOpen := false })
    | (.error e, engine) =>
      (.error (.ioFailure e), { s with engine, isOpen := false, counters := s.counters.countError })

/-- Closes a store that nobody has any more. -/
def drop (s : Store ε κ ς) : Store ε κ ς := s.close.2

end Store

end OrderedStore
