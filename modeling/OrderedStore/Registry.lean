/-!
# Resources, tokens and the registry

A store hands out cursors, batches and snapshots. Each of them works through a token, which holds what
it works with; releasing the token takes that away for good. The store's registry lists the tokens of
its children, so that closing the store can release them all. The registry does not keep a token alive.

* `Resource`: the kinds of things that can be closed;
* `Tokens`: the tokens of a store; `create`, `get?`, `set`, `release`, `discard`;
* `Registry`: the children, each with its number and kind; `register`, `unregister`, `live`, `drain`.
-/

namespace OrderedStore

/-- What can be closed. -/
inductive Resource where
  | store
  | cursor
  | batch
  | snapshot
  deriving DecidableEq

/-- The name of a kind in texts. -/
def Resource.name : Resource → String
  | store => "store"
  | cursor => "cursor"
  | batch => "write batch"
  | snapshot => "snapshot"

/-- The word for a kind in diagnostics. -/
def Resource.word : Resource → String
  | store => "Store"
  | cursor => "Cursor"
  | batch => "WriteBatch"
  | snapshot => "Snapshot"

/-- The number of a token. -/
abbrev TokenId := Nat

/-- One token. -/
inductive Token (α : Type) where
  | live (value : α)
  /-- What it held has been taken away. -/
  | released
  /-- Nobody has it any more. -/
  | gone
  deriving DecidableEq

/-- All tokens ever created, by number. -/
structure Tokens (α : Type) where
  slots : List (Token α)
  deriving DecidableEq

namespace Tokens

variable {α : Type}

def empty : Tokens α := ⟨[]⟩

instance : Inhabited (Tokens α) := ⟨empty⟩

/-- A new token that holds `value`. -/
def create (t : Tokens α) (value : α) : TokenId × Tokens α := (t.slots.length, ⟨t.slots ++ [.live value]⟩)

/-- What a token holds. -/
def get? (t : Tokens α) (id : TokenId) : Option α :=
  match t.slots[id]? with
  | some (.live value) => some value
  | _ => none

def isLive (t : Tokens α) (id : TokenId) : Bool := (t.get? id).isSome

/-- Whether somebody has the token, live or released. -/
def isHeld (t : Tokens α) (id : TokenId) : Bool :=
  match t.slots[id]? with
  | some (.live _) | some .released => true
  | _ => false

/-- Changes what a live token holds. -/
def set (t : Tokens α) (id : TokenId) (value : α) : Tokens α :=
  if t.isLive id then ⟨t.slots.set id (.live value)⟩ else t

/-- Takes away what a token holds. -/
def release (t : Tokens α) (id : TokenId) : Tokens α :=
  if t.isLive id then ⟨t.slots.set id .released⟩ else t

/-- Gives a token up. -/
def discard (t : Tokens α) (id : TokenId) : Tokens α := ⟨t.slots.set id .gone⟩

end Tokens

/-- A registered child. -/
structure Child where
  id : Nat
  kind : Resource
  token : TokenId
  deriving DecidableEq

/-- The children of a store. -/
structure Registry where
  /-- The number given last; numbers are never given again. -/
  lastId : Nat
  children : List Child
  deriving DecidableEq

namespace Registry

def empty : Registry := ⟨0, []⟩

instance : Inhabited Registry := ⟨empty⟩

/-- Registers a child under a new number. -/
def register (r : Registry) (kind : Resource) (token : TokenId) : Nat × Registry :=
  (r.lastId + 1, ⟨r.lastId + 1, ⟨r.lastId + 1, kind, token⟩ :: r.children⟩)

/-- Forgets the child of a number. -/
def unregister (r : Registry) (id : Nat) : Registry := { r with children := r.children.filter (·.id ≠ id) }

/-- The number of registered children of a kind. -/
def live (r : Registry) (kind : Resource) : Nat := r.children.countP (·.kind = kind)

/-- Forgets every child; with it those whose token somebody still has. -/
def drain {α : Type} (r : Registry) (tokens : Tokens α) : List Child × Registry :=
  (r.children.filter (tokens.isHeld ·.token), { r with children := [] })

/-- The registry as a diagnostic shows it. -/
def diagnostic (r : Registry) : String :=
  s!"Registry \x7b cursors: {r.live .cursor}, write_batches: {r.live .batch}, snapshots: {r.live .snapshot} \x7d"

end Registry

end OrderedStore
