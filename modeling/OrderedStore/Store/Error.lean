import OrderedStore.Error
import OrderedStore.Registry

/-!
# Store errors

A call on a store or on one of its children fails because the engine failed, or because the caller
broke the contract: used something closed, read a cursor that stands on no entry, or changed a batch
that was already written.

* `CursorState`: what a cursor may be asked;
* `StoreError`, with `message`, `isContractViolation` and `diagnostic`;
* `StoreError.ofEngine`, `StoreError.ofOpen`: what an engine's error is to the caller.
-/

namespace OrderedStore

/-- Where a cursor is. -/
inductive CursorState where
  /-- Not moved yet. -/
  | unset
  /-- On an entry. -/
  | positioned
  /-- Moved past an end, or to a key that is not there. -/
  | exhausted
  | closed
  deriving DecidableEq

def CursorState.name : CursorState → String
  | unset => "unset"
  | positioned => "positioned"
  | exhausted => "exhausted"
  | closed => "closed"

/-- The word for a cursor's state in diagnostics. -/
def CursorState.word : CursorState → String
  | unset => "Unset"
  | positioned => "Positioned"
  | exhausted => "Exhausted"
  | closed => "Closed"

/-- Errors of a store and its children. -/
inductive StoreError where
  | openFailure (path : String) (source : EngineError)
  /-- A store is at the path, and the options ask for a new one. -/
  | alreadyExists (path : String)
  /-- The engine failed in a call other than opening and batch writing. -/
  | ioFailure (source : EngineError)
  /-- The engine failed to apply a batch. -/
  | applyFailure (source : EngineError)
  | closed (resource : Resource)
  | invalidCursorState (call : String) (state : CursorState)
  /-- A written batch takes no more operations. -/
  | alreadyApplied
  deriving DecidableEq

namespace StoreError

/-- An engine that says it is closed is a closed store. -/
def ofEngine : EngineError → StoreError
  | .closed => closed .store
  | e => ioFailure e

/-- A failed opening of the store at a path. -/
def ofOpen (path : String) : EngineError → StoreError
  | .alreadyExists _ => alreadyExists path
  | e => openFailure path e

/-- The text of an error. -/
def message : StoreError → String
  | openFailure path source => s!"failed to open store at {path}: {source.message}"
  | alreadyExists path => s!"store already exists: {path}"
  | ioFailure source => s!"engine failure: {source.message}"
  | applyFailure source => s!"write batch apply failed: {source.message}"
  | closed resource => s!"{resource.name} is closed"
  | invalidCursorState call state => s!"cannot call {call} on a cursor that is {state.name}"
  | alreadyApplied => "write batch has already been written"

/-- The caller broke the contract. -/
def isContractViolation : StoreError → Bool
  | closed _ | invalidCursorState _ _ | alreadyApplied => true
  | _ => false

/-- The engine's error behind this one. -/
def source? : StoreError → Option EngineError
  | openFailure _ source | ioFailure source | applyFailure source => some source
  | _ => none

/-- The word for the kind of an error. -/
def kind : StoreError → String
  | openFailure .. => "OpenFailure"
  | alreadyExists _ => "AlreadyExists"
  | ioFailure _ => "IoFailure"
  | applyFailure _ => "ApplyFailure"
  | closed _ => "Closed"
  | invalidCursorState .. => "InvalidCursorState"
  | alreadyApplied => "AlreadyApplied"

/-- The error as a diagnostic shows it: its kind and what it carries. -/
def diagnostic : StoreError → String
  | openFailure path source =>
      s!"OpenFailure \x7b path: {Text.quoted path}, source: {source.diagnostic} \x7d"
  | alreadyExists path => s!"AlreadyExists \x7b path: {Text.quoted path} \x7d"
  | ioFailure source => s!"IoFailure({source.diagnostic})"
  | applyFailure source => s!"ApplyFailure({source.diagnostic})"
  | closed resource => s!"Closed \x7b resource: {resource.word} \x7d"
  | invalidCursorState call state =>
      s!"InvalidCursorState \x7b op: {Text.quoted call}, state: {state.word} \x7d"
  | alreadyApplied => "AlreadyApplied"

end StoreError

end OrderedStore
