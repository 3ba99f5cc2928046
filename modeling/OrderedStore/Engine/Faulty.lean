import OrderedStore.Engine

/-!
# Engines that fail

An engine with a table of faults. A call with a fault returns its error and does not reach the engine,
but for closing: the engine is closed all the same, and its own error goes first. A cursor with a fault
of its key or value has none, although it stands on an entry.
-/

namespace OrderedStore

/-- The calls of an engine that can be made to fail. -/
inductive EngineMethod where
  | get
  | put
  | delete
  | apply
  | openCursor
  | openView
  | close
  | getAt
  | key
  | value
  deriving DecidableEq

/-- An engine some of whose calls fail. -/
structure Faulty (ε : Type) where
  engine : ε
  faults : EngineMethod → Option EngineError := fun _ => none

namespace Faulty

/-- The same faults before another form of the engine. -/
def map {ε δ : Type} (f : ε → δ) (e : Faulty ε) : Faulty δ := ⟨f e.engine, e.faults⟩

/-- Sets the fault of one call, or clears it. -/
def setFault {ε : Type} (e : Faulty ε) (method : EngineMethod) (fault : Option EngineError) : Faulty ε :=
  { e with faults := fun m => if m = method then fault else e.faults m }

/-- Passes a call on. -/
def pass {ε α : Type} (e : Faulty ε) (call : ε → α × ε) : α × Faulty ε :=
  let (result, engine) := call e.engine
  (result, { e with engine })

/-- Passes a call on unless it is to fail. -/
def guard {ε α : Type} (e : Faulty ε) (method : EngineMethod) (call : ε → Except EngineError α × ε) :
    Except EngineError α × Faulty ε :=
  match e.faults method with
  | some fault => (.error fault, e)
  | none => e.pass call

/-- Closes the engine; if that goes well, the fault is the result. -/
def close {ε κ ς : Type} [Engine ε κ ς] (e : Faulty ε) : Except EngineError Unit × Faulty ε :=
  match e.pass Engine.close, e.faults .close with
  | (.ok (), e), some fault => (.error fault, e)
  | closed, _ => closed

instance {ε κ ς : Type} [Engine ε κ ς] : Engine (Faulty ε) κ ς where
  get key e := e.guard .get (Engine.get key)
  put key value e := e.guard .put (Engine.put key value)
  delete key e := e.guard .delete (Engine.delete key)
  apply ops e := e.guard .apply (Engine.apply ops)
  property name e := e.pass (Engine.property name)
  openCursor e := e.guard .openCursor Engine.openCursor
  openView e := e.guard .openView Engine.openView
  close := close
  move m cursor e := e.pass (Engine.move m cursor)
  isValid cursor e := Engine.isValid cursor e.engine
  key cursor e := if (e.faults .key).isSome then none else Engine.key cursor e.engine
  value cursor e := if (e.faults .value).isSome then none else Engine.value cursor e.engine
  dropCursor cursor e := { e with engine := Engine.dropCursor cursor e.engine }
  sequence view := Engine.sequence ε view
  getAt view key e := e.guard .getAt (Engine.getAt view key)
  cursorAt view e := e.pass (Engine.cursorAt view)
  dropView view e := { e with engine := Engine.dropView view e.engine }

end Faulty

end OrderedStore
