import OrderedStore.Connection

/-!
# Engines

What a store asks of the thing that keeps its data. Any call may change the engine, and any call that
can fail leaves some state behind, which is part of the result.

* `Engine`: an engine with its cursors and its views;
* the connections of this library are engines.
-/

namespace OrderedStore

/-- An engine of type `ε`, with cursors of type `κ` and views of type `ς`. -/
class Engine (ε : Type) (κ ς : outParam Type) where
  get : Bytes → ε → Except EngineError (Option Bytes) × ε
  put : Bytes → Bytes → ε → Except EngineError Unit × ε
  delete : Bytes → ε → Except EngineError Unit × ε
  /-- Applies the operations of a batch, all or none. -/
  apply : List Operation → ε → Except EngineError Unit × ε
  property : String → ε → Option String × ε
  openCursor : ε → Except EngineError κ × ε
  openView : ε → Except EngineError ς × ε
  close : ε → Except EngineError Unit × ε
  /-- Moves a cursor. -/
  move : Move → κ → ε → κ × ε
  /-- Whether a cursor stands on an entry. -/
  isValid : κ → ε → Bool
  key : κ → ε → Option Bytes
  value : κ → ε → Option Bytes
  dropCursor : κ → ε → ε
  /-- The sequence that a view is pinned at. -/
  sequence : ς → Sequence
  /-- Looks a key up through a view. -/
  getAt : ς → Bytes → ε → Except EngineError (Option Bytes) × ε
  /-- A new cursor that sees what a view sees. -/
  cursorAt : ς → ε → κ × ε
  dropView : ς → ε → ε

instance {σ : Type} [LogStorage σ] : Engine (Connection σ) Timeline.Cursor Timeline.View where
  get key c := (c.get key, c)
  put key value c := c.put key value
  delete key c := c.delete key
  apply ops c := c.apply ops
  property name c := (c.property name, c)
  openCursor := Connection.openCursor
  openView := Connection.openView
  close := Connection.close
  move m cursor c := (cursor.move m c.timeline, c)
  isValid cursor _ := cursor.current.isSome
  key cursor _ := cursor.current.map (·.1)
  value cursor _ := cursor.current.map (·.2)
  dropCursor cursor c := c.dropReader cursor.seq
  sequence view := view.seq
  getAt view key c := (.ok (view.get? key c.timeline), c)
  cursorAt view c := c.cursorOf view
  dropView view c := c.dropReader view.seq

end OrderedStore
