import OrderedStore.Interface.Status
import OrderedStore.Store.Media

/-!
# The call interface

Stores, cursors and batches for callers that hold only numbers. An object lives behind a handle, which
is looked up anew in every call; a handle that was closed, was never issued, or stands for another kind
of object is that of something closed.

* `Call`: the calls, with their arguments as a caller passes them;
* `Interface`: the objects behind the handles, and the text of the last error;
* `Interface.call`: one call, with its status and what it wrote.

A call checks its place for a result first, then its other arguments in order, then its handle. The text
of the last error is that of the call made last; a text with a zero byte cannot be kept.
-/

namespace OrderedStore

/-- The number of an object; zero is never one. -/
abbrev Handle := UInt64

/-- Bytes passed by address and length. -/
inductive Argument where
  /-- No address, but a length. -/
  | null (length : Nat)
  | given (bytes : Bytes)
  deriving DecidableEq

/-- The bytes of an argument; of no bytes the address does not matter. -/
def Argument.read (name : String) : Argument → Except CallError Bytes
  | null 0 => .ok []
  | null _ => .error (.nullPointer name)
  | given bytes => .ok bytes

/-- The calls. `out` says whether the caller has a place for a result. -/
inductive Call where
  /-- A path ends before its first zero byte; options are passed as an engine takes them. -/
  | openPath (out : Bool) (path : Option Bytes) (options : Option EngineOptions)
  | openMemory (out : Bool) (options : Option EngineOptions)
  | close (store : Handle)
  | get (out : Bool) (store : Handle) (key : Argument)
  | put (store : Handle) (key value : Argument)
  | delete (store : Handle) (key : Argument)
  | stats (out : Bool) (store : Handle)
  | cursorNew (out : Bool) (store : Handle)
  | cursorFirst (cursor : Handle)
  | cursorLast (cursor : Handle)
  | cursorSeek (cursor : Handle) (target : Argument)
  | cursorNext (cursor : Handle)
  | cursorPrev (cursor : Handle)
  | cursorValid (out : Bool) (cursor : Handle)
  | cursorKey (out : Bool) (cursor : Handle)
  | cursorValue (out : Bool) (cursor : Handle)
  | cursorClose (cursor : Handle)
  | batchNew (out : Bool) (store : Handle)
  | batchPut (batch : Handle) (key value : Argument)
  | batchDelete (batch : Handle) (key : Argument)
  | batchWrite (out : Bool) (batch : Handle)
  | batchWriteAndClose (out : Bool) (batch : Handle)
  | batchClose (batch : Handle)
  deriving DecidableEq

/-- What a call writes to the caller's place. -/
inductive Output where
  | handle (handle : Handle)
  | flag (value : Bool)
  /-- No bytes are written as no address. -/
  | bytes (value : Bytes)
  | counters (value : Counters)
  deriving DecidableEq

/-- The answer of a call. -/
structure Reply where
  status : Status
  output : Option Output := none
  deriving DecidableEq

/-- What a handle stands for. The children of a store name it by its number. -/
inductive Target where
  | store (number : Nat)
  | cursor (number : Nat) (cursor : Store.Cursor)
  | batch (number : Nat) (batch : Store.Batch)
  deriving DecidableEq

/-- The state between calls. -/
structure Interface where
  media : Media := {}
  /-- Every store ever opened. -/
  stores : List DetachedStore := []
  /-- The objects behind the handles that are in use. -/
  handles : List (Handle × Target) := []
  /-- The handle issued last. -/
  lastHandle : Handle := 0
  lastError : Option String := none

namespace Interface

instance : Inhabited Interface := ⟨{}⟩

/-- A part of a call. -/
abbrev Action := ExceptT CallError (StateM Interface)

/-- Keeps the text of an error, if it can be kept. -/
def setLastError (i : Interface) (text : String) : Interface :=
  { i with lastError := if text.toList.contains '\x00' then none else some text }

def clearLastError (i : Interface) : Interface := { i with lastError := none }

/-! ## Parts of calls -/

/-- Refuses a call without a place for its result. -/
def needOut (out : Bool) (name : String) : Action Unit := unless out do throw (.nullPointer name)

/-- The bytes of an argument. -/
def input (name : String) (argument : Argument) : Action Bytes := liftExcept (argument.read name)

/-- The object behind a handle. -/
def target? (i : Interface) (handle : Handle) : Option Target := (i.handles.find? (·.1 = handle)).map (·.2)

/-- The store behind a handle. -/
def storeAt (handle : Handle) : Action Nat := do
  match (← get).target? handle with
  | some (.store n) => return n
  | _ => throw (.store (.closed .store))

/-- The cursor behind a handle. -/
def cursorAt (handle : Handle) : Action (Nat × Store.Cursor) := do
  match (← get).target? handle with
  | some (.cursor n c) => return (n, c)
  | _ => throw (.store (.closed .cursor))

/-- The batch behind a handle. -/
def batchAt (handle : Handle) : Action (Nat × Store.Batch) := do
  match (← get).target? handle with
  | some (.batch n b) => return (n, b)
  | _ => throw (.store (.closed .batch))

/-- Puts a new object behind the next handle. -/
def issue (target : Target) : Action Reply := do
  let handle := (← get).lastHandle + 1
  modify fun i => { i with lastHandle := handle, handles := (handle, target) :: i.handles }
  return ⟨.ok, some (.handle handle)⟩

/-- Changes the object behind a handle in use. -/
def retarget (handle : Handle) (target : Target) : Action Unit :=
  modify fun i => { i with handles := i.handles.map fun e => if e.1 = handle then (handle, target) else e }

/-- Takes a handle out of use. -/
def retire (handle : Handle) : Action Unit :=
  modify fun i => { i with handles := i.handles.filter (·.1 ≠ handle) }

/-- Runs an operation of a store on the media. -/
def onStore {α : Type} (number : Nat) (op : AttachedStore → α × AttachedStore) : Action α := do
  let i ← get
  match i.stores[number]? with
  | none => throw (.store (.closed .store))
  | some s =>
    let (result, s, media) := s.onMedia i.media op
    set { i with media, stores := i.stores.set number s }
    return result

/-- Goes on with the result of a store's operation. -/
def check {α : Type} (result : Except StoreError α) : Action α := liftExcept (result.mapError CallError.store)

/-- Opens a store. -/
def enroll (opening : Media → Except StoreError DetachedStore × Media) : Action Reply := do
  let i ← get
  let (result, media) := opening i.media
  set { i with media }
  let s ← check result
  modify fun i => { i with stores := i.stores ++ [s] }
  issue (.store i.stores.length)

/-- Moves a cursor. -/
def moveCursor (handle : Handle) (m : Move) : Action Reply := do
  let (n, c) ← cursorAt handle
  let (result, c) ← onStore n fun s => let (result, c, s) := c.move m s; ((result, c), s)
  retarget handle (.cursor n c)
  check result
  return ⟨.ok, none⟩

/-- Reads from a cursor. -/
def readCursor (handle : Handle) (question : Store.Cursor → AttachedStore → Except StoreError Bytes) :
    Action Reply := do
  let (n, c) ← cursorAt handle
  let bytes ← check (← onStore n fun s => (question c s, s))
  return ⟨.ok, some (.bytes bytes)⟩

/-- Adds an operation to a batch. -/
def addToBatch (handle : Handle) (op : Operation) : Action Reply := do
  let (n, b) ← batchAt handle
  check (← onStore n (b.add op))
  return ⟨.ok, none⟩

/-- Writes a batch. -/
def writeBatch (handle : Handle) : Action Reply := do
  let (n, b) ← batchAt handle
  let (result, b) ← onStore n fun s => let (result, b, s) := b.write s; ((result, b), s)
  retarget handle (.batch n b)
  return ⟨.ok, some (.flag (← check result))⟩

/-- The options of a caller; none are the default ones. -/
def raiseOptions (options : Option EngineOptions) : Options := options.elim {} EngineOptions.raise

/-! ## Calls -/

/-- What a call does, but for the last error. -/
def run : Call → Action Reply
  | .openPath out path options => do
    needOut out "out_handle"
    match path with
    | none => throw (.nullPointer "path")
    | some bytes =>
      match Bytes.toText? (bytes.takeWhile (· ≠ 0)) with
      | none => throw (.invalidUtf8 "path")
      | some path => enroll (Store.openDirectory path (raiseOptions options))
  | .openMemory out options => do
    needOut out "out_handle"
    enroll (Store.openMemory (raiseOptions options))
  | .close handle => do
    match (← get).target? handle with
    | some (.store n) =>
      retire handle
      check (← onStore n Store.close)
      return ⟨.ok, none⟩
    | _ => return ⟨.ok, none⟩
  | .get out handle key => do
    needOut out "out_value"
    let key ← input "key" key
    let n ← storeAt handle
    match ← check (← onStore n (·.get key)) with
    | some value => return ⟨.ok, some (.bytes value)⟩
    | none => return ⟨.notFound, some (.bytes [])⟩
  | .put handle key value => do
    let key ← input "key" key
    let value ← input "value" value
    let n ← storeAt handle
    check (← onStore n (·.put key value))
    return ⟨.ok, none⟩
  | .delete handle key => do
    let key ← input "key" key
    let n ← storeAt handle
    check (← onStore n (·.delete key))
    return ⟨.ok, none⟩
  | .stats out handle => do
    needOut out "out_stats"
    let n ← storeAt handle
    let counters ← check (← onStore n fun s => (if s.isOpen then .ok s.counters else .error (.closed .store), s))
    return ⟨.ok, some (.counters counters)⟩
  | .cursorNew out handle => do
    needOut out "out_cursor"
    let n ← storeAt handle
    let c ← check (← onStore n Store.cursor)
    issue (.cursor n c)
  | .cursorFirst handle => moveCursor handle .first
  | .cursorLast handle => moveCursor handle .last
  | .cursorSeek handle target => do
    let target ← input "target" target
    moveCursor handle (.seek target)
  | .cursorNext handle => moveCursor handle .next
  | .cursorPrev handle => moveCursor handle .prev
  | .cursorValid out handle => do
    needOut out "out_valid"
    match (← get).target? handle with
    | some (.cursor n c) => return ⟨.ok, some (.flag (← onStore n fun s => (c.isValid s, s)))⟩
    | _ => return ⟨.ok, some (.flag false)⟩
  | .cursorKey out handle => do
    needOut out "out_key"
    readCursor handle Store.Cursor.key
  | .cursorValue out handle => do
    needOut out "out_value"
    readCursor handle Store.Cursor.value
  | .cursorClose handle => do
    match (← get).target? handle with
    | some (.cursor n c) =>
      retire handle
      onStore n fun s => ((), c.drop s)
      return ⟨.ok, none⟩
    | _ => return ⟨.ok, none⟩
  | .batchNew out handle => do
    needOut out "out_batch"
    let n ← storeAt handle
    let b ← check (← onStore n Store.writeBatch)
    issue (.batch n b)
  | .batchPut handle key value => do
    let key ← input "key" key
    let value ← input "value" value
    addToBatch handle (.put key value)
  | .batchDelete handle key => do
    let key ← input "key" key
    addToBatch handle (.delete key)
  | .batchWrite out handle => do
    needOut out "out_applied"
    writeBatch handle
  | .batchWriteAndClose out handle => do
    needOut out "out_applied"
    let (n, b) ← batchAt handle
    retire handle
    let applied ← check (← onStore n b.writeAndClose)
    return ⟨.ok, some (.flag applied)⟩
  | .batchClose handle => do
    match (← get).target? handle with
    | some (.batch n b) =>
      retire handle
      onStore n fun s => ((), b.drop s)
      return ⟨.ok, none⟩
    | _ => return ⟨.ok, none⟩

/-- One call: its reply, and the last error that it leaves. -/
def call (c : Call) (i : Interface) : Reply × Interface :=
  match (run c).run i.clearLastError with
  | (.ok reply, i) => (reply, i)
  | (.error e, i) => (⟨e.status, none⟩, i.setLastError e.message)

end Interface

end OrderedStore
