import OrderedStore.Storage.Memory

/-!
# Logs that fail

A log in memory with a table of faults. A method with a fault does nothing and returns its error,
each time; a faulty append may first really write the front of what it was given.
-/

namespace OrderedStore

/-- The methods of a log storage that can be made to fail. -/
inductive LogMethod where
  | readAll
  | append
  | sync
  | size
  | truncate
  | rewrite
  deriving DecidableEq

/-- How a method fails. -/
structure LogFault where
  error : EngineError
  /-- For an append: how many bytes are written before it fails. -/
  written : Nat := 0
  deriving DecidableEq

/-- A log in memory some of whose methods fail. -/
structure FaultyLog where
  log : MemoryLog
  faults : LogMethod → Option LogFault := fun _ => none

namespace FaultyLog

/-- Sets the fault of one method, or clears it. -/
def setFault (f : FaultyLog) (method : LogMethod) (fault : Option LogFault) : FaultyLog :=
  { f with faults := fun m => if m = method then fault else f.faults m }

/-- Runs a method of the log in memory unless it is to fail. -/
def guard (f : FaultyLog) (method : LogMethod) (run : MemoryLog → Except EngineError Unit × MemoryLog) :
    Except EngineError Unit × FaultyLog :=
  match f.faults method with
  | some fault => (.error fault.error, f)
  | none => let (result, log) := run f.log; (result, { f with log })

/-- Adds bytes at the end, or as many of them as the fault lets through. -/
def append (bytes : Bytes) (f : FaultyLog) : Except EngineError Nat × FaultyLog :=
  match f.faults .append with
  | some fault => (.error fault.error, { f with log := ⟨f.log.data ++ bytes.take fault.written⟩ })
  | none => let (result, log) := LogStorage.append bytes f.log; (result, { f with log })

instance : LogStorage FaultyLog where
  readAll f := match f.faults .readAll with
    | some fault => .error fault.error
    | none => LogStorage.readAll f.log
  append := append
  sync f := f.guard .sync LogStorage.sync
  size f := match f.faults .size with
    | some fault => .error fault.error
    | none => LogStorage.size f.log
  truncate length f := f.guard .truncate (LogStorage.truncate length)
  rewrite bytes f := f.guard .rewrite (LogStorage.rewrite bytes)
  release f := f

end FaultyLog

end OrderedStore
