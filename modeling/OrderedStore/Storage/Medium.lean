import OrderedStore.Directory
import OrderedStore.Storage.Faulty
import OrderedStore.Storage.File

/-!
# Media

Connections that are open side by side share a disk and named logs. A connection holds a handle to
its log, and does its work with the handle joined to the media it points into.

* `Media`: the disk and the shared logs;
* `LogHandle`: a private log in memory, a shared log, or the log of a store directory;
* `Medium`: a handle joined to the media, which is a `LogStorage`.
-/

namespace OrderedStore

/-- What connections share. -/
structure Media where
  disk : Disk := {}
  /-- The shared logs, by number. -/
  logs : List FaultyLog := []

instance : Inhabited Media := ⟨{}⟩

/-- Where a connection's log is. -/
inductive LogHandle where
  | memory (log : MemoryLog)
  | shared (number : Nat)
  | directory (dir : Directory) (log : FileLog)
  deriving DecidableEq

/-- A handle and the media it points into. -/
structure Medium where
  handle : LogHandle
  media : Media

namespace Medium

/-- Runs an operation on the log that a handle points to. -/
def run {α : Type} (op : {σ : Type} → [LogStorage σ] → σ → Except EngineError α × σ) (m : Medium) :
    Except EngineError α × Medium :=
  match m.handle with
  | .memory log => let (result, log) := op log; (result, { m with handle := .memory log })
  | .shared number =>
    let (result, log) := op (m.media.logs.getD number { log := .empty })
    (result, { m with media.logs := m.media.logs.set number log })
  | .directory dir log =>
    let (result, file) := op (FileOnDisk.mk log m.media.disk)
    (result, ⟨.directory dir file.log, { m.media with disk := file.disk }⟩)

/-- Asks the log that a handle points to. -/
def ask {α : Type} (question : {σ : Type} → [LogStorage σ] → σ → Except EngineError α) (m : Medium) :
    Except EngineError α :=
  match m.handle with
  | .memory log => question log
  | .shared number => question (m.media.logs.getD number { log := .empty })
  | .directory _ log => question (FileOnDisk.mk log m.media.disk)

/-- The log of a store directory lets go of the directory's lock. -/
def release (m : Medium) : Medium :=
  match m.handle with
  | .directory dir _ => { m with media.disk := dir.close m.media.disk }
  | _ => m

instance : LogStorage Medium where
  readAll := ask LogStorage.readAll
  append bytes := run (LogStorage.append bytes)
  sync := run LogStorage.sync
  size := ask LogStorage.size
  truncate length := run (LogStorage.truncate length)
  rewrite bytes := run (LogStorage.rewrite bytes)
  release := release

end Medium

end OrderedStore
