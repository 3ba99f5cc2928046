import OrderedStore.Storage

/-!
# Logs in memory

A log that is nothing but its bytes. Nothing fails except cutting it at an offset it does not reach.
-/

namespace OrderedStore

/-- A log in memory. -/
structure MemoryLog where
  data : Bytes
  deriving DecidableEq

namespace MemoryLog

def empty : MemoryLog := ⟨[]⟩

instance : Inhabited MemoryLog := ⟨empty⟩

/-- Drops everything from `length` on. -/
def truncate (length : Nat) (log : MemoryLog) : Except EngineError Unit × MemoryLog :=
  if log.data.length < length then
    (.error (.invalidArgument (.truncateBeyond length log.data.length)), log)
  else (.ok (), ⟨log.data.take length⟩)

instance : LogStorage MemoryLog where
  readAll log := .ok log.data
  append bytes log := (.ok log.data.length, ⟨log.data ++ bytes⟩)
  sync log := (.ok (), log)
  size log := .ok log.data.length
  truncate := truncate
  rewrite bytes _ := (.ok (), ⟨bytes⟩)
  release log := log

end MemoryLog

end OrderedStore
