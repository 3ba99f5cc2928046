/-!
# Counters

What a store has done since it was opened. The counters are 64-bit words and wrap around.
-/

namespace OrderedStore

/-- The counters of a store. -/
structure Counters where
  reads : UInt64 := 0
  writes : UInt64 := 0
  deletes : UInt64 := 0
  bytesRead : UInt64 := 0
  bytesWritten : UInt64 := 0
  cursorsOpened : UInt64 := 0
  batchesApplied : UInt64 := 0
  batchesFailed : UInt64 := 0
  snapshotsTaken : UInt64 := 0
  errors : UInt64 := 0
  deriving DecidableEq

namespace Counters

instance : Inhabited Counters := ⟨{}⟩

/-- A read that returned `bytes` bytes. -/
def countRead (c : Counters) (bytes : UInt64) : Counters :=
  { c with reads := c.reads + 1, bytesRead := c.bytesRead + bytes }

/-- A put of `bytes` bytes. -/
def countWrite (c : Counters) (bytes : UInt64) : Counters :=
  { c with writes := c.writes + 1, bytesWritten := c.bytesWritten + bytes }

def countDelete (c : Counters) : Counters := { c with deletes := c.deletes + 1 }

def countCursor (c : Counters) : Counters := { c with cursorsOpened := c.cursorsOpened + 1 }

def countSnapshot (c : Counters) : Counters := { c with snapshotsTaken := c.snapshotsTaken + 1 }

def countError (c : Counters) : Counters := { c with errors := c.errors + 1 }

/-- A batch of `bytes` bytes that was applied. -/
def countBatch (c : Counters) (bytes : UInt64) : Counters :=
  { c with batchesApplied := c.batchesApplied + 1, bytesWritten := c.bytesWritten + bytes }

/-- A batch that the engine refused, which is an error too. -/
def countFailedBatch (c : Counters) : Counters := { c.countError with batchesFailed := c.batchesFailed + 1 }

end Counters

end OrderedStore
