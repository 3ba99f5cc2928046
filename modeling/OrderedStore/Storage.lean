import OrderedStore.Error
import OrderedStore.Replay

/-!
# Log storages

Where the bytes of a log are kept. A storage does not look at the records in it.

* `LogStorage`: what a connection asks of a storage;
* `appendRecord`, `rewriteRecords`, `replay`: the same in terms of records.
-/

namespace OrderedStore

/-- A store of bytes that grows at its end. Any operation may fail; the state after a failure is part of
the result. -/
class LogStorage (σ : Type) where
  /-- All bytes. -/
  readAll : σ → Except EngineError Bytes
  /-- Adds bytes at the end and returns the offset at which they were to start. -/
  append : Bytes → σ → Except EngineError Nat × σ
  /-- Makes everything added durable. -/
  sync : σ → Except EngineError Unit × σ
  size : σ → Except EngineError Nat
  /-- Drops everything from an offset on. -/
  truncate : Nat → σ → Except EngineError Unit × σ
  /-- Replaces all bytes: what is there afterwards is the old content or the new one. -/
  rewrite : Bytes → σ → Except EngineError Unit × σ
  /-- Lets go of what is held besides the bytes. -/
  release : σ → σ

namespace LogStorage

variable {σ : Type} [LogStorage σ]

/-- Adds one record, if it can be encoded. -/
def appendRecord (r : Record) (s : σ) : Except EngineError Nat × σ :=
  match Frame.encode r with
  | .error cause => (.error (.invalidArgument cause), s)
  | .ok frame => append frame s

/-- Replaces the log by a list of records, if they can be encoded. -/
def rewriteRecords (rs : List Record) (s : σ) : Except EngineError Unit × σ :=
  match encodeLog rs with
  | .error cause => (.error (.invalidArgument cause), s)
  | .ok data => rewrite data s

/-- Reads the log back. -/
def replay (s : σ) : Except EngineError Replay := (readAll s).map Replay.read

end LogStorage

end OrderedStore
