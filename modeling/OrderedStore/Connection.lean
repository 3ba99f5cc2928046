import OrderedStore.Options
import OrderedStore.Storage
import OrderedStore.Timeline.Cursor

/-!
# Connections

An open engine connection: a timeline and the log it is written to. A write is in the log before it
is visible. Closing rewrites the log as one put for every live key, and leaves the readers what they
see.

* `Connection.openOn`: recovering a connection from a log;
* `get`, `put`, `delete`, `apply`, `property`, `close`: what a caller asks;
* `openCursor`, `openView`, `cursorOf`, `dropReader`: readers come and go.

A damaged log is cut back to its undamaged front, or refused if the options say so. A write whose
append fails is taken back by cutting the log to its former size; whether that works is not reported.
-/

namespace OrderedStore

/-- An engine connection over a log of type `σ`. -/
structure Connection (σ : Type) where
  path : Option String
  options : EngineOptions
  timeline : Timeline
  log : σ
  isOpen : Bool
  deriving DecidableEq

namespace Connection

/-- The same connection over another form of its log. -/
def mapLog {σ τ : Type} (f : σ → τ) (c : Connection σ) : Connection τ :=
  ⟨c.path, c.options, c.timeline, f c.log, c.isOpen⟩

variable {σ : Type} [LogStorage σ]

/-! ## Opening -/

/-- Cuts a damaged log back to its undamaged front, or refuses it. -/
def repair (options : EngineOptions) (replay : Replay) (log : σ) : Except EngineError Unit × σ :=
  match replay.damage with
  | none => (.ok (), log)
  | some damage =>
    if options.paranoidChecks then (.error (.corruption (.log damage)), log)
    else LogStorage.truncate replay.validLength log

/-- Recovers a connection from a log; a failure gives the log back. -/
def openOn (path : Option String) (options : EngineOptions) (log : σ) : Except (EngineError × σ) (Connection σ) :=
  match options.validate with
  | .error e => .error (e, LogStorage.release log)
  | .ok () =>
    match LogStorage.replay log with
    | .error e => .error (e, LogStorage.release log)
    | .ok replay =>
      match repair options replay log with
      | (.error e, log) => .error (e, LogStorage.release log)
      | (.ok (), log) => .ok ⟨path, options, .ofRecords replay.records, log, true⟩

/-! ## Points -/

/-- The sequence of the last commit. -/
def sequence (c : Connection σ) : Sequence := c.timeline.sequence

/-- Runs `f` on an open connection. -/
def ifOpen {α : Type} (c : Connection σ) (f : Except EngineError α) : Except EngineError α :=
  if c.isOpen then f else .error .closed

/-- The value of a key. -/
def get (c : Connection σ) (key : Bytes) : Except EngineError (Option Bytes) :=
  c.ifOpen (.ok (c.timeline.versions.get? key c.sequence))

/-- Logs and publishes one record. -/
def commit (c : Connection σ) (make : Sequence → Record) : Except EngineError Unit × Connection σ :=
  if !c.isOpen then (.error .closed, c)
  else
    let record := make (c.sequence + 1)
    match LogStorage.size c.log with
    | .error e => (.error e, c)
    | .ok size =>
      match LogStorage.appendRecord record c.log with
      | (.error e, log) => (.error e, { c with log := (LogStorage.truncate size log).2 })
      | (.ok _, log) => (.ok (), { c with log, timeline := c.timeline.commit record })

def put (c : Connection σ) (key value : Bytes) : Except EngineError Unit × Connection σ :=
  c.commit (.put · key value)

def delete (c : Connection σ) (key : Bytes) : Except EngineError Unit × Connection σ := c.commit (.delete · key)

/-- Applies the operations of a batch as one commit; no operations are no commit. -/
def apply (c : Connection σ) (ops : List Operation) : Except EngineError Unit × Connection σ :=
  if ops = [] then (c.ifOpen (.ok ()), c) else c.commit (.batch · ops)

/-! ## Readers -/

/-- Pins the last commit for a new cursor. -/
def openCursor (c : Connection σ) : Except EngineError Timeline.Cursor × Connection σ :=
  if c.isOpen then (.ok (.start c.sequence), { c with timeline := c.timeline.pin c.sequence })
  else (.error .closed, c)

/-- Pins the last commit for a new view. -/
def openView (c : Connection σ) : Except EngineError Timeline.View × Connection σ :=
  if c.isOpen then (.ok ⟨c.sequence⟩, { c with timeline := c.timeline.pin c.sequence })
  else (.error .closed, c)

/-- Pins the sequence of a view once more, for a cursor. -/
def cursorOf (c : Connection σ) (v : Timeline.View) : Timeline.Cursor × Connection σ :=
  (.start v.seq, { c with timeline := c.timeline.pin v.seq })

/-- Releases the pin of a reader at `seq`. -/
def dropReader (c : Connection σ) (seq : Sequence) : Connection σ := { c with timeline := c.timeline.unpin seq }

/-! ## Properties -/

/-- The number of live keys. -/
def entryCount (c : Connection σ) : Nat := c.timeline.live.length

/-- The property of a name, while the connection is open. -/
def property (c : Connection σ) (name : String) : Option String :=
  if !c.isOpen then none
  else if name = "burrow.options" then some c.options.describe
  else if name = "burrow.num-entries" then some (toString c.entryCount)
  else if name = "burrow.sequence" then some (toString c.sequence.toNat)
  else if name = "burrow.pinned-snapshots" then some (toString c.timeline.pins.size)
  else none

/-- The connection as a diagnostic shows it. -/
def diagnostic (c : Connection σ) : String :=
  s!"Db \x7b path: {Text.quotedPath? c.path}, options: {c.options.diagnostic}, " ++
  s!"sequence: {c.sequence.toNat}, closed: {!c.isOpen} \x7d"

/-! ## Closing -/

/-- The records of a compacted log: one put for every live key, all at the last sequence. -/
def compacted (c : Connection σ) : List Record := c.timeline.live.map fun (key, value) => .put c.sequence key value

/-- Rewrites the log as its compacted form and makes it durable. -/
def compact (c : Connection σ) : Except EngineError Unit × σ :=
  match LogStorage.rewriteRecords c.compacted c.log with
  | (.error e, log) => (.error e, log)
  | (.ok (), log) => LogStorage.sync log

/-- Closes the connection, whether compaction succeeds or not. A second closing does nothing. -/
def close (c : Connection σ) : Except EngineError Unit × Connection σ :=
  if !c.isOpen then (.ok (), c)
  else
    let (result, log) := c.compact
    (result, { c with log := LogStorage.release log, isOpen := false })

/-- Closes a connection that nobody holds any more. -/
def drop (c : Connection σ) : Connection σ := c.close.2

end Connection

end OrderedStore
