import OrderedStore.Store

/-!
# Write batches

A batch collects operations and writes them as one commit, once. After a write that reached the engine
it takes no more operations, and writing it again does nothing.

* `Store.writeBatch`: a new batch of a store;
* `Batch.put`, `delete`: adding an operation;
* `Batch.write`, `writeAndClose`: applying them;
* `Batch.close`, `drop`: the end of a batch; what was not written is lost.
-/

namespace OrderedStore

/-- What may still be done with a batch. -/
inductive BatchState where
  /-- Takes operations, not yet written. -/
  | pending
  | applied
  /-- The engine refused it. -/
  | failed
  | closed
  deriving DecidableEq

namespace BatchState

def name : BatchState → String
  | pending => "pending"
  | applied => "applied"
  | failed => "failed"
  | closed => "closed"

/-- The word for a state in diagnostics. -/
def word : BatchState → String
  | pending => "Pending"
  | applied => "Applied"
  | failed => "Failed"
  | closed => "Closed"

end BatchState

namespace Store

/-- A write batch of a store. -/
structure Batch where
  token : TokenId
  id : Nat
  /-- What the last write led to. -/
  progress : BatchState
  deriving DecidableEq

variable {ε κ ς : Type}

/-- A new batch of an open store. -/
def writeBatch (s : Store ε κ ς) : Except StoreError Batch × Store ε κ ς :=
  if !s.isOpen then (.error (.closed .store), s)
  else
    let (token, id, s) := s.adopt .batch (.batch [])
    (.ok ⟨token, id, .pending⟩, s)

namespace Batch

/-- The operations of a batch; none if it is closed. -/
def operations (b : Batch) (s : Store ε κ ς) : List Operation := (s.batch? b.token).getD []

def state (b : Batch) (s : Store ε κ ς) : BatchState := if (s.batch? b.token).isSome then b.progress else .closed

/-- Adds an operation. -/
def add (op : Operation) (b : Batch) (s : Store ε κ ς) : Except StoreError Unit × Store ε κ ς :=
  match s.batch? b.token with
  | none => (.error (.closed .batch), s)
  | some ops =>
    if b.progress = .pending then (.ok (), s.hold b.token (.batch (ops ++ [op])))
    else (.error .alreadyApplied, s)

def put (key value : Bytes) (b : Batch) (s : Store ε κ ς) : Except StoreError Unit × Store ε κ ς :=
  b.add (.put key value) s

def delete (key : Bytes) (b : Batch) (s : Store ε κ ς) : Except StoreError Unit × Store ε κ ς :=
  b.add (.delete key) s

variable [Engine ε κ ς]

/-- Applies the batch; the result says whether it was applied now. A store whose engine is closed leaves the
batch as it was. -/
def write (b : Batch) (s : Store ε κ ς) : Except StoreError Bool × Batch × Store ε κ ς :=
  match s.batch? b.token with
  | none => (.error (.closed .batch), b, s)
  | some ops =>
    if b.progress ≠ .pending then (.ok false, b, s)
    else if !s.isOpen then (.error (.closed .store), b, s)
    else match Engine.apply ops s.engine with
      | (.ok (), engine) =>
        let counters := s.counters.countBatch (.ofNat (Operation.totalSize ops))
        (.ok true, { b with progress := .applied }, { s with engine, counters })
      | (.error .closed, engine) => (.error (.closed .store), b, { s with engine })
      | (.error e, engine) =>
        (.error (.applyFailure e), { b with progress := .failed },
          { s with engine, counters := s.counters.countFailedBatch })

/-- Closes the batch. -/
def close (b : Batch) (s : Store ε κ ς) : Store ε κ ς := s.forget b.token b.id

/-- Closes a batch that nobody has any more. -/
def drop (b : Batch) (s : Store ε κ ς) : Store ε κ ς := s.discard b.token b.id

/-- Writes the batch, and closes it whatever that leads to. -/
def writeAndClose (b : Batch) (s : Store ε κ ς) : Except StoreError Bool × Store ε κ ς :=
  let (result, b, s) := b.write s
  (result, b.drop s)

/-- The batch as a diagnostic shows it. -/
def diagnostic (b : Batch) (s : Store ε κ ς) : String :=
  s!"WriteBatch \x7b id: {b.id}, state: {(b.state s).word}, len: {(b.operations s).length} \x7d"

end Batch

end Store

end OrderedStore
