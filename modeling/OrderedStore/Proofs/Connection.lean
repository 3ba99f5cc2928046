import OrderedStore.Connection
import OrderedStore.Proofs.Timeline

/-!
# What the operations of a connection can do

One lemma for each operation, which lists its outcomes with all that is known of each.

* `openOn_eq_ok`: a connection that has been opened;
* `commit_cases`, `timeline_write`: a write is refused, fails at the log, or is committed;
* `timeline_close`, `isOpen_close`: a connection that has been closed; `write_of_closed`, `close_of_closed`: it stays so;
* `get_of_isOpen`, `numEntries_of_isOpen`: what an open one answers.
-/

namespace OrderedStore

/-- A write that a caller asks for. -/
inductive Write where
  | put (key value : Bytes)
  | delete (key : Bytes)
  | apply (ops : List Operation)
  deriving DecidableEq

namespace Write

/-- The changes that the write asks for. -/
def operations : Write → List Operation
  | put key value => [.put key value]
  | delete key => [.delete key]
  | apply ops => ops

/-- The record of the write at a sequence; a batch without operations has none. -/
def record? (seq : Sequence) : Write → Option Record
  | put key value => some (.put seq key value)
  | delete key => some (.delete seq key)
  | apply ops => if ops = [] then none else some (.batch seq ops)

theorem record?_eq_some {seq : Sequence} {w : Write} {r : Record} (h : w.record? seq = some r) :
    r.seq = seq ∧ r.operations = w.operations := by
  cases w with
  | put | delete =>
    cases h
    exact ⟨rfl, rfl⟩
  | apply ops =>
    simp only [record?] at h
    split at h
    · cases h
    · cases h
      exact ⟨rfl, rfl⟩

theorem operations_of_record?_eq_none {seq : Sequence} {w : Write} (h : w.record? seq = none) :
    w.operations = [] := by
  cases w with
  | put | delete => cases h
  | apply ops =>
    simp only [record?] at h
    split at h
    · assumption
    · cases h

end Write

namespace Connection

variable {σ : Type} [LogStorage σ]

theorem openOn_eq_ok {path : Option String} {options : EngineOptions} {log : σ} {c : Connection σ}
    (h : openOn path options log = .ok c) :
    ∃ replay log', options.validate = .ok () ∧ LogStorage.replay log = .ok replay ∧
      repair options replay log = (.ok (), log') ∧
      c = ⟨path, options, .ofRecords replay.records, log', true⟩ := by
  unfold openOn at h
  split at h
  · cases h
  · rename_i hvalid
    split at h
    · cases h
    · rename_i replay hreplay
      split at h
      · cases h
      · rename_i log' hrepair
        cases h
        exact ⟨replay, log', hvalid, hreplay, hrepair, rfl⟩

/-- A commit on an open connection fails to ask for the size of the log, or fails to append to it, or
succeeds. -/
theorem commit_cases {c : Connection σ} {make : Sequence → Record} {result : Except EngineError Unit}
    {c' : Connection σ} (h : c.commit make = (result, c')) :
    (c.isOpen = false ∧ result = .error .closed ∧ c' = c) ∨
    (c.isOpen = true ∧ ∃ e, LogStorage.size c.log = .error e ∧ result = .error e ∧ c' = c) ∨
    (c.isOpen = true ∧ ∃ size, LogStorage.size c.log = .ok size ∧
      ((∃ e log, LogStorage.appendRecord (make (c.sequence + 1)) c.log = (.error e, log) ∧ result = .error e ∧
          c' = { c with log := (LogStorage.truncate size log).2 }) ∨
        ∃ offset log, LogStorage.appendRecord (make (c.sequence + 1)) c.log = (.ok offset, log) ∧
          result = .ok () ∧ c' = { c with log, timeline := c.timeline.commit (make (c.sequence + 1)) })) := by
  unfold commit at h
  split at h
  · rename_i hclosed
    cases h
    exact .inl ⟨by simpa using hclosed, rfl, rfl⟩
  · rename_i hopen
    have hopen : c.isOpen = true := by simpa using hopen
    simp only at h
    split at h
    · rename_i e hsize
      cases h
      exact .inr (.inl ⟨hopen, e, hsize, rfl, rfl⟩)
    · rename_i size hsize
      refine .inr (.inr ⟨hopen, size, hsize, ?_⟩)
      split at h
      · rename_i e log happend
        cases h
        exact .inl ⟨e, log, happend, rfl, rfl⟩
      · rename_i offset log happend
        cases h
        exact .inr ⟨offset, log, happend, rfl, rfl⟩

/-- Runs a write. -/
def write (c : Connection σ) : Write → Except EngineError Unit × Connection σ
  | .put key value => c.put key value
  | .delete key => c.delete key
  | .apply ops => c.apply ops

/-- The outcomes of a write that has a record are those of its commit; another one does nothing. -/
theorem write_eq (c : Connection σ) (w : Write) :
    (∃ make, (∀ seq, w.record? seq = some (make seq)) ∧ c.write w = c.commit make) ∨
      ((∀ seq, w.record? seq = none) ∧ c.write w = (c.ifOpen (.ok ()), c)) := by
  cases w with
  | put key value => exact .inl ⟨_, fun _ => rfl, rfl⟩
  | delete key => exact .inl ⟨_, fun _ => rfl, rfl⟩
  | apply ops =>
    by_cases hops : ops = []
    · refine .inr ⟨fun _ => if_pos hops, ?_⟩
      rw [write, apply, if_pos hops]
    · refine .inl ⟨(.batch · ops), fun _ => if_neg hops, ?_⟩
      rw [write, apply, if_neg hops]

/-- A write leaves the timeline as it is, or publishes its record at the next sequence. -/
theorem timeline_write {c : Connection σ} {w : Write} {result : Except EngineError Unit} {c' : Connection σ}
    (h : c.write w = (result, c')) :
    c'.isOpen = c.isOpen ∧
    ((∃ e, result = .error e ∧ c'.timeline = c.timeline) ∨
      (result = .ok () ∧ w.operations = [] ∧ c'.timeline = c.timeline) ∨
      (result = .ok () ∧ ∃ r, w.record? (c.sequence + 1) = some r ∧ c'.timeline = c.timeline.commit r)) := by
  rcases c.write_eq w with ⟨make, hmake, heq⟩ | ⟨hnone, heq⟩
  · rw [heq] at h
    rcases commit_cases h with ⟨-, rfl, rfl⟩ | ⟨-, e, -, rfl, rfl⟩ |
      ⟨-, size, -, ⟨e, log, -, rfl, rfl⟩ | ⟨offset, log, -, rfl, rfl⟩⟩
    · exact ⟨rfl, .inl ⟨_, rfl, rfl⟩⟩
    · exact ⟨rfl, .inl ⟨e, rfl, rfl⟩⟩
    · exact ⟨rfl, .inl ⟨e, rfl, rfl⟩⟩
    · exact ⟨rfl, .inr (.inr ⟨rfl, _, hmake _, rfl⟩)⟩
  · rw [heq] at h
    cases h
    refine ⟨rfl, ?_⟩
    unfold ifOpen
    split
    · exact .inr (.inl ⟨rfl, Write.operations_of_record?_eq_none (hnone 0), rfl⟩)
    · exact .inl ⟨_, rfl, rfl⟩

/-- A write on a closed connection does nothing. -/
theorem write_of_closed {c : Connection σ} (hclosed : c.isOpen = false) (w : Write) :
    c.write w = (.error .closed, c) := by
  obtain ⟨make, -, heq⟩ | ⟨-, heq⟩ := c.write_eq w
  · rw [heq, commit, hclosed]
    rfl
  · rw [heq, ifOpen, hclosed]
    rfl

/-- So does closing it again. -/
theorem close_of_closed {c : Connection σ} (hclosed : c.isOpen = false) : c.close = (.ok (), c) := by
  rw [close, hclosed]
  rfl

theorem timeline_close (c : Connection σ) : c.close.2.timeline = c.timeline := by
  unfold close
  split <;> rfl

theorem isOpen_close (c : Connection σ) : c.close.2.isOpen = false := by
  unfold close
  split
  · rename_i h
    simpa using h
  · rfl

/-! ## What is current -/

omit [LogStorage σ] in
theorem get_of_isOpen {c : Connection σ} (h : c.isOpen = true) (key : Bytes) :
    c.get key = .ok (c.timeline.contents.get? key) := by
  rw [get, ifOpen, if_pos h]
  exact congrArg Except.ok (VersionMap.get?_view ..).symm

omit [LogStorage σ] in
theorem numEntries_of_isOpen {c : Connection σ} (h : c.isOpen = true) :
    c.property "burrow.num-entries" = some (toString c.timeline.contents.size) := by
  rw [property, h, Bool.not_true, if_neg Bool.false_ne_true, if_neg (by decide), if_pos rfl]
  rfl

end Connection

end OrderedStore
