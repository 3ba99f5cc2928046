import OrderedStore.Proofs.Batches
import OrderedStore.Proofs.StoreDirectory

/-!
# Stores at rest and in use

Between two openings a store directory is at rest: its log recovers to a map and its lock is free. A connection that is
opened on it serves the map, each write serves the map that it makes, and a closing, whether the log could be rewritten
or not, leaves the directory at rest again.

* `Directory.AtRest`, `Connection.Serves`: the two states, with the map and a bound of the sequence;
* `Serves.write`, `Serves.left`: writes, and readers that come and go;
* `Serves.close`: from the second state to the first.
-/

namespace OrderedStore

open LogStorage

/-- The store directory is not in use, and its log recovers to `m` at a sequence up to `n`. -/
def Directory.AtRest (path : String) (disk : Disk) (m : Contents) (n : Nat) : Prop :=
  ∃ lock log seq, lock ∉ disk.locks ∧ seq.toNat ≤ n ∧ Recovers (Directory.Houses ⟨path, lock⟩) ⟨log, disk⟩ m seq

namespace Connection

/-- The connection is open on the store directory at a path. It stands on `m` at a sequence up to `n`, and its log
recovers to this. -/
structure Serves (path : String) (c : Connection Medium) (m : Contents) (n : Nat) : Prop where
  isOpen : c.isOpen = true
  persisted : ∃ lock, Session.Persisted (Medium.Houses ⟨path, lock⟩) c
  contents : c.timeline.contents = m
  sequence : c.sequence.toNat ≤ n

variable {path : String} {c c' : Connection Medium} {m : Contents} {n : Nat}

theorem Serves.mono (h : c.Serves path m n) {n' : Nat} (hn : n ≤ n') : c.Serves path m n' :=
  ⟨h.isOpen, h.persisted, h.contents, Nat.le_trans h.sequence hn⟩

/-- Readers have come and gone. -/
theorem Serves.left (h : c.Serves path m n) (hleft : Store.Left c c') : c'.Serves path m n where
  isOpen := hleft.isOpen.trans h.isOpen
  persisted := by
    obtain ⟨lock, hpersisted⟩ := h.persisted
    refine ⟨lock, ?_⟩
    rw [Session.Persisted, hleft.log, hleft.contents, hleft.sequence]
    exact hpersisted
  contents := hleft.contents.trans h.contents
  sequence := hleft.sequence ▸ h.sequence

/-! ## Writes -/

/-- The log of a store directory takes every record that has a frame. -/
theorem Serves.commit (h : c.Serves path m n) (make : Sequence → Record) :
    (∃ frame, Frame.encode (make (c.sequence + 1)) = .ok frame ∧ (c.commit make).1 = .ok ()) ∨
      ∃ cause, Frame.encode (make (c.sequence + 1)) = .error cause ∧
        (c.commit make).1 = .error (.invalidArgument cause) := by
  obtain ⟨lock, rs, data, -, ⟨log, hhandle, hhouses⟩, -⟩ := h.persisted
  have hsize : ∃ size, LogStorage.size c.log = .ok size := by
    refine ⟨log.size, ?_⟩
    simp only [LogStorage.size, Medium.ask, hhandle]
  have happends : ∀ frame, ∃ offset log', LogStorage.append frame c.log = (.ok offset, log') := by
    intro frame
    obtain ⟨f', happend, -⟩ := hhouses.append frame
    have happend : LogStorage.append frame (FileOnDisk.mk log c.log.media.disk) = (.ok data.length, f') := happend
    simp only [LogStorage.append, Medium.run, hhandle] at happend ⊢
    rw [happend]
    exact ⟨_, _, rfl⟩
  obtain ⟨size, hsize⟩ := hsize
  simp only [Connection.commit, h.isOpen, hsize, Bool.not_true, Bool.false_eq_true, if_false]
  cases hencode : Frame.encode (make (c.sequence + 1)) with
  | error cause =>
    refine .inr ⟨cause, rfl, ?_⟩
    simp only [appendRecord, hencode]
  | ok frame =>
    obtain ⟨offset, log', happend⟩ := happends frame
    refine .inl ⟨frame, rfl, ?_⟩
    simp only [appendRecord, hencode, happend]

/-- A write serves what it makes of the map, or the same map if it is refused. -/
theorem Serves.write (h : c.Serves path m n) (hpinned : (Session.start c).Pinned) (hn : n < UInt64.size - 1)
    {w : Write} {result : Except EngineError Unit} (hwrite : c.write w = (result, c')) :
    c'.Serves path (if result = .ok () then m.writeAll w.operations else m) (n + 1) := by
  have hseq : (Session.start c).connection.sequence.toNat < UInt64.size - 1 := Nat.lt_of_le_of_lt h.sequence hn
  have hstep : (Session.start c).step (.write w) = (.done result, ⟨c', []⟩) := by
    simp only [Session.step, Session.start, hwrite]
  have hcontents := Session.contents_step hpinned (q := .write w) fun _ => hseq
  have hsequence := (Session.start c).sequence_step_le (.write w)
  have hopen := (Session.start c).isOpen_step (q := .write w) (by simp) (by simp)
  rw [hstep] at hcontents hsequence hopen
  refine ⟨hopen.trans h.isOpen, ?_, ?_, Nat.le_trans hsequence (Nat.succ_le_succ h.sequence)⟩
  · obtain ⟨lock, hpersisted⟩ := h.persisted
    have hkept := Session.persisted_write (Medium.mendable_houses ⟨path, lock⟩) hpinned hseq hpersisted w
    rw [hstep] at hkept
    exact ⟨lock, hkept⟩
  · refine hcontents.trans ?_
    rw [← h.contents]
    cases result with
    | ok => rfl
    | error e => rfl

/-! ## Closing -/

/-- What is in a log can be logged again. -/
theorem exists_compacted_of_persisted {σ : Type} {holds : σ → Bytes → Prop} {c : Connection σ}
    (h : Session.Persisted holds c) : ∃ data, encodeLog c.compacted = .ok data := by
  obtain ⟨rs, data, hdata, -, hcontents, -⟩ := h
  have hloggable := Timeline.loggable_ofRecords hdata
  refine exists_compacted_of_live fun e he => ?_
  rw [← hcontents] at he
  exact hloggable.of_mem_contents he

/-- A closing leaves the directory at rest, and fails only where the system refuses to rewrite the log. -/
theorem Serves.close (h : c.Serves path m n) : Directory.AtRest path c.close.2.log.media.disk m n ∧
    (c.close.1 = .ok () ∨ ∃ fault, c.close.1 = .error (.ofSystem fault)) := by
  obtain ⟨lock, hpersisted⟩ := h.persisted
  obtain ⟨frames, hframes⟩ := exists_compacted_of_persisted hpersisted
  have hkept := Session.persisted_close (Medium.mendable_houses ⟨path, lock⟩).toLawful hpersisted
  obtain ⟨-, data₀, -, ⟨log₀, hhandle₀, hhouses₀⟩, -⟩ := hpersisted
  constructor
  · have hfree := isLocked_close h.isOpen (congrArg LogHandle.lock? hhandle₀)
    obtain ⟨rs, data, hdata, ⟨log, hhandle, hhouses⟩, hcontents, hle⟩ := hkept
    refine ⟨lock, log, c.close.2.sequence, ?_, ?_, rs, data, hdata, hhouses, ?_, hle⟩
    · simpa [Disk.isLocked] using hfree
    · rw [Connection.sequence, timeline_close]
      exact h.sequence
    · rw [hcontents, timeline_close, h.contents]
  · -- the log is rewritten in its file, and there is nothing else to be made durable
    have hrewrite : ∀ {result log'}, LogStorage.rewrite frames c.log = (result, log') →
        result = .ok () ∧ (LogStorage.sync log').1 = .ok () ∨ ∃ fault, result = .error (.ofSystem fault) := by
      intro result log' hrun
      obtain ⟨f', hop, hhandle', -⟩ := Medium.run_directory (g := LogStorage.rewrite frames) hhandle₀ hrun
      obtain ⟨fault, f, hrefused, -⟩ | ⟨f, hdone, -⟩ := hhouses₀.rewrite frames
      · cases hrefused.symm.trans hop
        exact .inr ⟨fault, rfl⟩
      · cases hdone.symm.trans hop
        refine .inl ⟨rfl, ?_⟩
        simp only [LogStorage.sync, Medium.run, hhandle']
    obtain ⟨e, kept, hfailed, hclose⟩ | ⟨written, hwritten, hclose⟩ := close_cases h.isOpen hframes
    · obtain ⟨hok, -⟩ | ⟨fault, hfault⟩ := hrewrite hfailed
      · cases hok
      · exact .inr ⟨fault, hclose.trans hfault⟩
    · obtain ⟨-, hsync⟩ | ⟨fault, hfault⟩ := hrewrite hwritten
      · exact .inl (hclose.trans hsync)
      · cases hfault

end Connection

end OrderedStore
