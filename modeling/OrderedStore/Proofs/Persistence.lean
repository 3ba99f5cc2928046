import OrderedStore.Proofs.Crash
import OrderedStore.Proofs.Scan

/-!
# One map across sessions

A log that does not fail is visited by one session after the other. At every moment the connection that
is open answers as one map does, to which every acknowledged write of all visits has been applied in order.

* `Session.Persisted`: the log recovers to what is current; every request keeps this, closing too,
  although it rewrites the log;
* `Visit.run`, `visits`: what is acknowledged in visits to a log, and the log they leave;
* `visits_refine_map`: lookups, scans and the number of entries are those of the map;
* `Recovers.visitsWriteBelow`: sequences do not wrap around while there are fewer writes than sequences.
-/

namespace OrderedStore

open LogStorage

namespace Connection

variable {σ : Type} [LogStorage σ]

/-! ## Compaction -/

omit [LogStorage σ] in
/-- The compacted records recover to what is current. -/
theorem contents_compacted (c : Connection σ) :
    (Timeline.ofRecords c.compacted).contents = c.timeline.contents := by
  have hops : c.compacted.flatMap Record.operations =
      c.timeline.contents.entries.map fun e => Operation.put e.1 e.2 := by
    rw [compacted, List.flatMap_map]
    exact List.map_eq_flatMap.symm
  rw [Timeline.contents_ofRecords, hops, KeyMap.writeAll_entries]

omit [LogStorage σ] in
theorem sequence_compacted_le (c : Connection σ) : (Timeline.ofRecords c.compacted).sequence ≤ c.sequence := by
  refine Timeline.sequence_ofRecords_le fun r hr => ?_
  obtain ⟨e, -, rfl⟩ := List.mem_map.mp hr
  exact UInt64.le_refl _

/-- A compaction leaves the log as it is, or the compacted records in it. -/
theorem holds_compact {holds : σ → Bytes → Prop} (h : Lawful holds) {c : Connection σ} {data : Bytes}
    (hs : holds c.log data) :
    holds c.compact.2 data ∨ ∃ compact, encodeLog c.compacted = .ok compact ∧ holds c.compact.2 compact := by
  unfold compact
  split
  · rename_i e log hrewrite
    exact h.rewriteRecords hs hrewrite
  · rename_i log hrewrite
    exact (h.rewriteRecords hs hrewrite).imp h.sync fun ⟨compact, hc, hlog⟩ => ⟨compact, hc, h.sync hlog⟩

/-- So does a closing. -/
theorem holds_close {holds : σ → Bytes → Prop} (h : Lawful holds) {c : Connection σ} {data : Bytes}
    (hs : holds c.log data) :
    holds c.close.2.log data ∨ ∃ compact, encodeLog c.compacted = .ok compact ∧ holds c.close.2.log compact := by
  unfold close
  split
  · exact .inl hs
  · exact (holds_compact h hs).imp h.release fun ⟨compact, hc, hlog⟩ => ⟨compact, hc, h.release hlog⟩

end Connection

/-- The log is a list of frames that recovers to the map `m`, at no larger sequence than `seq`. -/
def Recovers {σ : Type} (holds : σ → Bytes → Prop) (log : σ) (m : Contents) (seq : Sequence) : Prop :=
  ∃ rs data, encodeLog rs = .ok data ∧ holds log data ∧ (Timeline.ofRecords rs).contents = m ∧
    (Timeline.ofRecords rs).sequence ≤ seq

namespace Session

variable {σ : Type} [LogStorage σ] {holds : σ → Bytes → Prop}

/-! ## The log of a session -/

/-- The log is a list of frames that recovers to what is current, at no larger sequence. -/
def Persisted (holds : σ → Bytes → Prop) (c : Connection σ) : Prop :=
  Recovers holds c.log c.timeline.contents c.sequence

theorem persisted_close (h : Lawful holds) {c : Connection σ} (hc : Persisted holds c) :
    Persisted holds c.close.2 := by
  obtain ⟨rs, data, hdata, hlog, hcontents, hseq⟩ := hc
  have htimeline := c.timeline_close
  rcases Connection.holds_close h hlog with hlog | ⟨compact, hcompact, hlog⟩
  · refine ⟨rs, data, hdata, hlog, ?_, ?_⟩
    · rw [htimeline, hcontents]
    · rw [Connection.sequence, htimeline]
      exact hseq
  · refine ⟨c.compacted, compact, hcompact, hlog, ?_, ?_⟩
    · rw [htimeline, c.contents_compacted]
    · rw [Connection.sequence, htimeline]
      exact c.sequence_compacted_le

theorem persisted_write (h : Mendable holds) {s : Session σ} (hpinned : s.Pinned)
    (hseq : s.connection.sequence.toNat < UInt64.size - 1) (hs : Persisted holds s.connection) (w : Write) :
    Persisted holds (s.step (.write w)).2.connection := by
  obtain ⟨rs, data, hdata, hlog, hcontents, hle⟩ := hs
  obtain ⟨result, c, hw⟩ : ∃ result c, s.connection.write w = (result, c) := ⟨_, _, rfl⟩
  simp only [step, hw]
  rcases Connection.holds_write h hlog hw with ⟨-, htimeline, hlog⟩ | ⟨-, -, rfl⟩ |
    ⟨-, r, frame, hr, hframe, htimeline, hlog⟩
  · refine ⟨rs, data, hdata, hlog, ?_, ?_⟩
    · rw [htimeline, hcontents]
    · rw [Connection.sequence, htimeline]
      exact hle
  · exact ⟨rs, data, hdata, hlog, hcontents, hle⟩
  · have hrseq : r.seq = s.connection.sequence + 1 := (Write.record?_eq_some hr).1
    have hlt : s.connection.timeline.sequence < r.seq := hrseq ▸ lt_succ_sequence hseq
    refine ⟨rs ++ [r], data ++ frame, ?_, hlog, ?_, ?_⟩
    · exact encodeLogWith_append_eq_ok_iff.mpr ⟨data, frame, hdata,
        encodeLogWith_cons_eq_ok_iff.mpr ⟨frame, [], hframe, rfl, (List.append_nil _).symm⟩, rfl⟩
    · rw [Timeline.ofRecords_append_singleton, Timeline.contents_replay (Timeline.bounded_ofRecords rs),
        hcontents, htimeline, Timeline.contents_commit hpinned.bounded (UInt64.le_of_lt hlt)]
    · rw [Timeline.ofRecords_append_singleton, Connection.sequence, htimeline]
      exact Timeline.sequence_replay_le (UInt64.le_trans hle (UInt64.le_of_lt hlt))

/-- Every request keeps the log recoverable to what is current. -/
theorem persisted_step (h : Mendable holds) {s : Session σ} (hpinned : s.Pinned)
    (hs : Persisted holds s.connection) {q : Request}
    (hseq : q.isWrite = true → s.connection.sequence.toNat < UInt64.size - 1) :
    Persisted holds (s.step q).2.connection := by
  by_cases hq : q.reads = true
  · obtain ⟨rs, data, hdata, hlog, hcontents, hle⟩ := hs
    obtain ⟨hlog', -, hseq', hcontents'⟩ := s.step_of_reads hq
    exact ⟨rs, data, hdata, hlog' ▸ hlog, hcontents.trans hcontents'.symm, hseq' ▸ hle⟩
  cases q with
  | write w => exact persisted_write h hpinned (hseq rfl) hs w
  | close | drop => exact persisted_close h.toLawful hs
  | _ => exact absurd rfl hq

/-! ## Runs -/

/-- Every run keeps the log recoverable to what is current, which is what the acknowledged writes have made of
what was. By induction on the events. -/
theorem persisted_run (h : Mendable holds) {s : Session σ} (hpinned : s.Pinned) {events : List (Event σ)}
    (hkeep : KeepsBytes holds events) (hseq : s.WritesBelow events) (hs : Persisted holds s.connection) :
    Persisted holds (s.run events).connection ∧
      (s.run events).connection.timeline.contents =
        s.connection.timeline.contents.writeAll (effects (s.trace events)) := by
  induction events generalizing s with
  | nil => exact ⟨hs, rfl⟩
  | cons event events ih =>
    have hrest : KeepsBytes holds events := fun change hchange => hkeep change (List.mem_cons_of_mem _ hchange)
    cases event with
    | storage change =>
      obtain ⟨rs, data, hdata, hlog, hend⟩ := hs
      exact ih (s := s.next (.storage change)) hpinned hrest hseq.2
        ⟨rs, data, hdata, hkeep change List.mem_cons_self _ _ hlog, hend⟩
    | request q =>
      obtain ⟨hend, hcontents⟩ := ih (s := (s.step q).2) (agrees_step hpinned hseq.1).2 hrest hseq.2
        (persisted_step h hpinned hs hseq.1)
      refine ⟨hend, hcontents.trans ?_⟩
      rw [contents_step hpinned hseq.1, ← KeyMap.writeAll_append]
      rfl

end Session

/-! ## Visits -/

/-- A visit to a log: it is opened, something happens, and the connection is let go. -/
structure Visit (σ : Type) where
  path : Option String
  options : EngineOptions
  events : List (Event σ)

namespace Visit

variable {σ : Type} [LogStorage σ]

/-- What is acknowledged in a visit, and the log that it leaves. -/
def run (v : Visit σ) (log : σ) : List Operation × σ :=
  match Connection.openOn v.path v.options log with
  | .error (_, log) => ([], log)
  | .ok c =>
    (Session.effects ((Session.start c).trace v.events), ((Session.start c).run v.events).connection.drop.log)

/-- Sequences do not wrap around in the visit. -/
def WritesBelow (v : Visit σ) (log : σ) : Prop :=
  ∀ c, Connection.openOn v.path v.options log = .ok c → (Session.start c).WritesBelow v.events

end Visit

/-- What is acknowledged in one visit after the other, and the log that they leave. -/
def visits {σ : Type} [LogStorage σ] (log : σ) : List (Visit σ) → List Operation × σ
  | [] => ([], log)
  | v :: vs => ((v.run log).1 ++ (visits (v.run log).2 vs).1, (visits (v.run log).2 vs).2)

/-- Sequences do not wrap around in any of the visits. -/
def VisitsWriteBelow {σ : Type} [LogStorage σ] (log : σ) : List (Visit σ) → Prop
  | [] => True
  | v :: vs => v.WritesBelow log ∧ VisitsWriteBelow (v.run log).2 vs

section Visits

variable {σ : Type} [LogStorage σ] {holds : σ → Bytes → Prop} {log : σ} {m : Contents} {seq : Sequence}

/-- A connection that is opened on a log that recovers to `m` stands on `m`. -/
theorem Recovers.openOn (h : Faithful holds) (hlog : Recovers holds log m seq) {path : Option String}
    {options : EngineOptions} {c : Connection σ} (hopen : Connection.openOn path options log = .ok c) :
    Session.Persisted holds c ∧ c.timeline.contents = m ∧ c.sequence ≤ seq := by
  obtain ⟨rs, data, hdata, hs, hcontents, hseq⟩ := hlog
  obtain ⟨-, -, hvalid, -⟩ := Connection.openOn_eq_ok hopen
  rw [Connection.openOn_encodeLog hdata (h.readAll_eq hs) hvalid] at hopen
  cases hopen
  exact ⟨⟨rs, data, hdata, hs, rfl, UInt64.le_refl _⟩, hcontents, hseq⟩

/-- Such a log is always opened if the options are in range. -/
theorem Recovers.exists_openOn (h : Faithful holds) (hlog : Recovers holds log m seq) (path : Option String)
    {options : EngineOptions} (hvalid : options.validate = .ok ()) :
    ∃ c, Connection.openOn path options log = .ok c := by
  obtain ⟨rs, data, hdata, hs, -⟩ := hlog
  exact ⟨_, Connection.openOn_encodeLog hdata (h.readAll_eq hs) hvalid⟩

/-- If they are not, nothing happens to the log. -/
theorem Recovers.openOn_error (h : Faithful holds) (hlog : Recovers holds log m seq) {path : Option String}
    {options : EngineOptions} {e : EngineError} {log' : σ}
    (hopen : Connection.openOn path options log = .error (e, log')) : Recovers holds log' m seq := by
  cases hvalid : options.validate with
  | ok =>
    obtain ⟨c, hc⟩ := hlog.exists_openOn h path hvalid
    rw [hc] at hopen
    cases hopen
  | error e =>
    simp only [Connection.openOn, hvalid] at hopen
    cases hopen
    obtain ⟨rs, data, hdata, hs, hend⟩ := hlog
    exact ⟨rs, data, hdata, h.release hs, hend⟩

/-- A visit leaves a log that recovers to what its acknowledged writes have made of the map. -/
theorem Recovers.visit (h : Faithful holds) (hlog : Recovers holds log m seq) {v : Visit σ}
    (hkeep : Session.KeepsBytes holds v.events) (hseq : v.WritesBelow log) :
    ∃ seq', seq'.toNat ≤ seq.toNat + v.events.countP Event.isWrite ∧
      Recovers holds (v.run log).2 (m.writeAll (v.run log).1) seq' := by
  unfold Visit.run
  split
  · rename_i e log' hopen
    exact ⟨seq, Nat.le_add_right .., hlog.openOn_error h hopen⟩
  · rename_i c hopen
    obtain ⟨hc, rfl, hcseq⟩ := hlog.openOn h hopen
    obtain ⟨hrun, hcontents⟩ :=
      Session.persisted_run h.toMendable (Session.pinned_start hopen) hkeep (hseq c hopen) hc
    obtain ⟨rs, data, hdata, hs, hrecovered, hle⟩ := Session.persisted_close h.toLawful hrun
    refine ⟨_, ?_, rs, data, hdata, hs, ?_, hle⟩
    · have hrunSeq := (Session.start c).sequence_run_le v.events
      rw [Connection.sequence, Connection.timeline_close]
      exact Nat.le_trans hrunSeq (Nat.add_le_add_right (UInt64.le_iff_toNat_le.mp hcseq) _)
    · rw [hrecovered, Connection.timeline_close, hcontents]
      rfl

/-- So do any number of visits. By induction on them. -/
theorem Recovers.visits (h : Faithful holds) (hlog : Recovers holds log m seq) {vs : List (Visit σ)}
    (hkeep : ∀ v ∈ vs, Session.KeepsBytes holds v.events) (hseq : VisitsWriteBelow log vs) :
    ∃ seq', Recovers holds (visits log vs).2 (m.writeAll (visits log vs).1) seq' := by
  induction vs generalizing log m seq with
  | nil => exact ⟨seq, hlog⟩
  | cons v vs ih =>
    obtain ⟨seq', -, hv⟩ := hlog.visit h (hkeep v List.mem_cons_self) hseq.1
    obtain ⟨seq'', hvs⟩ := ih hv (fun v hv => hkeep v (List.mem_cons_of_mem _ hv)) hseq.2
    refine ⟨seq'', ?_⟩
    rw [OrderedStore.visits, KeyMap.writeAll_append]
    exact hvs

theorem visitsWriteBelow_append {vs ws : List (Visit σ)} :
    VisitsWriteBelow log (vs ++ ws) ↔ VisitsWriteBelow log vs ∧ VisitsWriteBelow (visits log vs).2 ws := by
  induction vs generalizing log with
  | nil => exact iff_of_eq (true_and _).symm
  | cons v vs ih => exact (and_congr_right fun _ => ih).trans and_assoc.symm

/-- Sequences do not wrap around while there are fewer writes in all visits than sequences left. By induction on
the visits; the bound is that of the next opening. -/
theorem Recovers.visitsWriteBelow (h : Faithful holds) (hlog : Recovers holds log m seq) {vs : List (Visit σ)}
    (hkeep : ∀ v ∈ vs, Session.KeepsBytes holds v.events)
    (hcount : seq.toNat + (vs.flatMap Visit.events).countP Event.isWrite < UInt64.size) : VisitsWriteBelow log vs := by
  induction vs generalizing log m seq with
  | nil => trivial
  | cons v vs ih =>
    rw [List.flatMap_cons, List.countP_append] at hcount
    have hv : v.WritesBelow log := fun c hopen => by
      have hcseq := UInt64.le_iff_toNat_le.mp (hlog.openOn h hopen).2.2
      exact Session.writesBelow_of_countP (Nat.lt_of_le_of_lt (Nat.add_le_add_right hcseq _) (by omega))
    obtain ⟨seq', hle, hrest⟩ := hlog.visit h (hkeep v List.mem_cons_self) hv
    exact ⟨hv, ih hrest (fun v hv => hkeep v (List.mem_cons_of_mem _ hv)) (by omega)⟩

omit [LogStorage σ] in
theorem recovers_empty (hs : holds log []) : Recovers holds log KeyMap.empty 0 :=
  ⟨[], [], rfl, hs, rfl, UInt64.le_refl _⟩

/-- On a log that does not fail and is empty at first, after any visits and at any moment of a visit: the log can be
opened, and lookups, the number of entries, and forward and backward scans are those of one map, to which all
writes that have been acknowledged, in this visit and before, have been applied in order. That sequences do not
wrap around is sure for fewer writes than there are sequences (`Recovers.visitsWriteBelow`). -/
theorem visits_refine_map (h : Faithful holds) (hs : holds log []) {past : List (Visit σ)} {now : Visit σ}
    (hkeep : ∀ v ∈ past ++ [now], Session.KeepsBytes holds v.events) (hseq : VisitsWriteBelow log (past ++ [now]))
    (hvalid : now.options.validate = .ok ()) :
    ∃ c, Connection.openOn now.path now.options (visits log past).2 = .ok c ∧
      let s := (Session.start c).run now.events
      let m := KeyMap.empty.writeAll ((visits log past).1 ++ Session.effects ((Session.start c).trace now.events))
      s.connection.isOpen = true →
        (∀ key, s.connection.get key = .ok (m.get? key)) ∧
        s.connection.property "burrow.num-entries" = some (toString m.size) ∧
        (∀ k, (s.trace (Session.walk σ s.readers.length k .first .next)).map Prod.snd =
          .opened (.ok s.readers.length) :: (List.range (k + 1)).map fun i => .entry m.entries[i]?) ∧
        ∀ k, (s.trace (Session.walk σ s.readers.length k .last .prev)).map Prod.snd =
          .opened (.ok s.readers.length) :: (List.range (k + 1)).map fun i => .entry m.entries.reverse[i]? := by
  obtain ⟨hpastSeq, hnowSeq, -⟩ := visitsWriteBelow_append.mp hseq
  obtain ⟨seq, hlog⟩ := (recovers_empty hs).visits h (fun v hv => hkeep v (List.mem_append_left _ hv)) hpastSeq
  have hnow := hkeep now (List.mem_append_right _ List.mem_cons_self)
  obtain ⟨c, hopen⟩ := hlog.exists_openOn h now.path hvalid
  obtain ⟨hc, hcontents, -⟩ := hlog.openOn h hopen
  refine ⟨c, hopen, ?_⟩
  intro s m hisOpen
  obtain ⟨-, hrun⟩ := Session.persisted_run h.toMendable (Session.pinned_start hopen) hnow (hnowSeq c hopen) hc
  have hm : s.connection.timeline.contents = m := calc
    s.connection.timeline.contents
      = c.timeline.contents.writeAll (Session.effects ((Session.start c).trace now.events)) := hrun
    _ = m := by rw [hcontents, ← KeyMap.writeAll_append]
  rw [← hm]
  exact ⟨Connection.get_of_isOpen hisOpen, Connection.numEntries_of_isOpen hisOpen, Session.trace_forward hisOpen,
    Session.trace_backward hisOpen⟩

/-- Three visits: one that closes with a view still held, one that is dropped, and one in which a key is erased. -/
theorem visits_refine_map_memory :
    let past : List (Visit MemoryLog) := [
      ⟨none, {}, [.openView, .write (.put [97] [1]), .write (.put [98] [2]), .close, .getAt 0 [97]].map .request⟩,
      ⟨none, {}, [.write (.apply [.put [97] [3], .delete [98], .put [99] []]), .openCursor].map .request⟩]
    let now : Visit MemoryLog := ⟨none, { paranoidChecks := true }, [.write (.delete [99])].map .request⟩
    MemoryLog.empty.data = [] ∧ (∀ v ∈ past ++ [now], Session.KeepsBytes (·.data = ·) v.events) ∧
      VisitsWriteBelow MemoryLog.empty (past ++ [now]) ∧ now.options.validate = .ok () ∧
      ∃ c, Connection.openOn now.path now.options (visits MemoryLog.empty past).2 = .ok c ∧
        ((Session.start c).run now.events).connection.isOpen = true ∧
        ∀ key, ((Session.start c).run now.events).connection.get key =
          .ok ((KeyMap.empty.writeAll ((visits MemoryLog.empty past).1 ++
            Session.effects ((Session.start c).trace now.events))).get? key) := by
  intro past now
  have hkeep : ∀ v ∈ past ++ [now], Session.KeepsBytes (·.data = ·) v.events := by
    intro v hv change hchange
    simp only [past, now, List.cons_append, List.nil_append, List.mem_cons, List.not_mem_nil, or_false] at hv
    rcases hv with rfl | rfl | rfl
    all_goals
      simp only [List.map_cons, List.map_nil, List.mem_cons, reduceCtorEq, List.not_mem_nil, or_self] at hchange
  have hseq : VisitsWriteBelow MemoryLog.empty (past ++ [now]) :=
    (recovers_empty rfl).visitsWriteBelow MemoryLog.faithful hkeep (by decide)
  obtain ⟨c, hopen, hmap⟩ := visits_refine_map MemoryLog.faithful rfl hkeep hseq rfl
  have hisOpen : ((Session.start c).run now.events).connection.isOpen = true := by
    obtain ⟨replay, log', -, -, -, rfl⟩ := Connection.openOn_eq_ok hopen
    exact Session.isOpen_run (by simp [now]) (by simp [now])
  exact ⟨rfl, hkeep, hseq, rfl, c, hopen, hisOpen, (hmap hisOpen).1⟩

end Visits

end OrderedStore
