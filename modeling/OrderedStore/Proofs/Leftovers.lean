import OrderedStore.Proofs.Crash

/-!
# What refused writes leave in a log

A write that the log refuses cuts off what the log has taken of its record. If this fails too, the write is
refused all the same and the session goes on, with a piece of a frame in the log.

* `Recoverable`: what a copy of a log is opened with;
* `Session.leaves_run`: the log only grows while the connection is open;
* `Session.recoverable_of_mendsAll`: while nothing is left behind, just the acknowledged writes are recovered;
* `Session.acknowledged_recoverable`: those before the first leftover always are, in front of anything else.

Writes that are acknowledged behind a leftover can be lost, and a leftover that is a whole frame is a write that was
refused and is recovered: `Session.leftovers_not_recoverable`.
-/

namespace OrderedStore

open LogStorage

/-- A copy of the bytes, on a storage that does not fail, is opened with the contents `m` if the options allow a
damage. -/
def Recoverable (bytes : Bytes) (m : Contents) : Prop :=
  ∀ (τ : Type) [LogStorage τ] (holds : τ → Bytes → Prop), Faithful holds → ∀ copy, holds copy bytes →
    ∀ (path : Option String) (options : EngineOptions), options.validate = .ok () → options.paranoidChecks = false →
    ∃ c, Connection.openOn path options copy = .ok c ∧ c.timeline.contents = m

/-- What is recovered are the records up to the first damage. -/
theorem recoverable_of_records {bytes : Bytes} {m : Contents}
    (hm : KeyMap.empty.writeAll ((Replay.read bytes).records.flatMap Record.operations) = m) :
    Recoverable bytes m := by
  intro τ inst holds h copy hcopy path options hvalid hlenient
  obtain ⟨c, hopen⟩ := Connection.exists_openOn h hcopy path hvalid (.inl hlenient)
  obtain ⟨-, htimeline, -⟩ := Connection.holds_openOn h.toLawful hcopy hopen
  refine ⟨c, hopen, ?_⟩
  rw [htimeline, Timeline.contents_ofRecords, hm]

/-- A copy is opened with the same contents every time. -/
theorem Recoverable.unique {bytes : Bytes} {m m' : Contents} (h : Recoverable bytes m) (h' : Recoverable bytes m') :
    m = m' := by
  obtain ⟨c, hopen, hcontents⟩ := h _ _ MemoryLog.faithful ⟨bytes⟩ rfl none {} (by decide) rfl
  obtain ⟨c', hopen', hcontents'⟩ := h' _ _ MemoryLog.faithful ⟨bytes⟩ rfl none {} (by decide) rfl
  cases hopen.symm.trans hopen'
  exact hcontents.symm.trans hcontents'

namespace Session

/-- An answered request has applied the operations of the record that it has added. -/
theorem effect_eq (seq : Sequence) (answered : Request × Answer) :
    effect answered = (added? seq answered).toList.flatMap Record.operations := by
  rcases answered with ⟨q, a⟩
  cases q with
  | write w =>
    cases a with
    | done result =>
      cases result with
      | error e => rfl
      | ok =>
        show w.operations = (w.record? (seq + 1)).toList.flatMap Record.operations
        cases hr : w.record? (seq + 1) with
        | none => exact Write.operations_of_record?_eq_none hr
        | some r => exact (Write.record?_eq_some hr).2.symm.trans (List.flatMap_singleton ..).symm
    | _ => rfl
  | _ => rfl

/-- The records of the acknowledged writes are made of their operations. -/
theorem operations_acknowledged (seq : Sequence) (trace : List (Request × Answer)) :
    (acknowledged seq trace).flatMap Record.operations = effects trace := by
  induction trace generalizing seq with
  | nil => rfl
  | cons answered rest ih =>
    rw [effects, List.flatMap_cons, effect_eq seq, acknowledged]
    cases added? seq answered with
    | none => exact ih seq
    | some r =>
      rw [List.flatMap_cons, ih, Option.toList_some, List.flatMap_singleton]
      rfl

variable {σ : Type} [LogStorage σ]

theorem run_append (s : Session σ) (before after : List (Event σ)) :
    s.run (before ++ after) = (s.run before).run after := List.foldl_append

/-- As long as the connection is open, the log only grows. By induction on the events. -/
theorem leaves_run {holds : σ → Bytes → Prop} (h : Lawful holds) {s : Session σ} {data : Bytes}
    (hs : holds s.connection.log data) {events : List (Event σ)} (hkeep : KeepsBytes holds events)
    (hopen : (s.run events).connection.isOpen = true) :
    ∃ more, holds (s.run events).connection.log (data ++ more) := by
  induction events generalizing s data with
  | nil => exact ⟨[], (List.append_nil data).symm ▸ hs⟩
  | cons event events ih =>
    have hrest : KeepsBytes holds events := fun change hchange => hkeep change (List.mem_cons_of_mem _ hchange)
    cases event with
    | storage change =>
      exact ih (s := s.next (.storage change)) (hkeep change List.mem_cons_self _ _ hs) hrest hopen
    | request q =>
      have hstep : ∃ more, holds (s.step q).2.connection.log (data ++ more) := by
        rcases leaves_step h hs q (isOpen_of_run hopen) with ⟨-, -, left, hlog, -⟩ | ⟨r, frame, -, -, -, hlog⟩
        · exact ⟨left, hlog⟩
        · exact ⟨frame, hlog⟩
      obtain ⟨first, hfirst⟩ := hstep
      obtain ⟨more, hmore⟩ := ih (s := (s.step q).2) hfirst hrest hopen
      exact ⟨first ++ more, List.append_assoc .. ▸ hmore⟩

/-! ## What is recovered -/

variable {holds : σ → Bytes → Prop} {path : Option String} {options : EngineOptions} {log : σ} {data : Bytes}
  {c : Connection σ}

/-- The frames of a session whose writes all mend the log stand behind those that were recovered first, and whatever
is behind them, they are read back. -/
theorem recoverable_append (h : Lawful holds) (hs : holds log data)
    (hopen : Connection.openOn path options log = .ok c) {events : List (Event σ)}
    (hkeep : KeepsBytes holds events) (hmends : (start c).mendsAll events = true)
    (hend : ((start c).run events).connection.isOpen = true) :
    ∃ bytes, holds ((start c).run events).connection.log bytes ∧ ∀ more, Recoverable (bytes ++ more)
      (c.timeline.contents.writeAll (effects ((start c).trace events) ++
        (Replay.readWith crc32 bytes.length more).records.flatMap Record.operations)) := by
  obtain ⟨hbase, htimeline, -⟩ := Connection.holds_openOn h hs hopen
  obtain ⟨frames, hframes, hlog⟩ := holds_run_of_mendsAll h (s := start c) hbase hkeep hmends hend
  refine ⟨_, hlog, fun more => ?_⟩
  have hall := encodeLogWith_append_eq_ok_iff.mpr ⟨_, _, Replay.encodeLog_records data, hframes, rfl⟩
  refine recoverable_of_records ?_
  rw [Replay.read, Replay.readWith_append hall, Nat.zero_add, htimeline, Timeline.contents_ofRecords,
    ← KeyMap.writeAll_append, ← List.append_assoc, ← operations_acknowledged c.sequence, ← List.flatMap_append,
    ← List.flatMap_append]
  rfl

/-- While every write mends the log, a copy of it is opened with just what the acknowledged writes have made of the
contents. -/
theorem recoverable_of_mendsAll (h : Lawful holds) (hs : holds log data)
    (hopen : Connection.openOn path options log = .ok c) {events : List (Event σ)}
    (hkeep : KeepsBytes holds events) (hmends : (start c).mendsAll events = true)
    (hend : ((start c).run events).connection.isOpen = true) :
    ∃ bytes, holds ((start c).run events).connection.log bytes ∧
      Recoverable bytes (c.timeline.contents.writeAll (effects ((start c).trace events))) := by
  obtain ⟨bytes, hlog, hcopy⟩ := recoverable_append h hs hopen hkeep hmends hend
  have hnothing := hcopy []
  rw [Replay.readWith_nil, List.flatMap_nil, List.append_nil, List.append_nil] at hnothing
  exact ⟨bytes, hlog, hnothing⟩

/-- In a session on any lawful log, whatever fails, as long as the connection is open: if every write so far has mended
the log, a copy of the log is opened with just what the acknowledged writes have made of the contents; and however
the session goes on after such a time, a copy is opened with what the writes acknowledged by then, and something
behind them, have made of the contents. -/
theorem acknowledged_recoverable (h : Lawful holds) (hs : holds log data)
    (hopen : Connection.openOn path options log = .ok c) {before after : List (Event σ)}
    (hkeep : KeepsBytes holds (before ++ after)) (hmends : (start c).mendsAll before = true)
    (hend : ((start c).run (before ++ after)).connection.isOpen = true) :
    (∃ bytes, holds ((start c).run before).connection.log bytes ∧
      Recoverable bytes (c.timeline.contents.writeAll (effects ((start c).trace before)))) ∧
    ∃ bytes more, holds ((start c).run (before ++ after)).connection.log bytes ∧
      Recoverable bytes (c.timeline.contents.writeAll (effects ((start c).trace before) ++ more)) := by
  have hbefore : KeepsBytes holds before := fun change hchange => hkeep change (List.mem_append_left _ hchange)
  have hafter : KeepsBytes holds after := fun change hchange => hkeep change (List.mem_append_right _ hchange)
  rw [run_append] at hend ⊢
  have hmiddle := isOpen_of_run hend
  refine ⟨recoverable_of_mendsAll h hs hopen hbefore hmends hmiddle, ?_⟩
  obtain ⟨bytes, hlog, hcopy⟩ := recoverable_append h hs hopen hbefore hmends hmiddle
  obtain ⟨more, hmore⟩ := leaves_run h hlog hafter hend
  exact ⟨bytes ++ more, _, hmore, hcopy more⟩

/-- A write that is cut off again, then one that is acknowledged, and behind it one whose leftover cannot be cut
off. -/
theorem acknowledged_recoverable_faulty :
    let data : Bytes := [66, 76, 79, 71, 1, 0, 1, 18, 0, 0, 0, 7, 0, 0, 0, 0, 0, 0, 0, 1, 0, 0, 0, 97, 1, 0, 0, 0, 1,
      225, 104, 124, 77]
    let log : FaultyLog := { log := ⟨data⟩ }
    let c : Connection FaultyLog := ⟨none, {}, .ofRecords [.put 7 [97] [1]], log, true⟩
    let fault : Option LogFault := some ⟨.io (.reported "disk full"), 3⟩
    let before : List (Event FaultyLog) := [.storage (·.setFault .append fault), .request (.write (.delete [97])),
      .storage (·.setFault .append none), .request (.write (.put [98] [2]))]
    let after : List (Event FaultyLog) := [.storage (·.setFault .append fault), .storage (·.setFault .truncate fault),
      .request (.write (.delete [98])), .storage (·.setFault .append none), .request (.write (.put [99] [3]))]
    log.log.data = data ∧ Connection.openOn none {} log = .ok c ∧
      KeepsBytes (fun f bytes => f.log.data = bytes) (before ++ after) ∧ (start c).mendsAll before = true ∧
      ((start c).run (before ++ after)).connection.isOpen = true ∧
      effects ((start c).trace before) = [.put [98] [2]] ∧
      (∃ bytes, ((start c).run before).connection.log.log.data = bytes ∧
        Recoverable bytes (c.timeline.contents.writeAll (effects ((start c).trace before)))) ∧
      ∃ bytes more, ((start c).run (before ++ after)).connection.log.log.data = bytes ∧
        Recoverable bytes (c.timeline.contents.writeAll (effects ((start c).trace before) ++ more)) := by
  intro data log c fault before after
  have hopen : Connection.openOn none {} log = .ok c :=
    Connection.openOn_encodeLog (by decide +kernel) rfl (by decide)
  have hkeep : KeepsBytes (fun f bytes => f.log.data = bytes) (before ++ after) := by
    simp only [KeepsBytes, before, after, List.cons_append, List.nil_append, List.mem_cons, List.not_mem_nil,
      reduceCtorEq, Event.storage.injEq, false_or, or_false]
    rintro change (rfl | rfl | rfl | rfl | rfl) log bytes h
    all_goals exact h
  have hmends : (start c).mendsAll before = true := by decide +kernel
  have hend : ((start c).run (before ++ after)).connection.isOpen = true := by decide +kernel
  obtain ⟨hmended, hlater⟩ := acknowledged_recoverable FaultyLog.lawful rfl hopen hkeep hmends hend
  exact ⟨rfl, hopen, hkeep, hmends, hend, by decide +kernel, hmended, hlater⟩

/-- A write is refused after one byte of it, which cannot be cut off: the next one is acknowledged and not recovered.
A write is refused although its whole frame is in the log, and cannot be cut off: it is recovered. -/
theorem leftovers_not_recoverable :
    let data : Bytes := [66, 76, 79, 71, 1, 0, 1, 18, 0, 0, 0, 7, 0, 0, 0, 0, 0, 0, 0, 1, 0, 0, 0, 97, 1, 0, 0, 0, 1,
      225, 104, 124, 77]
    let log : FaultyLog := { log := ⟨data⟩ }
    let c : Connection FaultyLog := ⟨none, {}, .ofRecords [.put 7 [97] [1]], log, true⟩
    let refused (written : Nat) : List (Event FaultyLog) :=
      [.storage (·.setFault .append (some ⟨.io (.reported "disk full"), written⟩)),
        .storage (·.setFault .truncate (some ⟨.io (.reported "disk full"), 0⟩)), .request (.write (.put [98] [2])),
        .storage (·.setFault .append none), .storage (·.setFault .truncate none)]
    let lost := refused 1 ++ [.request (.write (.put [99] [3]))]
    Connection.openOn none {} log = .ok c ∧
      (effects ((start c).trace lost) = [.put [99] [3]] ∧
        Recoverable ((start c).run lost).connection.log.log.data c.timeline.contents ∧
        ¬ Recoverable ((start c).run lost).connection.log.log.data
          (c.timeline.contents.writeAll (effects ((start c).trace lost)))) ∧
      effects ((start c).trace (refused 33)) = [] ∧
        Recoverable ((start c).run (refused 33)).connection.log.log.data
          (c.timeline.contents.writeAll [.put [98] [2]]) ∧
        ¬ Recoverable ((start c).run (refused 33)).connection.log.log.data
          (c.timeline.contents.writeAll (effects ((start c).trace (refused 33)))) := by
  intro data log c refused lost
  have hopen : Connection.openOn none {} log = .ok c :=
    Connection.openOn_encodeLog (by decide +kernel) rfl (by decide)
  have hlost : Recoverable ((start c).run lost).connection.log.log.data c.timeline.contents :=
    recoverable_of_records (by decide +kernel)
  have hrefused : Recoverable ((start c).run (refused 33)).connection.log.log.data
      (c.timeline.contents.writeAll [.put [98] [2]]) :=
    recoverable_of_records (by decide +kernel)
  have hlostNe : c.timeline.contents ≠ c.timeline.contents.writeAll (effects ((start c).trace lost)) := by
    decide +kernel
  have hrefusedNe : c.timeline.contents.writeAll [.put [98] [2]] ≠
      c.timeline.contents.writeAll (effects ((start c).trace (refused 33))) := by
    decide +kernel
  exact ⟨hopen, ⟨by decide +kernel, hlost, fun h => hlostNe (hlost.unique h)⟩, by decide +kernel, hrefused,
    fun h => hrefusedNe (hrefused.unique h)⟩

end Session

end OrderedStore
