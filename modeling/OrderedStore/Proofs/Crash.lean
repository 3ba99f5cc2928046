import OrderedStore.Proofs.Recovery
import OrderedStore.Proofs.Session

/-!
# What a log holds while a session goes on

The log of an open session is what it was at the opening, and behind it the frames of the writes that
have been acknowledged, in order. A write that is not acknowledged leaves nothing behind, if what the log
has taken of its record is cut off again.

* `Connection.leaves_write`: one write; `Session.leaves_step`: one request;
* `Connection.mends`, `Session.mendsAll`: refused writes are cut off again;
* `Session.acknowledged`: the records of the acknowledged writes;
* `Session.holds_run_of_mendsAll`, `Session.holds_run`: a whole run;
* `Session.acknowledged_survive_cut`: wherever the log is cut, the writes whose frames are below the cut
  are recovered, each as a whole.

On a storage that is `LogStorage.Mendable`, every refused write is cut off.
-/

namespace OrderedStore

open LogStorage

/-! ## One write -/

/-- If the log refuses the record of a write, what it has taken of the record is cut off again. -/
def Connection.mends {σ : Type} [LogStorage σ] (c : Connection σ) (w : Write) : Bool :=
  match w.record? (c.sequence + 1), LogStorage.size c.log with
  | some r, .ok size =>
    match appendRecord r c.log with
    | (.ok _, _) => true
    | (.error _, log) => (truncate size log).1.isOk
  | _, _ => true

/-- A write that is refused, or fails at the log, leaves the timeline as it was, and the bytes of the log too if it
mends the log; otherwise something is left behind them. One that is acknowledged adds the frame of its record, if it
has one. -/
theorem Connection.leaves_write {σ : Type} [LogStorage σ] {holds : σ → Bytes → Prop} (h : Lawful holds)
    {c c' : Connection σ} {data : Bytes} (hs : holds c.log data) {w : Write} {result : Except EngineError Unit}
    (hw : c.write w = (result, c')) :
    ((∃ e, result = .error e) ∧ c'.timeline = c.timeline ∧
      ∃ left, holds c'.log (data ++ left) ∧ (c.mends w = true → left = [])) ∨
    (result = .ok () ∧ (∀ seq, w.record? seq = none) ∧ c' = c) ∨
    (result = .ok () ∧ ∃ r frame, w.record? (c.sequence + 1) = some r ∧ Frame.encode r = .ok frame ∧
      c'.timeline = c.timeline.commit r ∧ holds c'.log (data ++ frame)) := by
  have hsame : ∃ left, holds c.log (data ++ left) ∧ (c.mends w = true → left = []) :=
    ⟨[], (List.append_nil data).symm ▸ hs, fun _ => rfl⟩
  rcases c.write_eq w with ⟨make, hmake, heq⟩ | ⟨hnone, heq⟩
  · rw [heq] at hw
    rcases commit_cases hw with ⟨-, rfl, rfl⟩ | ⟨-, e, -, rfl, rfl⟩ |
      ⟨-, size, hsize, ⟨e, log, happend, rfl, rfl⟩ | ⟨offset, log, happend, rfl, rfl⟩⟩
    · exact .inl ⟨⟨_, rfl⟩, rfl, hsame⟩
    · exact .inl ⟨⟨e, rfl⟩, rfl, hsame⟩
    · obtain ⟨torn, htorn⟩ := h.appendRecord_error hs happend
      refine .inl ⟨⟨e, rfl⟩, rfl, ?_⟩
      have hcut : c.mends w = (truncate size log).1.isOk := by simp only [mends, hmake, hsize, happend]
      obtain ⟨cut, log', htruncate⟩ : ∃ cut log', truncate size log = (cut, log') := ⟨_, _, rfl⟩
      rw [hcut, htruncate]
      cases cut with
      | ok =>
        -- What the append has left behind is cut off again.
        have hfront := h.truncate_ok htorn htruncate
        rw [h.size hs hsize, List.take_left, ← List.append_nil data] at hfront
        exact ⟨[], hfront, fun _ => rfl⟩
      | error e => exact ⟨torn, h.truncate_error htorn htruncate, fun hok => nomatch hok⟩
    · obtain ⟨frame, hframe, hlog⟩ := h.appendRecord_ok hs happend
      exact .inr (.inr ⟨rfl, _, frame, hmake _, hframe, rfl, hlog⟩)
  · rw [heq] at hw
    cases hw
    unfold ifOpen
    split
    · exact .inr (.inl ⟨rfl, hnone, rfl⟩)
    · exact .inl ⟨⟨_, rfl⟩, rfl, hsame⟩

/-- A log that can be cut back is always mended. -/
theorem Connection.mends_of_mendable {σ : Type} [LogStorage σ] {holds : σ → Bytes → Prop} (h : Mendable holds)
    {c : Connection σ} {data : Bytes} (hs : holds c.log data) (w : Write) : c.mends w = true := by
  unfold mends
  split
  · rename_i r size _ hsize
    split
    · rfl
    · rename_i e log happend
      obtain ⟨torn, htorn⟩ := h.appendRecord_error hs happend
      have hle : size ≤ (data ++ torn).length := by
        rw [h.size hs hsize, List.length_append]
        exact Nat.le_add_right ..
      obtain ⟨log', hcut⟩ := h.truncates htorn hle
      rw [hcut]
      rfl
  · rfl

/-- On a log that can be cut back, a write that is refused or fails leaves the bytes of the log as they were. -/
theorem Connection.holds_write {σ : Type} [LogStorage σ] {holds : σ → Bytes → Prop} (h : Mendable holds)
    {c c' : Connection σ} {data : Bytes} (hs : holds c.log data) {w : Write} {result : Except EngineError Unit}
    (hw : c.write w = (result, c')) :
    ((∃ e, result = .error e) ∧ c'.timeline = c.timeline ∧ holds c'.log data) ∨
    (result = .ok () ∧ (∀ seq, w.record? seq = none) ∧ c' = c) ∨
    (result = .ok () ∧ ∃ r frame, w.record? (c.sequence + 1) = some r ∧ Frame.encode r = .ok frame ∧
      c'.timeline = c.timeline.commit r ∧ holds c'.log (data ++ frame)) := by
  rcases leaves_write h.toLawful hs hw with ⟨herror, htimeline, left, hlog, hmended⟩ | hnone | hadded
  · rw [hmended (mends_of_mendable h hs w), List.append_nil] at hlog
    exact .inl ⟨herror, htimeline, hlog⟩
  · exact .inr (.inl hnone)
  · exact .inr (.inr hadded)

/-- A write that is not acknowledged leaves no trace. -/
theorem Connection.holds_write_error {σ : Type} [LogStorage σ] {holds : σ → Bytes → Prop} (h : Mendable holds)
    {c c' : Connection σ} {data : Bytes} (hs : holds c.log data) {w : Write} {e : EngineError}
    (hw : c.write w = (.error e, c')) : holds c'.log data ∧ c'.timeline = c.timeline := by
  obtain ⟨-, htimeline, hlog⟩ | ⟨hok, -⟩ | ⟨hok, -⟩ := holds_write h hs hw
  · exact ⟨hlog, htimeline⟩
  · cases hok
  · cases hok

namespace Session

variable {σ : Type} [LogStorage σ]

/-! ## The writes that are acknowledged -/

/-- The record that an answered request has added to a timeline at `seq`, if any. -/
def added? (seq : Sequence) : Request × Answer → Option Record
  | (.write w, .done (.ok ())) => w.record? (seq + 1)
  | _ => none

/-- The records of the writes that a trace acknowledges: those at `seq + 1`, `seq + 2` and so on. A batch without
operations has no record. -/
def acknowledged (seq : Sequence) : List (Request × Answer) → List Record
  | [] => []
  | answered :: rest =>
    match added? seq answered with
    | some r => r :: acknowledged (seq + 1) rest
    | none => acknowledged seq rest

/-! ## One request -/

/-- An event is no write, or mends the log if it is refused. -/
def mends (s : Session σ) : Event σ → Bool
  | .request (.write w) => s.connection.mends w
  | _ => true

/-- So are all of the events. -/
def mendsAll (s : Session σ) : List (Event σ) → Bool
  | [] => true
  | event :: events => s.mends event && (s.next event).mendsAll events

/-- Only a write adds a record. -/
theorem added?_of_reads {q : Request} (hq : q.reads = true) (seq : Sequence) (a : Answer) :
    added? seq (q, a) = none := by
  cases q with
  | write => cases hq
  | _ => rfl

/-- A request after which the connection is open adds the frame of the record that it has added to the bytes of the
log; another one adds nothing if it mends the log. -/
theorem leaves_step {holds : σ → Bytes → Prop} (h : Lawful holds) {s : Session σ} {data : Bytes}
    (hs : holds s.connection.log data) (q : Request) (hopen : (s.step q).2.connection.isOpen = true) :
    (added? s.connection.sequence (q, (s.step q).1) = none ∧
      (s.step q).2.connection.sequence = s.connection.sequence ∧
      ∃ left, holds (s.step q).2.connection.log (data ++ left) ∧ (s.mends (.request q) = true → left = [])) ∨
    ∃ r frame, added? s.connection.sequence (q, (s.step q).1) = some r ∧ Frame.encode r = .ok frame ∧
      (s.step q).2.connection.sequence = s.connection.sequence + 1 ∧
      holds (s.step q).2.connection.log (data ++ frame) := by
  have hnothing : holds s.connection.log (data ++ []) := (List.append_nil data).symm ▸ hs
  by_cases hq : q.reads = true
  · obtain ⟨hlog, -, hseq, -⟩ := s.step_of_reads hq
    exact .inl ⟨added?_of_reads hq .., hseq, [], hlog.symm ▸ hnothing, fun _ => rfl⟩
  cases q with
  | write w =>
    obtain ⟨result, c, hw⟩ : ∃ result c, s.connection.write w = (result, c) := ⟨_, _, rfl⟩
    simp only [step, hw]
    rcases Connection.leaves_write h hs hw with ⟨⟨e, rfl⟩, htimeline, hleft⟩ | ⟨rfl, hnone, rfl⟩ |
      ⟨rfl, r, frame, hr, hframe, htimeline, hlog⟩
    · exact .inl ⟨rfl, congrArg Timeline.sequence htimeline, hleft⟩
    · exact .inl ⟨hnone _, rfl, [], hnothing, fun _ => rfl⟩
    · refine .inr ⟨r, frame, hr, hframe, ?_, hlog⟩
      rw [Connection.sequence, htimeline]
      exact (Write.record?_eq_some hr).1
  | close | drop =>
    have hclosed : s.connection.close.2.isOpen = false := s.connection.isOpen_close
    exact absurd (hclosed.symm.trans hopen) Bool.false_ne_true
  | _ => exact absurd rfl hq

/-! ## Runs -/

/-- As long as the connection is open and every write mends the log, the log is what it was, and behind it the frames
of the acknowledged writes in order. By induction on the events. -/
theorem holds_run_of_mendsAll {holds : σ → Bytes → Prop} (h : Lawful holds) {s : Session σ} {data : Bytes}
    (hs : holds s.connection.log data) {events : List (Event σ)} (hkeep : KeepsBytes holds events)
    (hmends : s.mendsAll events = true) (hopen : (s.run events).connection.isOpen = true) :
    ∃ frames, encodeLog (acknowledged s.connection.sequence (s.trace events)) = .ok frames ∧
      holds (s.run events).connection.log (data ++ frames) := by
  induction events generalizing s data with
  | nil => exact ⟨[], rfl, (List.append_nil data).symm ▸ hs⟩
  | cons event events ih =>
    have hrest : KeepsBytes holds events := fun change hchange => hkeep change (List.mem_cons_of_mem _ hchange)
    obtain ⟨hevent, hmends⟩ := Bool.and_eq_true_iff.mp hmends
    cases event with
    | storage change =>
      have hchanged := hkeep change List.mem_cons_self _ _ hs
      exact ih (s := s.next (.storage change)) hchanged hrest hmends hopen
    | request q =>
      have hstep := leaves_step h hs q (isOpen_of_run hopen)
      rcases hstep with ⟨hnone, hseq, left, hlog, hleft⟩ | ⟨r, frame, hr, hframe, hseq, hlog⟩
      · rw [hleft hevent, List.append_nil] at hlog
        obtain ⟨frames, hframes, hend⟩ := ih (s := (s.step q).2) hlog hrest hmends hopen
        refine ⟨frames, ?_, hend⟩
        rw [trace, acknowledged, hnone]
        exact hseq ▸ hframes
      · obtain ⟨frames, hframes, hend⟩ := ih (s := (s.step q).2) hlog hrest hmends hopen
        refine ⟨frame ++ frames, ?_, List.append_assoc .. ▸ hend⟩
        rw [trace, acknowledged, hr]
        exact encodeLogWith_cons_eq_ok_iff.mpr ⟨frame, frames, hframe, hseq ▸ hframes, rfl⟩

/-- On a log that can be cut back, every write mends the log. -/
theorem mendsAll_of_mendable {holds : σ → Bytes → Prop} (h : Mendable holds) {s : Session σ} {data : Bytes}
    (hs : holds s.connection.log data) {events : List (Event σ)} (hkeep : KeepsBytes holds events)
    (hopen : (s.run events).connection.isOpen = true) : s.mendsAll events = true := by
  induction events generalizing s data with
  | nil => rfl
  | cons event events ih =>
    have hrest : KeepsBytes holds events := fun change hchange => hkeep change (List.mem_cons_of_mem _ hchange)
    rw [mendsAll, Bool.and_eq_true_iff]
    cases event with
    | storage change =>
      have hchanged := hkeep change List.mem_cons_self _ _ hs
      exact ⟨rfl, ih (s := s.next (.storage change)) hchanged hrest hopen⟩
    | request q =>
      have hevent : s.mends (.request q) = true := by
        cases q with
        | write w => exact Connection.mends_of_mendable h hs w
        | _ => rfl
      refine ⟨hevent, ?_⟩
      rcases leaves_step h.toLawful hs q (isOpen_of_run hopen) with ⟨-, -, left, hlog, -⟩ | ⟨r, frame, -, -, -, hlog⟩
      · exact ih (s := (s.step q).2) hlog hrest hopen
      · exact ih (s := (s.step q).2) hlog hrest hopen

theorem holds_run {holds : σ → Bytes → Prop} (h : Mendable holds) {s : Session σ} {data : Bytes}
    (hs : holds s.connection.log data) {events : List (Event σ)} (hkeep : KeepsBytes holds events)
    (hopen : (s.run events).connection.isOpen = true) :
    ∃ frames, encodeLog (acknowledged s.connection.sequence (s.trace events)) = .ok frames ∧
      holds (s.run events).connection.log (data ++ frames) :=
  holds_run_of_mendsAll h.toLawful hs hkeep (mendsAll_of_mendable h hs hkeep hopen) hopen

/-- In a session on any log that can be cut back, as long as the connection is open: the log is what it was right
after the opening, and behind it the frames of the acknowledged writes in order; a write that is not acknowledged
leaves the bytes of the log and the timeline as they are; and if the log is cut there or anywhere behind, opening
it recovers exactly the writes whose frames are below the cut. -/
theorem acknowledged_survive_cut {holds : σ → Bytes → Prop} (h : Mendable holds) {path : Option String}
    {options : EngineOptions} {log : σ} {data : Bytes} (hs : holds log data) {c : Connection σ}
    (hopen : Connection.openOn path options log = .ok c) {events : List (Event σ)}
    (hkeep : KeepsBytes holds events) (hend : ((start c).run events).connection.isOpen = true) :
    holds c.log (Replay.undamaged data) ∧
    ∃ frames, encodeLog (acknowledged c.sequence ((start c).trace events)) = .ok frames ∧
      holds ((start c).run events).connection.log (Replay.undamaged data ++ frames) ∧
      (∀ w e c', ((start c).run events).connection.write w = (.error e, c') →
        holds c'.log (Replay.undamaged data ++ frames) ∧
          c'.timeline = ((start c).run events).connection.timeline) ∧
      ∀ {τ : Type} [LogStorage τ] {holds' : τ → Bytes → Prop}, Faithful holds' →
        ∀ (n : Nat) (cut : τ), (Replay.undamaged data).length ≤ n →
        holds' cut ((Replay.undamaged data ++ frames).take n) →
        ∀ (path : Option String) (options : EngineOptions), options.validate = .ok () →
        options.paranoidChecks = false →
        ∃ d, Connection.openOn path options cut = .ok d ∧
          d.timeline.contents = c.timeline.contents.writeAll
            ((Replay.framesWithin crc32 (n - (Replay.undamaged data).length)
              (acknowledged c.sequence ((start c).trace events))).flatMap Record.operations) := by
  obtain ⟨hbase, htimeline, -⟩ := Connection.holds_openOn h.toLawful hs hopen
  obtain ⟨frames, (hframes : encodeLog (acknowledged c.sequence _) = .ok frames), hlog⟩ :=
    holds_run h (s := start c) hbase hkeep hend
  refine ⟨hbase, frames, hframes, hlog, fun w e c' hw => Connection.holds_write_error h hlog hw, ?_⟩
  intro τ _ holds' h' n cut hn hcut path options hvalid hlenient
  -- The bytes are those of the records recovered first and of the acknowledged ones.
  have hall := encodeLogWith_append_eq_ok_iff.mpr ⟨_, _, Replay.encodeLog_records data, hframes, rfl⟩
  obtain ⟨d, hd, hcontents⟩ := Connection.contents_openOn_take h' hall hcut path hvalid hlenient
  refine ⟨d, hd, ?_⟩
  obtain ⟨k, rfl⟩ := Nat.exists_eq_add_of_le hn
  rw [hcontents, Replay.framesWithin_append (Replay.encodeLog_records data), List.flatMap_append,
    KeyMap.writeAll_append, htimeline, Timeline.contents_ofRecords, Nat.add_sub_cancel_left]

/-- A deletion of which three bytes reach the log, and a write for which the log does not tell its size, leave
nothing between the writes around them. -/
theorem acknowledged_survive_cut_faulty :
    let data : Bytes := [66, 76, 79, 71, 1, 0, 1, 18, 0, 0, 0, 7, 0, 0, 0, 0, 0, 0, 0, 1, 0, 0, 0, 97, 1, 0, 0, 0,
      1, 225, 104, 124, 77]
    let log : FaultyLog := { log := ⟨data⟩ }
    let c : Connection FaultyLog := ⟨none, {}, .ofRecords [.put 7 [97] [1]], log, true⟩
    let fault : LogFault := ⟨.io (.reported "no space left"), 3⟩
    let events : List (Event FaultyLog) := [
      .request (.write (.put [98] [2])),
      .storage (·.setFault .append fault), .request (.write (.delete [97])), .storage (·.setFault .append none),
      .storage (·.setFault .size fault), .request (.write (.delete [98])), .storage (·.setFault .size none),
      .request (.write (.apply [.put [97] [1], .delete [98]]))]
    log.Holds data ∧ Connection.openOn none {} log = .ok c ∧ KeepsBytes FaultyLog.Holds events ∧
      ((start c).run events).connection.isOpen = true ∧
      acknowledged c.sequence ((start c).trace events) =
        [.put 8 [98] [2], .batch 9 [.put [97] [1], .delete [98]]] ∧
      ∃ frames, encodeLog (acknowledged c.sequence ((start c).trace events)) = .ok frames ∧
        FaultyLog.Holds ((start c).run events).connection.log (Replay.undamaged data ++ frames) := by
  intro data log c fault events
  have hholds : log.Holds data := ⟨rfl, rfl⟩
  have hopen : Connection.openOn none {} log = .ok c :=
    Connection.openOn_encodeLog (by decide +kernel) rfl (by decide)
  have hkeep : KeepsBytes FaultyLog.Holds events := by
    simp only [KeepsBytes, events, List.mem_cons, List.not_mem_nil, reduceCtorEq, Event.storage.injEq, false_or,
      or_false]
    rintro change (rfl | rfl | rfl | rfl) log bytes h
    all_goals exact FaultyLog.holds_setFault h (by decide) _
  have hend : ((start c).run events).connection.isOpen = true := by decide +kernel
  obtain ⟨-, frames, hframes, hlog, -⟩ := acknowledged_survive_cut FaultyLog.mendable hholds hopen hkeep hend
  exact ⟨hholds, hopen, hkeep, hend, by decide +kernel, frames, hframes, hlog⟩

end Session

end OrderedStore
