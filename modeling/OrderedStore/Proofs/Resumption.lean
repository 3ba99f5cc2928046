import OrderedStore.Proofs.Closing

/-!
# The sequence across a reopening

The sequence of the last commit is in the log only with the entries that a closing writes, each at that sequence. A
connection that is opened behind the closing goes on from there if there is an entry, and from 0 if there is none.

* `Session.exists_closing`: a run that ends closed has closed its connection at one of its requests;
* `Session.current_run_of_closed`: behind it, what is current stays as it is;
* `Connection.write_eq_ok`: the next commit, on a storage that does not fail;
* `Session.reopening_resumes_sequence`: where a connection goes on that is opened behind any run;
* `Session.sequence_not_resumed`: without entries it does not go on where the run has ended.
-/

namespace OrderedStore

open LogStorage

namespace Connection

variable {σ : Type} [LogStorage σ] {c : Connection σ}

/-- On a storage that does not fail, every write whose record has a frame is committed. -/
theorem write_eq_ok {holds : σ → Bytes → Prop} (h : Faithful holds) (hisOpen : c.isOpen = true) {data : Bytes}
    (hs : holds c.log data) {w : Write} {r : Record} (hr : w.record? (c.sequence + 1) = some r) {frame : Bytes}
    (hframe : Frame.encode r = .ok frame) :
    ∃ c', c.write w = (.ok (), c') ∧ c'.timeline = c.timeline.commit r ∧ holds c'.log (data ++ frame) := by
  obtain ⟨make, hmake, hwrite⟩ | ⟨hnone, -⟩ := c.write_eq w
  · cases (hmake _).symm.trans hr
    obtain ⟨size, hsize⟩ := h.sizes hs
    obtain ⟨offset, log, happend⟩ := h.appends frame hs
    refine ⟨{ c with log, timeline := c.timeline.commit (make (c.sequence + 1)) }, ?_, rfl, h.append_ok hs happend⟩
    simp only [hwrite, commit, hisOpen, hsize, appendRecord, hframe, happend, Bool.not_true, Bool.false_eq_true,
      if_false]
  · cases (hnone _).symm.trans hr

end Connection

namespace Session

variable {σ : Type} [LogStorage σ] {s : Session σ} {holds : σ → Bytes → Prop}

/-- A run that ends closed has closed its connection at one of its requests. By induction on the events: either the
first one closes the connection, or it is closed by the rest. -/
theorem exists_closing (hisOpen : s.connection.isOpen = true) {events : List (Event σ)}
    (hclosed : (s.run events).connection.isOpen = false) :
    ∃ before q later, events = before ++ .request q :: later ∧ (q = .close ∨ q = .drop) ∧
      (s.run before).connection.isOpen = true := by
  induction events generalizing s with
  | nil => exact absurd (hclosed.symm.trans hisOpen) Bool.false_ne_true
  | cons event events ih =>
    by_cases hnext : (s.next event).connection.isOpen = true
    · obtain ⟨before, q, later, rfl, hq, hbefore⟩ := ih hnext hclosed
      exact ⟨event :: before, q, later, rfl, hq, hbefore⟩
    cases event with
    | storage change => exact absurd hisOpen hnext
    | request q =>
      refine ⟨[], q, events, rfl, ?_, hisOpen⟩
      by_contra hother
      obtain ⟨hclose, hdrop⟩ := not_or.mp hother
      exact hnext ((s.isOpen_step hclose hdrop).trans hisOpen)

/-- Behind a closing, what is current stays as it is. -/
theorem current_run_of_closed (hclosed : s.connection.isOpen = false) (events : List (Event σ)) :
    (s.run events).connection.sequence = s.connection.sequence ∧
      (s.run events).connection.timeline.contents = s.connection.timeline.contents := by
  induction events generalizing s with
  | nil => exact ⟨rfl, rfl⟩
  | cons event events ih =>
    cases event with
    | storage change => exact ih (s := s.next (.storage change)) hclosed
    | request q =>
      obtain ⟨-, hisOpen, hseq, hcontents⟩ := step_of_closed hclosed q
      obtain ⟨hseq', hcontents'⟩ := ih (s := (s.step q).2) (hisOpen.trans hclosed)
      exact ⟨hseq'.trans hseq, hcontents'.trans hcontents⟩

/-- Behind a run that ends closed, the log holds the compacted records of a connection that stands where the run has
ended. -/
theorem exists_compacted_run (h : Faithful holds) {log : σ} {data : Bytes} (hs : holds log data)
    {path : Option String} {options : EngineOptions} {c : Connection σ}
    (hopen : Connection.openOn path options log = .ok c) {events : List (Event σ)} (hkeep : KeepsBytes holds events)
    (hclosed : ((start c).run events).connection.isOpen = false) :
    ∃ (last : Connection σ) (bytes : Bytes), encodeLog last.compacted = .ok bytes ∧
      holds ((start c).run events).connection.log bytes ∧
      last.sequence = ((start c).run events).connection.sequence ∧
      last.timeline.contents = ((start c).run events).connection.timeline.contents := by
  obtain ⟨-, -, hisOpen⟩ := Connection.holds_openOn h.toLawful hs hopen
  obtain ⟨before, q, later, rfl, hq, hbefore⟩ := exists_closing (s := start c) hisOpen hclosed
  have hkeepBefore : KeepsBytes holds before := fun change hchange => hkeep change (List.mem_append_left _ hchange)
  have hkeepLater : KeepsBytes holds later := fun change hchange =>
    hkeep change (List.mem_append_right _ (List.mem_cons_of_mem _ hchange))
  obtain ⟨last, hlast⟩ : ∃ last, (start c).run before = last := ⟨_, rfl⟩
  have hreached : last.Reached holds :=
    ⟨hlast ▸ hbefore, path, options, log, data, c, before, hs, hopen, hkeepBefore, hlast⟩
  obtain ⟨bytes, hbytes, -, hlog⟩ := hreached.close h
  -- a drop is a closing whose result nobody asks for
  have hstep : (last.step q).2.connection = last.connection.close.2 := by
    rcases hq with rfl | rfl
    · rfl
    · rfl
  have hstepClosed : (last.step q).2.connection.isOpen = false := hstep ▸ last.connection.isOpen_close
  have hrun : (start c).run (before ++ .request q :: later) = (last.step q).2.run later := by
    rw [run_append, hlast]
    rfl
  obtain ⟨-, hlog'⟩ := closed_run hstepClosed (hstep ▸ hlog) hkeepLater
  obtain ⟨hseq, hcontents⟩ := current_run_of_closed hstepClosed later
  have htimeline := last.connection.timeline_close
  rw [hrun]
  refine ⟨last.connection, bytes, hbytes, hlog', ?_, ?_⟩
  · rw [hseq, hstep, Connection.sequence, Connection.sequence, htimeline]
  · rw [hcontents, hstep, htimeline]

/-- On a log that does not fail, whatever is done until the connection has been closed or dropped, and behind that:
whoever opens a copy of the log finds what was current at the end. The sequence is the one that the run has ended at
if there is an entry, and 0 if there is none.

As long as nothing is committed there, the next write that can be logged is, at the sequence plus one. -/
theorem reopening_resumes_sequence (h : Faithful holds) {log : σ} {data : Bytes} (hs : holds log data)
    {path : Option String} {options : EngineOptions} {c : Connection σ}
    (hopen : Connection.openOn path options log = .ok c) {events : List (Event σ)} (hkeep : KeepsBytes holds events)
    (hclosed : ((start c).run events).connection.isOpen = false) :
    let t := ((start c).run events).connection
    ∃ bytes, holds t.log bytes ∧
      ∀ {τ : Type} [LogStorage τ] {holds' : τ → Bytes → Prop}, Faithful holds' → ∀ copy : τ, holds' copy bytes →
        ∀ (path : Option String) (options : EngineOptions), options.validate = .ok () →
        ∃ d, Connection.openOn path options copy = .ok d ∧ d.timeline.contents = t.timeline.contents ∧
          d.sequence = (if t.timeline.contents.entries = [] then 0 else t.sequence) ∧
          ∀ visit, KeepsBytes holds' visit → effects ((start d).trace visit) = [] →
            ((start d).run visit).connection.isOpen = true →
            ∀ w r frame, w.record? (d.sequence + 1) = some r → Frame.encode r = .ok frame →
              ∃ d' front, ((start d).run visit).connection.write w = (.ok (), d') ∧ r.seq = d.sequence + 1 ∧
                d'.sequence = d.sequence + 1 ∧ holds' ((start d).run visit).connection.log front ∧
                holds' d'.log (front ++ frame) := by
  intro t
  obtain ⟨last, bytes, hbytes, hlog, hseq, hcontents⟩ := exists_compacted_run h hs hopen hkeep hclosed
  refine ⟨bytes, hlog, fun {τ} _ {holds'} h' copy hcopy path options hvalid => ?_⟩
  obtain ⟨d, hd, htimeline⟩ : ∃ d, Connection.openOn path options copy = .ok d ∧
      d.timeline = .ofRecords last.compacted :=
    ⟨_, Connection.openOn_encodeLog hbytes (h'.readAll_eq hcopy) hvalid, rfl⟩
  refine ⟨d, hd, ?_, ?_, fun visit hvisit hnone hisOpen w r frame hr hframe => ?_⟩
  · rw [htimeline, last.contents_compacted, hcontents]
  · rw [Connection.sequence, htimeline, last.sequence_compacted, hseq, hcontents]
  · have hreached : ((start d).run visit).Reached holds' :=
      ⟨hisOpen, path, options, copy, bytes, d, visit, hcopy, hd, hvisit, rfl⟩
    obtain ⟨front, hfront⟩ := hreached.exists_holds h'.toLawful
    obtain ⟨hsame, -⟩ := run_of_effects_eq_nil hnone
    have hrecord : w.record? (((start d).run visit).connection.sequence + 1) = some r := by
      rw [hsame]
      exact hr
    obtain ⟨d', hwrite, hcommit, hlog'⟩ := Connection.write_eq_ok h' hisOpen hfront hrecord hframe
    have hrseq : r.seq = d.sequence + 1 := (Write.record?_eq_some hr).1
    exact ⟨d', front, hwrite, hrseq, (congrArg Timeline.sequence hcommit).trans hrseq, hfront, hlog'⟩

/-- One key is bound and one erased under a view, and the connection is dropped before the view: a connection that
is opened behind it stands at the third commit, and a put in it is the fourth one. -/
theorem reopening_resumes_sequence_kept :
    let c : Connection MemoryLog := ⟨none, {}, .ofRecords [], .empty, true⟩
    let events : List (Event MemoryLog) := [.write (.put [97] [1]), .openView, .write (.put [98] [2]),
      .write (.delete [97]), .drop, .getAt 0 [97], .dropReader 0].map .request
    let t := ((start c).run events).connection
    Faithful (fun (log : MemoryLog) bytes => log.data = bytes) ∧ Connection.openOn none {} MemoryLog.empty = .ok c ∧
      KeepsBytes (fun (log : MemoryLog) bytes => log.data = bytes) events ∧ t.isOpen = false ∧ t.sequence = 3 ∧
      ∃ d d', Connection.openOn none {} t.log = .ok d ∧ d.sequence = 3 ∧ d.put [97] [5] = (.ok (), d') ∧
        d'.sequence = 4 := by
  intro c events t
  have hopen : Connection.openOn none {} MemoryLog.empty = .ok c := Connection.openOn_encodeLog rfl rfl (by decide)
  have hkeep : KeepsBytes (fun (log : MemoryLog) bytes => log.data = bytes) events := by
    intro change hchange
    obtain ⟨q, -, hq⟩ := List.mem_map.mp hchange
    cases hq
  have hclosed : t.isOpen = false := by decide +kernel
  have hsequence : t.sequence = 3 := by decide +kernel
  have hentries : t.timeline.contents.entries ≠ [] := by decide +kernel
  have hloggable : Loggable [97] [5] := by decide
  obtain ⟨frame, hframe⟩ : ∃ frame, Frame.encode (.put 4 [97] [5]) = .ok frame := hloggable.exists_frame 4
  obtain ⟨bytes, hlog, hreopen⟩ := reopening_resumes_sequence MemoryLog.faithful rfl hopen hkeep hclosed
  obtain ⟨d, hd, -, hseq, hnext⟩ := hreopen MemoryLog.faithful t.log hlog none {} (by decide)
  rw [if_neg hentries] at hseq
  have hthree : d.sequence = 3 := hseq.trans hsequence
  have hisOpen : d.isOpen = true := by
    obtain ⟨-, -, -, -, -, rfl⟩ := Connection.openOn_eq_ok hd
    rfl
  obtain ⟨d', -, hput, -, hseq', -⟩ := hnext [] nofun rfl hisOpen (.put [97] [5]) _ _ (by rw [hthree]; rfl) hframe
  exact ⟨MemoryLog.faithful, hopen, hkeep, hclosed, hsequence, d, d', hd, hthree, hput, by rw [hseq', hthree]; rfl⟩

/-- A key is bound and erased, and the connection is closed at sequence 2: behind it the log is empty, and the next
connection starts at 0 and stamps its first commit with 1. -/
theorem sequence_not_resumed :
    let c : Connection MemoryLog := ⟨none, {}, .ofRecords [], .empty, true⟩
    let events : List (Event MemoryLog) := [.write (.put [97] [1]), .write (.delete [97]), .close].map .request
    let t := ((start c).run events).connection
    Connection.openOn none {} MemoryLog.empty = .ok c ∧
      effects ((start c).trace events) = [.put [97] [1], .delete [97]] ∧
      t.isOpen = false ∧ t.sequence = 2 ∧ t.log.data = [] ∧
      ∃ d, Connection.openOn none {} t.log = .ok d ∧ d.sequence = 0 ∧ d.sequence ≠ t.sequence ∧
        (d.put [97] [5]).2.sequence = 1 := by
  intro c events t
  have hopen : Connection.openOn none {} MemoryLog.empty = .ok c := Connection.openOn_encodeLog rfl rfl (by decide)
  have hlog : t.log.data = [] := by decide +kernel
  have hreopen : Connection.openOn none {} t.log = .ok ⟨none, {}, .ofRecords [], t.log, true⟩ :=
    Connection.openOn_encodeLog rfl (congrArg Except.ok hlog) (by decide)
  exact ⟨hopen, by decide +kernel, by decide +kernel, by decide +kernel, hlog, _, hreopen, rfl, by decide +kernel,
    by decide +kernel⟩

end Session

end OrderedStore
