import OrderedStore.Proofs.Pins
import OrderedStore.Proofs.Recovery
import OrderedStore.Proofs.Session

/-!
# Readers are isolated

A session is compared with an ideal session: one map of values, of which every reader owns a copy that is
made when the reader is opened.

* `Ideal.step`, `Ideal.follow`: what an ideal session answers, when it is told how each write ended;
* `Session.ideal`: the ideal session that a session stands for; `Session.agrees_step`: one request;
* `Session.readers_isolated`: the answers are those of the ideal session, so no commit, no sweep and no
  reader that comes or goes is ever seen through another reader.

The invariant is `Session.Pinned`: the pins are those of the readers that are held, and none is above
the last commit.
-/

namespace OrderedStore

/-! ## Ideal sessions -/

/-- A reader with its own copy of a map of values. -/
inductive Copy where
  | cursor (map : Contents) (current : Option Entry)
  | view (map : Contents)

/-- The entry of a map that a move leads to from `current`. -/
def Copy.destination (map : Contents) (current : Option Entry) : Move → Option Entry
  | .first => map.first?
  | .last => map.last?
  | .seek target => map.seek target
  | .next => current.bind fun e => map.after e.1
  | .prev => current.bind fun e => map.before e.1

/-- A map of values with readers that own copies of it. -/
structure Ideal where
  contents : Contents
  isOpen : Bool
  readers : List (Option Copy)

namespace Ideal

/-- An open session on a map, without readers. -/
def start (contents : Contents) : Ideal := ⟨contents, true, []⟩

/-- Opens a reader. -/
def openReader (i : Ideal) (copy : Copy) : Answer × Ideal :=
  (.opened (.ok i.readers.length), { i with readers := i.readers ++ [some copy] })

/-- Answers one request. A write and a closing end as `outcome` says; a write that is acknowledged changes the
map, and nothing else does. -/
def step (i : Ideal) (outcome : Except EngineError Unit) : Request → Answer × Ideal
  | .write w =>
    match outcome with
    | .ok () => (.done outcome, { i with contents := i.contents.writeAll w.operations })
    | .error _ => (.done outcome, i)
  | .get key => (.value (if i.isOpen then .ok (i.contents.get? key) else .error .closed), i)
  | .openCursor =>
    if i.isOpen then i.openReader (.cursor i.contents none) else (.opened (.error .closed), i)
  | .openView =>
    if i.isOpen then i.openReader (.view i.contents) else (.opened (.error .closed), i)
  | .cursorOf n =>
    match i.readers[n]? with
    | some (some (.view map)) => i.openReader (.cursor map none)
    | _ => (.noReader, i)
  | .move n m =>
    match i.readers[n]? with
    | some (some (.cursor map current)) =>
      let current := Copy.destination map current m
      (.entry current, { i with readers := i.readers.set n (some (.cursor map current)) })
    | _ => (.noReader, i)
  | .getAt n key =>
    match i.readers[n]? with
    | some (some (.view map)) => (.value (.ok (map.get? key)), i)
    | _ => (.noReader, i)
  | .dropReader n =>
    match i.readers[n]? with
    | some (some _) => (.dropped, { i with readers := i.readers.set n none })
    | _ => (.noReader, i)
  | .close => (.done outcome, { i with isOpen := false })
  | .drop => (.dropped, { i with isOpen := false })

/-- What an ideal session answers to the requests of a trace, in which each write ends as in the trace. -/
def follow (i : Ideal) : List (Request × Answer) → List Answer
  | [] => []
  | (q, a) :: rest => (i.step a.outcome q).1 :: (i.step a.outcome q).2.follow rest

/-- The ideal session after a trace. -/
def after (i : Ideal) (trace : List (Request × Answer)) : Ideal :=
  trace.foldl (fun i (q, a) => (i.step a.outcome q).2) i

end Ideal

/-! ## The ideal session of a session -/

/-- The copy that a reader would own. -/
def Reader.copy (t : Timeline) : Reader → Copy
  | cursor c => .cursor (t.versions.view c.seq) c.current
  | view v => .view (t.versions.view v.seq)

theorem Reader.copy_congr {t t' : Timeline} {readers : List (Option Reader)}
    (h : ∀ s ∈ (seqs readers).reduceOption, t'.versions.view s = t.versions.view s) :
    readers.map (Option.map (Reader.copy t')) = readers.map (Option.map (Reader.copy t)) := by
  refine List.map_congr_left fun place hplace => ?_
  cases place with
  | none => rfl
  | some r =>
    have hview := h r.seq (List.reduceOption_mem_iff.mpr (List.mem_map.mpr ⟨some r, hplace, rfl⟩))
    cases r with
    | cursor c => exact congrArg (fun map => some (Copy.cursor map c.current)) hview
    | view v => exact congrArg (fun map => some (Copy.view map)) hview

/-- A move leads to the same entry in the timeline and in the reader's own copy. -/
theorem Copy.destination_view (t : Timeline) (c : Timeline.Cursor) (m : Move) :
    Copy.destination (t.versions.view c.seq) c.current m = c.destination t m := by
  cases m with
  | first => exact (VersionMap.first?_eq ..).symm
  | last => exact (VersionMap.last?_eq ..).symm
  | seek target => exact (VersionMap.seek_eq ..).symm
  | next => simp only [Copy.destination, Timeline.Cursor.destination, VersionMap.after_eq]
  | prev => simp only [Copy.destination, Timeline.Cursor.destination, VersionMap.before_eq]

namespace Session

variable {σ : Type} [LogStorage σ]

/-- The ideal session that a session stands for. -/
def ideal (s : Session σ) : Ideal :=
  ⟨s.connection.timeline.contents, s.connection.isOpen,
    s.readers.map (Option.map (Reader.copy s.connection.timeline))⟩

/-- The timeline keeps what the readers see. -/
def Pinned (s : Session σ) : Prop := s.connection.timeline.Guards (Reader.seqs s.readers)

/-- A request is answered as by the ideal session, and the session stays pinned. -/
def Agrees (s : Session σ) (q : Request) : Prop :=
  s.ideal.step (s.step q).1.outcome q = ((s.step q).1, (s.step q).2.ideal) ∧ (s.step q).2.Pinned

variable {s : Session σ}

omit [LogStorage σ] in
theorem ideal_of_timeline_eq {c : Connection σ} (ht : c.timeline = s.connection.timeline)
    (ho : c.isOpen = s.connection.isOpen) : ({ s with connection := c } : Session σ).ideal = s.ideal := by
  simp only [ideal, ht, ho]

/-- What is current changes by the operations that are acknowledged. -/
theorem contents_step (h : s.Pinned) {q : Request}
    (hseq : q.isWrite = true → s.connection.sequence.toNat < UInt64.size - 1) :
    (s.step q).2.connection.timeline.contents =
      s.connection.timeline.contents.writeAll (effect (q, (s.step q).1)) := by
  cases q with
  | write w =>
    obtain ⟨result, c, hw⟩ : ∃ result c, s.connection.write w = (result, c) := ⟨_, _, rfl⟩
    simp only [step, hw]
    obtain ⟨-, ⟨e, rfl, ht⟩ | ⟨rfl, hops, ht⟩ | ⟨rfl, r, hr, ht⟩⟩ := Connection.timeline_write hw
    · rw [ht]
      rfl
    · rw [ht, effect, hops]
      rfl
    · obtain ⟨hrseq, hrops⟩ := Write.record?_eq_some hr
      have hlt : s.connection.timeline.sequence < r.seq := hrseq ▸ lt_succ_sequence (hseq rfl)
      rw [ht, Timeline.contents_commit h.bounded (UInt64.le_of_lt hlt), hrops]
      rfl
  | close | drop => exact congrArg Timeline.contents s.connection.timeline_close
  | _ => exact (s.step_of_reads rfl).2.2.2

theorem agrees_write (h : s.Pinned) (hseq : s.connection.sequence.toNat < UInt64.size - 1) (w : Write) :
    s.Agrees (.write w) := by
  obtain ⟨result, c, hw⟩ : ∃ result c, s.connection.write w = (result, c) := ⟨_, _, rfl⟩
  have hstep : s.step (.write w) = (.done result, { s with connection := c }) := by
    simp only [step, hw]
  obtain ⟨hopen, ⟨e, rfl, ht⟩ | ⟨rfl, hops, ht⟩ | ⟨rfl, r, hr, ht⟩⟩ := Connection.timeline_write hw
  · simp only [Agrees, hstep, Answer.outcome, Ideal.step, ideal_of_timeline_eq ht hopen, true_and]
    simpa only [Pinned, ht] using h
  · simp only [Agrees, hstep, Answer.outcome, Ideal.step, ideal_of_timeline_eq ht hopen, hops]
    exact ⟨rfl, by simpa only [Pinned, ht] using h⟩
  · have hlt : s.connection.timeline.sequence < r.seq := (Write.record?_eq_some hr).1 ▸ lt_succ_sequence hseq
    have hcontents : c.timeline.contents = s.connection.timeline.contents.writeAll w.operations := by
      have hwrite := contents_step h (q := .write w) fun _ => hseq
      rw [hstep] at hwrite
      exact hwrite
    have hcopies : s.readers.map (Option.map (Reader.copy c.timeline)) =
        s.readers.map (Option.map (Reader.copy s.connection.timeline)) :=
      Reader.copy_congr fun q hq => by rw [ht, Timeline.view_commit_of_guards h hlt hq]
    simp only [Agrees, hstep, Answer.outcome, Ideal.step, ideal, hcontents, hcopies, hopen, true_and]
    simpa only [Pinned, ht] using h.commit hlt

omit [LogStorage σ] in
/-- A reader that is opened at a sequence owns a copy of the view there. -/
theorem ideal_openReader (h : s.Pinned) {c : Connection σ} {r : Reader}
    (ht : c.timeline = s.connection.timeline.pin r.seq) (ho : c.isOpen = s.connection.isOpen)
    (hle : r.seq ≤ s.connection.timeline.sequence) :
    s.ideal.openReader (r.copy s.connection.timeline) =
        (.opened (.ok s.readers.length), (⟨c, s.readers ++ [some r]⟩ : Session σ).ideal) ∧
      (⟨c, s.readers ++ [some r]⟩ : Session σ).Pinned := by
  have hcopy : Reader.copy (s.connection.timeline.pin r.seq) = Reader.copy s.connection.timeline := by
    funext r'
    cases r' <;> rfl
  constructor
  · simp only [Ideal.openReader, ideal, ht, ho, hcopy, List.length_map, List.map_append, List.map_cons,
      List.map_nil, Option.map_some]
    rfl
  · simp only [Pinned, Reader.seqs, ht, List.map_append, List.map_cons, List.map_nil, Option.map_some]
    exact h.pin hle

omit [LogStorage σ] in
@[simp]
theorem isOpen_ideal (s : Session σ) : s.ideal.isOpen = s.connection.isOpen := rfl

theorem agrees_openCursor (h : s.Pinned) : s.Agrees .openCursor := by
  cases hopen : s.connection.isOpen with
  | false =>
    simp only [Agrees, step, Connection.openCursor, hopen, Ideal.step, isOpen_ideal, Bool.false_eq_true, if_false,
      true_and]
    exact h
  | true =>
    simp only [Agrees, step, Connection.openCursor, hopen, Ideal.step, isOpen_ideal, if_true]
    exact ideal_openReader h (r := .cursor (.start s.connection.sequence)) rfl hopen.symm (UInt64.le_refl _)

theorem agrees_openView (h : s.Pinned) : s.Agrees .openView := by
  cases hopen : s.connection.isOpen with
  | false =>
    simp only [Agrees, step, Connection.openView, hopen, Ideal.step, isOpen_ideal, Bool.false_eq_true, if_false,
      true_and]
    exact h
  | true =>
    simp only [Agrees, step, Connection.openView, hopen, Ideal.step, isOpen_ideal, if_true]
    exact ideal_openReader h (r := .view ⟨s.connection.sequence⟩) rfl hopen.symm (UInt64.le_refl _)

omit [LogStorage σ] in
theorem ideal_getElem? (s : Session σ) (n : Nat) :
    s.ideal.readers[n]? = s.readers[n]?.map (Option.map (Reader.copy s.connection.timeline)) :=
  List.getElem?_map ..

omit [LogStorage σ] in
theorem seqs_getElem? {n : Nat} {r : Reader} (hn : s.readers[n]? = some (some r)) :
    (Reader.seqs s.readers)[n]? = some (some r.seq) := by
  rw [Reader.seqs, List.getElem?_map, hn]
  rfl

omit [LogStorage σ] in
/-- A reader that is held is not above the last commit. -/
theorem Pinned.seq_le (h : s.Pinned) {n : Nat} {r : Reader} (hn : s.readers[n]? = some (some r)) :
    r.seq ≤ s.connection.timeline.sequence :=
  h.le r.seq (List.reduceOption_mem_iff.mpr (List.mem_of_getElem? (seqs_getElem? hn)))

theorem agrees_cursorOf (h : s.Pinned) (n : Nat) : s.Agrees (.cursorOf n) := by
  have hcopies := s.ideal_getElem? n
  rcases hn : s.readers[n]? with _ | _ | cursor | view
  all_goals simp only [hn, Option.map_none, Option.map_some, Reader.copy] at hcopies
  all_goals simp only [Agrees, step, hn, Ideal.step, hcopies, true_and]
  · exact h
  · exact h
  · exact h
  · have hle : view.seq ≤ s.connection.timeline.sequence := h.seq_le hn
    exact ideal_openReader h (r := .cursor (.start view.seq)) rfl rfl hle

theorem agrees_move (h : s.Pinned) (n : Nat) (m : Move) : s.Agrees (.move n m) := by
  have hcopies := s.ideal_getElem? n
  rcases hn : s.readers[n]? with _ | _ | cursor | view
  all_goals simp only [hn, Option.map_none, Option.map_some, Reader.copy] at hcopies
  all_goals simp only [Agrees, step, hn, Ideal.step, hcopies, true_and]
  · exact h
  · exact h
  · constructor
    · simp only [Copy.destination_view, ideal, List.map_set]
      rfl
    · -- The cursor stays at its sequence.
      obtain ⟨hlt, hplace⟩ := List.getElem?_eq_some_iff.mp (seqs_getElem? hn)
      have hsame : Reader.seqs (s.readers.set n (some (.cursor (cursor.move m s.connection.timeline)))) =
          Reader.seqs s.readers := by
        rw [Reader.seqs, List.map_set]
        exact (congrArg _ hplace.symm).trans (List.set_getElem_self hlt)
      rw [Pinned, hsame]
      exact h
  · exact h

theorem agrees_getAt (h : s.Pinned) (n : Nat) (key : Bytes) : s.Agrees (.getAt n key) := by
  have hcopies := s.ideal_getElem? n
  rcases hn : s.readers[n]? with _ | _ | cursor | view
  all_goals simp only [hn, Option.map_none, Option.map_some, Reader.copy] at hcopies
  all_goals simp only [Agrees, step, hn, Ideal.step, hcopies, true_and]
  · exact h
  · exact h
  · exact h
  · rw [VersionMap.get?_view]
    exact ⟨rfl, h⟩

theorem agrees_dropReader (h : s.Pinned) (n : Nat) : s.Agrees (.dropReader n) := by
  have hcopies := s.ideal_getElem? n
  rcases hn : s.readers[n]? with _ | _ | r
  all_goals simp only [hn, Option.map_none, Option.map_some] at hcopies
  all_goals simp only [Agrees, step, hn, Ideal.step, hcopies, true_and]
  · exact h
  · exact h
  · have hplace := seqs_getElem? hn
    have hset : Reader.seqs (s.readers.set n none) = (Reader.seqs s.readers).set n none := List.map_set ..
    constructor
    · have hkept : (s.readers.set n none).map (Option.map (Reader.copy (s.connection.timeline.unpin r.seq))) =
          (s.readers.set n none).map (Option.map (Reader.copy s.connection.timeline)) :=
        Reader.copy_congr fun q hq => Timeline.view_unpin_of_guards h hplace (hset ▸ hq)
      simp only [ideal, Connection.dropReader, Timeline.contents_unpin, hkept, List.map_set, Option.map_none]
    · rw [Pinned, hset]
      exact h.unpin hplace

/-- A connection that is closed keeps its timeline, and with it what the readers see. -/
theorem agrees_closed (h : s.Pinned) :
    { s.ideal with isOpen := false } = ({ s with connection := s.connection.close.2 } : Session σ).ideal ∧
      ({ s with connection := s.connection.close.2 } : Session σ).Pinned := by
  simp only [ideal, Pinned, Connection.timeline_close, Connection.isOpen_close, true_and]
  exact h

theorem agrees_get (h : s.Pinned) (key : Bytes) : s.Agrees (.get key) := by
  have hget : s.ideal.contents.get? key = s.connection.timeline.versions.get? key s.connection.sequence :=
    VersionMap.get?_view ..
  simp only [Agrees, step, Ideal.step, isOpen_ideal, Connection.get, Connection.ifOpen, hget, true_and]
  exact h

theorem agrees_step (h : s.Pinned) {q : Request}
    (hseq : q.isWrite = true → s.connection.sequence.toNat < UInt64.size - 1) : s.Agrees q := by
  cases q with
  | write w => exact agrees_write h (hseq rfl) w
  | get key => exact agrees_get h key
  | openCursor => exact agrees_openCursor h
  | openView => exact agrees_openView h
  | cursorOf n => exact agrees_cursorOf h n
  | move n m => exact agrees_move h n m
  | getAt n key => exact agrees_getAt h n key
  | dropReader n => exact agrees_dropReader h n
  | close => exact ⟨Prod.ext rfl (agrees_closed h).1, (agrees_closed h).2⟩
  | drop => exact ⟨Prod.ext rfl (agrees_closed h).1, (agrees_closed h).2⟩

/-- A session on a connection that has just been opened has no readers, and there are no pins. -/
theorem pinned_start {path : Option String} {options : EngineOptions} {log : σ} {c : Connection σ}
    (h : Connection.openOn path options log = .ok c) : (start c).Pinned := by
  obtain ⟨replay, log', -, -, -, rfl⟩ := Connection.openOn_eq_ok h
  exact Timeline.guards_ofRecords replay.records

theorem ideal_start {path : Option String} {options : EngineOptions} {log : σ} {c : Connection σ}
    (h : Connection.openOn path options log = .ok c) : (start c).ideal = .start c.timeline.contents := by
  obtain ⟨replay, log', -, -, -, rfl⟩ := Connection.openOn_eq_ok h
  rfl

/-- A session and its ideal session answer alike and go on alike. By induction on the events; each step keeps
the session pinned, and the readers do not read the storage. -/
theorem agrees_run (events : List (Event σ)) (h : s.Pinned) (hseq : s.WritesBelow events) :
    s.ideal.follow (s.trace events) = (s.trace events).map Prod.snd ∧
      s.ideal.after (s.trace events) = (s.run events).ideal ∧ (s.run events).Pinned := by
  induction events generalizing s with
  | nil => exact ⟨rfl, rfl, h⟩
  | cons event events ih =>
    cases event with
    | request q =>
      obtain ⟨hstep, hpinned⟩ := agrees_step h hseq.1
      obtain ⟨hanswers, hafter, hrun⟩ := ih (s := (s.step q).2) hpinned hseq.2
      refine ⟨?_, ?_, hrun⟩
      · simp only [trace, Ideal.follow, hstep, next, hanswers, List.map_cons]
      · have hnext : s.ideal.after (s.trace (.request q :: events)) =
            (s.step q).2.ideal.after ((s.step q).2.trace events) :=
          congrArg (fun p => Ideal.after p.2 _) hstep
        exact hnext.trans hafter
    | storage change => exact ih (s := s.next (.storage change)) h hseq.2

/-- Each reader is isolated: a session that is opened on any log answers every request as if each reader owned a
copy of the map that was current when it, or the view it was made from, was opened. -/
theorem readers_isolated {path : Option String} {options : EngineOptions} {log : σ} {c : Connection σ}
    (hopen : Connection.openOn path options log = .ok c) (events : List (Event σ))
    (hseq : (start c).WritesBelow events) :
    (Ideal.start c.timeline.contents).follow ((start c).trace events) = ((start c).trace events).map Prod.snd ∧
      ((Ideal.start c.timeline.contents).after ((start c).trace events)).contents =
        ((start c).run events).connection.timeline.contents := by
  obtain ⟨hanswers, hafter, -⟩ := agrees_run events (pinned_start hopen) hseq
  rw [← ideal_start hopen, hafter]
  exact ⟨hanswers, rfl⟩

/-- On a log that holds a key: a cursor and a view see it after it is bound anew and erased, the view through a
cursor that is made of it later, and both after readers have gone and the connection is closed. -/
theorem readers_isolated_recovered :
    let log : MemoryLog := ⟨[66, 76, 79, 71, 1, 0, 1, 18, 0, 0, 0, 7, 0, 0, 0, 0, 0, 0, 0, 1, 0, 0, 0, 97, 1, 0, 0, 0,
      1, 225, 104, 124, 77]⟩
    let c : Connection MemoryLog := ⟨none, {}, .ofRecords [.put 7 [97] [1]], log, true⟩
    let events : List (Event MemoryLog) := [.openCursor, .openView, .write (.put [97] [2]), .write (.delete [97]),
      .cursorOf 1, .move 2 .first, .dropReader 0, .getAt 1 [97], .get [97], .close, .move 2 .next].map .request
    Connection.openOn none {} log = .ok c ∧ (start c).WritesBelow events ∧
      (Ideal.start c.timeline.contents).follow ((start c).trace events) =
        ((start c).trace events).map Prod.snd := by
  intro log c events
  have hopen : Connection.openOn none {} log = .ok c :=
    Connection.openOn_encodeLog (by decide +kernel) rfl (by decide)
  have hseq : (start c).WritesBelow events := by decide +kernel
  exact ⟨hopen, hseq, (readers_isolated hopen events hseq).1⟩

end Session

end OrderedStore
