import OrderedStore.Proofs.Connection

/-!
# Sessions

A session is a connection with the readers that its caller holds. Requests are answered one after the
other, and in between the storage may change by itself.

* `Session.step`: the answer to a request; `Session.run`, `Session.trace`: what events lead to, and what
  is answered;
* `Session.effects`: the operations that have been acknowledged;
* `Session.step_of_reads`, `Session.isOpen_step`, `Session.timeline_step`: what requests change and leave alone;
* `SequencesSuffice`, `Session.WritesBelow`: runs in which sequences do not wrap around;
  `Session.writesBelow_of_countP`: how long sequences last.
-/

namespace OrderedStore

/-- A reader that a caller holds. -/
inductive Reader where
  | cursor (c : Timeline.Cursor)
  | view (v : Timeline.View)
  deriving DecidableEq

/-- The sequence that a reader is pinned at. -/
def Reader.seq : Reader → Sequence
  | cursor c => c.seq
  | view v => v.seq

/-- The sequences at which readers are pinned, place by place. -/
def Reader.seqs (readers : List (Option Reader)) : List (Option Sequence) := readers.map (Option.map seq)

/-- A connection and its readers, numbered in the order of their opening. A reader that has been dropped
leaves its place empty. -/
structure Session (σ : Type) where
  connection : Connection σ
  readers : List (Option Reader)

/-- What a caller asks. Cursors and views are named by their numbers. -/
inductive Request where
  | write (w : Write)
  /-- The value of a key at the last commit. -/
  | get (key : Bytes)
  | openCursor
  | openView
  /-- A cursor on what view `n` sees. -/
  | cursorOf (n : Nat)
  /-- Moves cursor `n`. -/
  | move (n : Nat) (m : Move)
  /-- Looks a key up through view `n`. -/
  | getAt (n : Nat) (key : Bytes)
  /-- Drops reader `n`. -/
  | dropReader (n : Nat)
  /-- Closes the connection. -/
  | close
  /-- Drops the connection. -/
  | drop
  deriving DecidableEq

/-- The request neither writes nor closes. -/
def Request.reads : Request → Bool
  | write _ | close | drop => false
  | _ => true

/-- The request is a write. -/
def Request.isWrite : Request → Bool
  | write _ => true
  | _ => false

/-- What a caller is answered. -/
inductive Answer where
  /-- How a write or a closing ended. -/
  | done (result : Except EngineError Unit)
  | value (result : Except EngineError (Option Bytes))
  /-- The number of a new reader. -/
  | opened (result : Except EngineError Nat)
  /-- The entry on which a cursor stands after its move, if any. -/
  | entry (current : Option Entry)
  | dropped
  /-- There is no such reader. -/
  | noReader

/-- What happens in a session. -/
inductive Event (σ : Type) where
  | request (q : Request)
  /-- The storage changes by itself, for instance in what will fail next. -/
  | storage (change : σ → σ)

/-- The event asks for a write. -/
def Event.isWrite {σ : Type} : Event σ → Bool
  | request q => q.isWrite
  | storage _ => false

/-- How a write or a closing ended. -/
def Answer.outcome : Answer → Except EngineError Unit
  | done result => result
  | _ => .ok ()

/-! ## Sequences that last -/

/-- There is a sequence left for each write that events ask for in the states that they lead to, so sequences do not
wrap around. -/
def SequencesSuffice {α ε : Type} (next : α → ε → α) (isWrite : ε → Bool) (sequence : α → Sequence) (a : α) :
    List ε → Prop
  | [] => True
  | event :: events =>
    (isWrite event = true → (sequence a).toNat < UInt64.size - 1) ∧
      SequencesSuffice next isWrite sequence (next a event) events

section SequencesSuffice

variable {α ε : Type} {next : α → ε → α} {isWrite : ε → Bool} {sequence : α → Sequence}

instance decidableSequencesSuffice (a : α) :
    (events : List ε) → Decidable (SequencesSuffice next isWrite sequence a events)
  | [] => .isTrue trivial
  | event :: events =>
    have := decidableSequencesSuffice (next a event) events
    inferInstanceAs (Decidable (_ ∧ _))

theorem sequencesSuffice_append {a : α} {before after : List ε} :
    SequencesSuffice next isWrite sequence a (before ++ after) ↔
      SequencesSuffice next isWrite sequence a before ∧
        SequencesSuffice next isWrite sequence (before.foldl next a) after := by
  induction before generalizing a with
  | nil => exact iff_of_eq (true_and _).symm
  | cons event before ih => exact (and_congr_right fun _ => ih).trans and_assoc.symm

theorem countP_cons_toNat (p : α → Bool) (a : α) (as : List α) : (a :: as).countP p = (p a).toNat + as.countP p := by
  rw [List.countP_cons, Nat.add_comm]
  cases p a <;> rfl

end SequencesSuffice

namespace Session

variable {σ : Type} [LogStorage σ]

/-- A session that has just been opened. -/
def start (c : Connection σ) : Session σ := ⟨c, []⟩

/-- Answers one request. -/
def step (s : Session σ) : Request → Answer × Session σ
  | .write w =>
    let (result, c) := s.connection.write w
    (.done result, { s with connection := c })
  | .get key => (.value (s.connection.get key), s)
  | .openCursor =>
    match s.connection.openCursor with
    | (.error e, c) => (.opened (.error e), { s with connection := c })
    | (.ok cursor, c) => (.opened (.ok s.readers.length), ⟨c, s.readers ++ [some (.cursor cursor)]⟩)
  | .openView =>
    match s.connection.openView with
    | (.error e, c) => (.opened (.error e), { s with connection := c })
    | (.ok view, c) => (.opened (.ok s.readers.length), ⟨c, s.readers ++ [some (.view view)]⟩)
  | .cursorOf n =>
    match s.readers[n]? with
    | some (some (.view view)) =>
      let (cursor, c) := s.connection.cursorOf view
      (.opened (.ok s.readers.length), ⟨c, s.readers ++ [some (.cursor cursor)]⟩)
    | _ => (.noReader, s)
  | .move n m =>
    match s.readers[n]? with
    | some (some (.cursor cursor)) =>
      let cursor := cursor.move m s.connection.timeline
      (.entry cursor.current, { s with readers := s.readers.set n (some (.cursor cursor)) })
    | _ => (.noReader, s)
  | .getAt n key =>
    match s.readers[n]? with
    | some (some (.view view)) => (.value (.ok (view.get? key s.connection.timeline)), s)
    | _ => (.noReader, s)
  | .dropReader n =>
    match s.readers[n]? with
    | some (some reader) => (.dropped, ⟨s.connection.dropReader reader.seq, s.readers.set n none⟩)
    | _ => (.noReader, s)
  | .close =>
    let (result, c) := s.connection.close
    (.done result, { s with connection := c })
  | .drop => (.dropped, { s with connection := s.connection.drop })

/-- The session after an event. -/
def next (s : Session σ) : Event σ → Session σ
  | .request q => (s.step q).2
  | .storage change => { s with connection := s.connection.mapLog change }

/-- The session after events. -/
def run (s : Session σ) (events : List (Event σ)) : Session σ := events.foldl next s

/-- The requests among the events with their answers. -/
def trace (s : Session σ) : List (Event σ) → List (Request × Answer)
  | [] => []
  | .request q :: events => (q, (s.step q).1) :: (s.next (.request q)).trace events
  | .storage change :: events => (s.next (.storage change)).trace events

/-- No write is asked for at the last sequence there is. -/
abbrev WritesBelow (s : Session σ) (events : List (Event σ)) : Prop :=
  SequencesSuffice next Event.isWrite (·.connection.sequence) s events

/-- The storage changes by itself only in what will fail, not in its bytes. -/
def KeepsBytes (holds : σ → Bytes → Prop) (events : List (Event σ)) : Prop :=
  ∀ change, Event.storage change ∈ events → ∀ log bytes, holds log bytes → holds (change log) bytes

/-- The operations that an answered request has applied. -/
def effect : Request × Answer → List Operation
  | (.write w, .done (.ok ())) => w.operations
  | _ => []

/-- The operations of the writes that a trace acknowledges, in order. -/
def effects (trace : List (Request × Answer)) : List Operation := trace.flatMap effect

/-! ## What requests leave alone -/

/-- A request that only reads has nothing to do with the log and with what is current. -/
theorem step_of_reads (s : Session σ) {q : Request} (hq : q.reads = true) :
    (s.step q).2.connection.log = s.connection.log ∧ (s.step q).2.connection.isOpen = s.connection.isOpen ∧
      (s.step q).2.connection.sequence = s.connection.sequence ∧
      (s.step q).2.connection.timeline.contents = s.connection.timeline.contents := by
  cases q with
  | write | close | drop => cases hq
  | get => exact ⟨rfl, rfl, rfl, rfl⟩
  | openCursor =>
    rw [step, Connection.openCursor]
    by_cases hopen : s.connection.isOpen = true
    · rw [if_pos hopen]
      exact ⟨rfl, rfl, rfl, rfl⟩
    · rw [if_neg hopen]
      exact ⟨rfl, rfl, rfl, rfl⟩
  | openView =>
    rw [step, Connection.openView]
    by_cases hopen : s.connection.isOpen = true
    · rw [if_pos hopen]
      exact ⟨rfl, rfl, rfl, rfl⟩
    · rw [if_neg hopen]
      exact ⟨rfl, rfl, rfl, rfl⟩
  | cursorOf | move | getAt =>
    simp only [step]
    split <;> exact ⟨rfl, rfl, rfl, rfl⟩
  | dropReader =>
    simp only [step]
    split
    · exact ⟨rfl, rfl, Timeline.sequence_unpin .., Timeline.contents_unpin ..⟩
    · exact ⟨rfl, rfl, rfl, rfl⟩

/-- Nothing but a closing closes a connection. -/
theorem isOpen_step (s : Session σ) {q : Request} (hclose : q ≠ .close) (hdrop : q ≠ .drop) :
    (s.step q).2.connection.isOpen = s.connection.isOpen := by
  by_cases hq : q.reads = true
  · exact (s.step_of_reads hq).2.1
  cases q with
  | write w => exact (Connection.timeline_write (Prod.eta (s.connection.write w)).symm).1
  | close => exact absurd rfl hclose
  | drop => exact absurd rfl hdrop
  | _ => exact absurd rfl hq

theorem isOpen_run {s : Session σ} {events : List (Event σ)} (hclose : .request .close ∉ events)
    (hdrop : .request .drop ∉ events) : (s.run events).connection.isOpen = s.connection.isOpen := by
  induction events generalizing s with
  | nil => rfl
  | cons event events ih =>
    have hrest := ih (s := s.next event) (List.not_mem_of_not_mem_cons hclose) (List.not_mem_of_not_mem_cons hdrop)
    cases event with
    | request q =>
      have hne : q ≠ .close := fun heq => hclose (heq ▸ List.mem_cons_self)
      have hne' : q ≠ .drop := fun heq => hdrop (heq ▸ List.mem_cons_self)
      exact hrest.trans (s.isOpen_step hne hne')
    | storage change => exact hrest

/-- A connection that is closed is not opened again. -/
theorem isOpen_of_step {s : Session σ} {q : Request} (h : (s.step q).2.connection.isOpen = true) :
    s.connection.isOpen = true := by
  have hclosed : s.connection.close.2.isOpen = false := s.connection.isOpen_close
  by_cases hclose : q = .close
  · subst hclose
    exact absurd (hclosed.symm.trans h) Bool.false_ne_true
  by_cases hdrop : q = .drop
  · subst hdrop
    exact absurd (hclosed.symm.trans h) Bool.false_ne_true
  exact (s.isOpen_step hclose hdrop).symm.trans h

theorem isOpen_of_run {s : Session σ} {events : List (Event σ)} (h : (s.run events).connection.isOpen = true) :
    s.connection.isOpen = true := by
  induction events generalizing s with
  | nil => exact h
  | cons event events ih =>
    cases event with
    | request q => exact isOpen_of_step (ih h)
    | storage change => exact ih (s := s.next (.storage change)) h

/-- A request leaves the timeline as it is, publishes the record of a write, or pins or releases a sequence. -/
theorem timeline_step (s : Session σ) (q : Request) :
    (s.step q).2.connection.timeline = s.connection.timeline ∨
    (∃ w r, q = .write w ∧ w.record? (s.connection.sequence + 1) = some r ∧
      (s.step q).2.connection.timeline = s.connection.timeline.commit r) ∨
    (∃ seq, (s.step q).2.connection.timeline = s.connection.timeline.pin seq) ∨
    ∃ seq, (s.step q).2.connection.timeline = s.connection.timeline.unpin seq := by
  cases q with
  | write w =>
    obtain ⟨result, c, hw⟩ : ∃ result c, s.connection.write w = (result, c) := ⟨_, _, rfl⟩
    simp only [step, hw]
    obtain ⟨-, ⟨e, -, ht⟩ | ⟨-, -, ht⟩ | ⟨-, r, hr, ht⟩⟩ := Connection.timeline_write hw
    · exact .inl ht
    · exact .inl ht
    · exact .inr (.inl ⟨w, r, rfl, hr, ht⟩)
  | get => exact .inl rfl
  | move | getAt =>
    simp only [step]
    split <;> exact .inl rfl
  | openCursor =>
    rw [step, Connection.openCursor]
    by_cases hopen : s.connection.isOpen = true
    · rw [if_pos hopen]
      exact .inr (.inr (.inl ⟨_, rfl⟩))
    · rw [if_neg hopen]
      exact .inl rfl
  | openView =>
    rw [step, Connection.openView]
    by_cases hopen : s.connection.isOpen = true
    · rw [if_pos hopen]
      exact .inr (.inr (.inl ⟨_, rfl⟩))
    · rw [if_neg hopen]
      exact .inl rfl
  | cursorOf =>
    simp only [step]
    split
    · exact .inr (.inr (.inl ⟨_, rfl⟩))
    · exact .inl rfl
  | dropReader =>
    simp only [step]
    split
    · exact .inr (.inr (.inr ⟨_, rfl⟩))
    · exact .inl rfl
  | close | drop => exact .inl s.connection.timeline_close

/-! ## How far sequences go -/

/-- Only a write may take a sequence. -/
theorem sequence_step_le (s : Session σ) (q : Request) :
    (s.step q).2.connection.sequence.toNat ≤ s.connection.sequence.toNat + q.isWrite.toNat := by
  cases q with
  | write w =>
    obtain ⟨result, c, hw⟩ : ∃ result c, s.connection.write w = (result, c) := ⟨_, _, rfl⟩
    simp only [step, hw, Connection.sequence]
    obtain ⟨-, ⟨e, -, ht⟩ | ⟨-, -, ht⟩ | ⟨-, r, hr, ht⟩⟩ := Connection.timeline_write hw
    · exact ht ▸ Nat.le_succ _
    · exact ht ▸ Nat.le_succ _
    · have hseq : c.timeline.sequence = s.connection.sequence + 1 :=
        (congrArg Timeline.sequence ht).trans (Write.record?_eq_some hr).1
      rw [hseq, UInt64.toNat_add]
      exact Nat.mod_le ..
  | close | drop => exact (congrArg (fun t => t.sequence.toNat) s.connection.timeline_close).le
  | _ => exact (congrArg UInt64.toNat (s.step_of_reads rfl).2.2.1).le

theorem sequence_next_le (s : Session σ) (event : Event σ) :
    (s.next event).connection.sequence.toNat ≤ s.connection.sequence.toNat + event.isWrite.toNat := by
  cases event with
  | request q => exact s.sequence_step_le q
  | storage change => exact Nat.le_refl _

theorem sequence_run_le (s : Session σ) (events : List (Event σ)) :
    (s.run events).connection.sequence.toNat ≤ s.connection.sequence.toNat + events.countP Event.isWrite := by
  induction events generalizing s with
  | nil => exact Nat.le_refl _
  | cons event events ih =>
    have hstep := s.sequence_next_le event
    have hrest := ih (s.next event)
    rw [countP_cons_toNat]
    exact Nat.le_trans hrest (by omega)

/-- Sequences do not wrap around while there are fewer writes than sequences left. -/
theorem writesBelow_of_countP {s : Session σ} {events : List (Event σ)}
    (h : s.connection.sequence.toNat + events.countP Event.isWrite < UInt64.size) : s.WritesBelow events := by
  induction events generalizing s with
  | nil => trivial
  | cons event events ih =>
    rw [countP_cons_toNat] at h
    have hstep := s.sequence_next_le event
    refine ⟨fun hwrite => ?_, ih (by omega)⟩
    rw [hwrite, Bool.toNat_true] at h
    show s.connection.sequence.toNat < UInt64.size - 1
    omega

theorem lt_succ_sequence {seq : Sequence} (h : seq.toNat < UInt64.size - 1) : seq < seq + 1 := by
  refine UInt64.lt_add_one fun heq => ?_
  rw [heq] at h
  exact absurd h (by decide)

end Session

end OrderedStore
