import OrderedStore.Engine.Faulty
import OrderedStore.Proofs.Holdings
import OrderedStore.Storage.Memory

/-!
# What a store counts

The counters of a store against the replies that its calls have given, over any engine.

* `Tally`, `Counters.credit`: numbers without a bound, and the words that they are added to;
* `Client.toll`: what one answered call adds, but for errors; `Client.tally`: what a trace adds up to;
* `Client.noted`: the calls that are counted as errors;
* `Client.counters_step`: what each call does to the counters; `counters_run`, `errors_run`: what runs do;
* `Client.counters_eq_tally`: the counters of successes are those of the trace;
* `Client.errors_eq_noted`: the counter of errors, and how it differs from the number of failures that were reported.
-/

namespace OrderedStore

open Client

/-- Numbers for the counters of a store. -/
structure Tally where
  reads : Nat := 0
  writes : Nat := 0
  deletes : Nat := 0
  bytesRead : Nat := 0
  bytesWritten : Nat := 0
  cursorsOpened : Nat := 0
  batchesApplied : Nat := 0
  batchesFailed : Nat := 0
  snapshotsTaken : Nat := 0
  errors : Nat := 0
  deriving DecidableEq

def Tally.add (t t' : Tally) : Tally where
  reads := t.reads + t'.reads
  writes := t.writes + t'.writes
  deletes := t.deletes + t'.deletes
  bytesRead := t.bytesRead + t'.bytesRead
  bytesWritten := t.bytesWritten + t'.bytesWritten
  cursorsOpened := t.cursorsOpened + t'.cursorsOpened
  batchesApplied := t.batchesApplied + t'.batchesApplied
  batchesFailed := t.batchesFailed + t'.batchesFailed
  snapshotsTaken := t.snapshotsTaken + t'.snapshotsTaken
  errors := t.errors + t'.errors

namespace Counters

/-! ## Credits -/

/-- Adds a tally to the counters. -/
def credit (k : Counters) (t : Tally) : Counters where
  reads := k.reads + .ofNat t.reads
  writes := k.writes + .ofNat t.writes
  deletes := k.deletes + .ofNat t.deletes
  bytesRead := k.bytesRead + .ofNat t.bytesRead
  bytesWritten := k.bytesWritten + .ofNat t.bytesWritten
  cursorsOpened := k.cursorsOpened + .ofNat t.cursorsOpened
  batchesApplied := k.batchesApplied + .ofNat t.batchesApplied
  batchesFailed := k.batchesFailed + .ofNat t.batchesFailed
  snapshotsTaken := k.snapshotsTaken + .ofNat t.snapshotsTaken
  errors := k.errors + .ofNat t.errors

variable (k : Counters)

theorem credit_empty : k.credit {} = k := by
  simp [credit]

theorem credit_credit (t t' : Tally) : (k.credit t).credit t' = k.credit (t.add t') := by
  simp [credit, Tally.add, UInt64.ofNat_add, UInt64.add_assoc]

theorem countRead_eq (bytes : Nat) :
    k.countRead (.ofNat bytes) = k.credit { reads := 1, bytesRead := bytes } := by
  simp [credit, countRead]

theorem countWrite_eq (bytes : Nat) :
    k.countWrite (.ofNat bytes) = k.credit { writes := 1, bytesWritten := bytes } := by
  simp [credit, countWrite]

theorem countDelete_eq : k.countDelete = k.credit { deletes := 1 } := by
  simp [credit, countDelete]

theorem countCursor_eq : k.countCursor = k.credit { cursorsOpened := 1 } := by
  simp [credit, countCursor]

theorem countSnapshot_eq : k.countSnapshot = k.credit { snapshotsTaken := 1 } := by
  simp [credit, countSnapshot]

theorem countError_eq : k.countError = k.credit { errors := 1 } := by
  simp [credit, countError]

theorem countBatch_eq (bytes : Nat) :
    k.countBatch (.ofNat bytes) = k.credit { batchesApplied := 1, bytesWritten := bytes } := by
  simp [credit, countBatch]

theorem countFailedBatch_eq : k.countFailedBatch = k.credit { batchesFailed := 1, errors := 1 } := by
  simp [credit, countFailedBatch, countError]

end Counters

namespace Client

variable {ε κ ς δ : Type}

/-! ## What is to be counted -/

/-- What an answered call adds to the counters of successes, after the answered calls `before`. -/
def toll (before : List (Call × Client.Reply)) : Call × Client.Reply → Tally
  | (.get _, .ok (.value v)) => { reads := 1, bytesRead := v.elim 0 List.length }
  | (.put key value, .ok _) => { writes := 1, bytesWritten := key.length + value.length }
  | (.delete _, .ok _) => { deletes := 1 }
  | (.openCursor, .ok _) | (.child _ (.snapshot .cursor), .ok (.child _)) => { cursorsOpened := 1 }
  | (.openSnapshot, .ok _) => { snapshotsTaken := 1 }
  | (.child n (.batch .write), .ok (.applied true)) | (.child n (.batch .writeAndClose), .ok (.applied true)) =>
    { batchesApplied := 1, bytesWritten := Operation.totalSize (accepted n before) }
  | (.child _ (.batch .write), .error (.applyFailure _)) |
    (.child _ (.batch .writeAndClose), .error (.applyFailure _)) => { batchesFailed := 1 }
  | _ => {}

/-- What a trace adds to the counters of successes, after the answered calls `before`. -/
def tally (before : List (Call × Client.Reply)) : List (Call × Client.Reply) → Tally
  | [] => {}
  | answered :: trace => (toll before answered).add (tally (before ++ [answered]) trace)

/-- The reply is a failure of the engine. -/
def fails : Client.Reply → Bool
  | .error (.ioFailure _) | .error (.applyFailure _) => true
  | _ => false

/-- The reply is that the store is closed. -/
def saysClosed : Client.Reply → Bool
  | .error (.closed .store) => true
  | _ => false

/-- A call of a client, with its reply. -/
structure Moment (ε κ ς : Type) where
  client : Client ε κ ς
  call : Call
  reply : Client.Reply

/-- The calls among events, each with the client that makes it. -/
def moments [Engine ε κ ς] (act : δ → ε → ε) (c : Client ε κ ς) :
    List (Event δ) → List (Moment ε κ ς)
  | [] => []
  | .call q :: events => ⟨c, q, (c.step q).1⟩ :: moments act (c.next act (.call q)) events
  | .change d :: events => moments act (c.next act (.change d)) events

/-- The caller is told of a failure of the engine. -/
def reported (m : Moment ε κ ς) : Bool := fails m.reply

/-- The caller is told of a failure of the engine that is not counted: a reader could not be made, or a snapshot not be
read. -/
def missed (m : Moment ε κ ς) : Bool :=
  match m.call with
  | .openCursor | .openSnapshot | .child _ (.snapshot (.get _)) => reported m
  | _ => false

/-- An error is counted although the caller is told of no failure of the engine: the engine of an open store says that
it is closed, and so is the store for the caller; or closing a store fails that is dropped. -/
def hidden [Engine ε κ ς] (m : Moment ε κ ς) : Bool :=
  match m.call with
  | .get _ | .put _ _ | .delete _ => saysClosed m.reply && m.client.store.isOpen
  | .drop =>
    match m.client.store.close.1 with
    | .error _ => true
    | .ok () => false
  | _ => false

/-- The call is counted as an error. -/
def noted [Engine ε κ ς] (m : Moment ε κ ς) : Bool := (reported m && !missed m) || hidden m

end Client

namespace Store

variable {ε κ ς : Type} {s : Store ε κ ς}

/-! ## Failures of the caller -/

/-- A caller that breaks the contract is not told of a failure of the engine. -/
theorem not_fails_of_contract {e : StoreError} (h : e.isContractViolation = true) : fails (.error e) = false := by
  cases e with
  | closed | invalidCursorState | alreadyApplied => rfl
  | openFailure | alreadyExists | ioFailure | applyFailure => cases h

theorem not_fails_map {α : Type} {result : Except StoreError α} {f : α → Outcome}
    (h : ∀ e, result = .error e → e.isContractViolation = true) : fails (result.map f) = false := by
  cases result with
  | ok a => rfl
  | error e => exact not_fails_of_contract (h e rfl)

theorem not_fails_error {α β : Type} {result : Except StoreError α} {f : α → β}
    (h : ∀ e, result = .error e → e.isContractViolation = true) {e : StoreError} (he : result.map f = .error e) :
    fails (.error e) = false := by
  cases result with
  | ok a => cases he
  | error e' =>
    cases he
    exact not_fails_of_contract (h e rfl)

theorem Cursor.requirePositioned_error {c : Store.Cursor} {call : String} {e : StoreError}
    (h : c.requirePositioned s call = .error e) : e.isContractViolation = true := by
  unfold Cursor.requirePositioned at h
  split at h
  · cases h
  · cases h
    rfl
  · cases h
    rfl

variable [Engine ε κ ς]

theorem Cursor.move_error {m : Move} {c : Store.Cursor} {e : StoreError} (h : (c.move m s).1 = .error e) :
    e.isContractViolation = true := by
  unfold Cursor.move at h
  split at h
  · rename_i e' hrefused
    cases h
    cases hstep : m.step? with
    | none =>
      rw [hstep] at hrefused
      cases hrefused
    | some call =>
      rw [hstep] at hrefused
      exact Cursor.requirePositioned_error hrefused
  · unfold Cursor.step at h
    split at h
    · cases h
      rfl
    · cases h

omit [Engine ε κ ς] in
theorem Cursor.read_error {α : Type} {c : Store.Cursor} {call : String} {f : κ → ε → Option α} {e : StoreError}
    (h : c.read s call f = .error e) : e.isContractViolation = true := by
  unfold Cursor.read at h
  cases hpositioned : c.requirePositioned s call with
  | error e' =>
    rw [hpositioned] at h
    cases h
    exact Cursor.requirePositioned_error hpositioned
  | ok =>
    rw [hpositioned] at h
    dsimp only [bind, Except.bind] at h
    split at h
    · cases h
      rfl
    · split at h
      · cases h
        rfl
      · cases h

omit [Engine ε κ ς] in
theorem Batch.add_error {op : Operation} {b : Store.Batch} {e : StoreError} (h : (b.add op s).1 = .error e) :
    e.isContractViolation = true := by
  unfold Batch.add at h
  split at h
  · cases h
    rfl
  · split at h
    · cases h
    · cases h
      rfl

theorem Snapshot.sequence_error {n : Store.Snapshot} {e : StoreError} (h : n.sequence s = .error e) :
    e.isContractViolation = true := by
  unfold Snapshot.sequence at h
  split at h
  · cases h
    rfl
  · cases h

theorem Snapshot.cursor_error {n : Store.Snapshot} {e : StoreError} (h : (n.cursor s).1 = .error e) :
    e.isContractViolation = true := by
  unfold Snapshot.cursor at h
  split at h
  · cases h
    rfl
  · split at h
    · cases h
      rfl
    · cases h

omit [Engine ε κ ς] in
theorem writeBatch_error {e : StoreError} (h : s.writeBatch.1 = .error e) : e.isContractViolation = true := by
  unfold Store.writeBatch at h
  split at h
  · cases h
    rfl
  · cases h

/-! ## What a store counts -/

theorem property_cases (s : Store ε κ ς) (name : String) :
    s.property name = (.error (.closed .store), s) ∨
      ∃ value engine, s.property name = (.ok value, { s with engine }) := by
  unfold Store.property Store.call
  split
  · exact .inl rfl
  · exact .inr ⟨_, _, rfl⟩

theorem Cursor.counters_move (m : Move) (c : Store.Cursor) (s : Store ε κ ς) :
    (c.move m s).2.2.counters = s.counters := by
  unfold Cursor.move
  split
  · rfl
  · unfold Cursor.step
    split <;> rfl

theorem counters_release (s : Store ε κ ς) (token : TokenId) : (s.release token).counters = s.counters := by
  unfold Store.release
  split <;> rfl

theorem close_cases (s : Store ε κ ς) :
    (∃ s', s.close = (.ok (), s') ∧ s'.counters = s.counters) ∨
      ∃ e s', s.close = (.error (.ioFailure e), s') ∧ s'.counters = s.counters.countError := by
  have hreleased : s.releaseAll.counters = s.counters :=
    releaseMany_keeps (P := fun s' => s'.counters = s.counters)
      (fun s' token h => (counters_release s' token).trans h) _ rfl
  unfold Store.close
  split
  · exact .inl ⟨s, rfl, rfl⟩
  · dsimp only
    split
    · exact .inl ⟨_, rfl, hreleased⟩
    · exact .inr ⟨_, _, rfl, congrArg Counters.countError hreleased⟩

end Store

namespace Client

variable {ε κ ς δ : Type} [Engine ε κ ς] {c : Client ε κ ς} {before : List (Call × Client.Reply)}

/-! ## Calls -/

/-- The call adds to the counters what its reply says, and an error if it is noted. -/
def Counts (c : Client ε κ ς) (before : List (Call × Client.Reply)) (q : Call) : Prop :=
  (c.step q).2.store.counters = c.store.counters.credit
    { toll before (q, (c.step q).1) with errors := (noted ⟨c, q, (c.step q).1⟩).toNat }

/-- A call with an outcome that is not counted. -/
theorem counts_nothing {q : Call} {reply : Client.Reply} {c' : Client ε κ ς} (hstep : c.step q = (reply, c'))
    (hcounters : c'.store.counters = c.store.counters) (htoll : toll before (q, reply) = {})
    (hnoted : noted ⟨c, q, reply⟩ = false) : Counts c before q := by
  rw [Counts, hstep, htoll, hnoted]
  exact hcounters.trans (Counters.credit_empty _).symm

/-- The call is about one key. -/
def Call.isKeyed : Call → Bool
  | .get _ | .put _ _ | .delete _ => true
  | _ => false

theorem toll_of_keyed {q : Call} (hq : q.isKeyed = true) (e : StoreError) : toll before (q, .error e) = {} := by
  cases q with
  | get | put | delete => rfl
  | _ => cases hq

theorem noted_of_keyed {q : Call} (hq : q.isKeyed = true) (reply : Client.Reply) :
    noted ⟨c, q, reply⟩ = (fails reply || (saysClosed reply && c.store.isOpen)) := by
  cases q with
  | get | put | delete => simp only [noted, reported, missed, hidden, Bool.not_false, Bool.and_true]
  | _ => cases hq

/-- A call about one key, which is counted with `note` if it succeeds. -/
theorem counts_keyed {q : Call} (hq : q.isKeyed = true) {α : Type} {note : α → Counters → Counters}
    {f : ε → Except EngineError α × ε} {g : α → Outcome}
    (hstep : c.step q = let r := Store.count note (c.store.call f); (r.1.map g, { c with store := r.2 }))
    (hok : ∀ a k, note a k = k.credit { toll before (q, .ok (g a)) with errors := 0 }) : Counts c before q := by
  rw [Counts, hstep]
  have hasks := c.store.asks_call f
  generalize c.store.call f = called at hasks ⊢
  cases hasks with
  | closed hclosed =>
    show c.store.counters = c.store.counters.credit { toll before (q, .error (.closed .store)) with
      errors := (noted ⟨c, q, .error (.closed .store)⟩).toNat }
    rw [toll_of_keyed hq, noted_of_keyed hq, hclosed]
    exact (Counters.credit_empty _).symm
  | @done a engine =>
    show note a c.store.counters = c.store.counters.credit { toll before (q, .ok (g a)) with
      errors := (noted ⟨c, q, .ok (g a)⟩).toNat }
    rw [noted_of_keyed hq]
    exact hok a _
  | @failed e engine hopen =>
    have hnoted : noted ⟨c, q, .error (.ofEngine e)⟩ = true := by
      rw [noted_of_keyed hq]
      cases e with
      -- not reported, but the store is open
      | closed => exact hopen
      | _ => rfl
    show c.store.counters.countError = c.store.counters.credit { toll before (q, .error (.ofEngine e)) with
      errors := (noted ⟨c, q, .error (.ofEngine e)⟩).toNat }
    rw [toll_of_keyed hq, hnoted]
    exact Counters.countError_eq _

/-- A call that makes a child. -/
theorem counts_receive {q : Call} {note : Counters → Counters} {r : Except StoreError Handle × Store ε κ ς}
    (hstep : c.step q = c.receive r) (hmakes : c.store.Makes note r)
    (hok : ∀ k, note k = k.credit { toll before (q, .ok (.child c.places.length)) with errors := 0 })
    (herror : ∀ e, toll before (q, .error e) = {}) (hquiet : noted ⟨c, q, .ok (.child c.places.length)⟩ = false)
    (hsilent : ∀ e, r.1 = .error e → noted ⟨c, q, .error e⟩ = false) : Counts c before q := by
  cases hmakes with
  | @refused e engine => exact counts_nothing hstep rfl (herror e) (hsilent e rfl)
  | @made engine handle kind held =>
    rw [Counts, hstep]
    show note c.store.counters = c.store.counters.credit { toll before (q, .ok (.child c.places.length)) with
      errors := (noted ⟨c, q, .ok (.child c.places.length)⟩).toNat }
    rw [hquiet, hok]
    rfl

theorem not_noted_of_not_fails {q : Call} {reply : Client.Reply} (hfails : fails reply = false)
    (hhidden : hidden ⟨c, q, reply⟩ = false) : noted ⟨c, q, reply⟩ = false := by
  rw [noted, hhidden, reported, hfails]
  rfl

theorem not_noted_of_missed {q : Call} {reply : Client.Reply} (hmissed : missed ⟨c, q, reply⟩ = reported ⟨c, q, reply⟩)
    (hhidden : hidden ⟨c, q, reply⟩ = false) : noted ⟨c, q, reply⟩ = false := by
  rw [noted, hhidden, hmissed, Bool.and_not_self]
  rfl

theorem toll_of_noChild (n : Nat) (q : ChildCall) : toll before (.child n q, .ok .noChild) = {} := by
  rcases q with _ | (_ | _ | _) | (_ | _ | _) | _ | _ <;> rfl

section Child

variable {n : Nat} {fate : Fate} (hfate : fate ≠ .dropped)

include hfate

theorem counts_askCursor {cursor : Store.Cursor} (hn : c.places[n]? = some ⟨.cursor cursor, fate⟩) (q : CursorCall) :
    Counts c before (.child n (.cursor q)) := by
  have hstep := step_child hn hfate (.cursor q)
  cases q with
  | move m =>
    refine counts_nothing hstep (Store.Cursor.counters_move m cursor c.store) rfl (not_noted_of_not_fails ?_ rfl)
    exact Store.not_fails_map fun _ => Store.Cursor.move_error
  | key | value | entry =>
    refine counts_nothing hstep rfl rfl (not_noted_of_not_fails ?_ rfl)
    exact Store.not_fails_map fun _ => Store.Cursor.read_error

/-- A batch that is written as its calls have filled it. -/
theorem counts_write (h : Carries c before) {b : Store.Batch} (hn : c.places[n]? = some ⟨.batch b, fate⟩)
    {q : BatchCall} (hq : q = .write ∨ q = .writeAndClose) : Counts c before (.child n (.batch q)) := by
  have hstep : (c.step (.child n (.batch q))).1 = (b.write c.store).1.map .applied ∧
      (c.step (.child n (.batch q))).2.store.counters = (b.write c.store).2.2.counters := by
    rw [step_child hn hfate]
    rcases hq with rfl | rfl
    · exact ⟨rfl, rfl⟩
    · exact ⟨rfl, Store.counters_release _ _⟩
  have hwrites := Store.Batch.writes b c.store
  rw [Counts, hstep.1, hstep.2]
  generalize b.write c.store = written at hwrites ⊢
  cases hwrites with
  | closed | again | storeClosed | engineClosed =>
    rcases hq with rfl | rfl
    all_goals exact (Counters.credit_empty _).symm
  | @applied ops engine hbatch =>
    have hops : ops = accepted n before := h.holds (h.token_eq hn ▸ Store.get?_of_batch? hbatch)
    rw [hops]
    rcases hq with rfl | rfl
    all_goals exact Counters.countBatch_eq _ _
  | failed =>
    rcases hq with rfl | rfl
    all_goals exact Counters.countFailedBatch_eq _

theorem counts_askBatch (h : Carries c before) {b : Store.Batch} (hn : c.places[n]? = some ⟨.batch b, fate⟩)
    (q : BatchCall) : Counts c before (.child n (.batch q)) := by
  cases q with
  | add op =>
    have hcounters : (b.add op c.store).2.counters = c.store.counters := by
      rcases Store.Batch.add_cases op b c.store with ⟨e, hadd⟩ | ⟨ops, -, hadd⟩
      · rw [hadd]
      · rw [hadd]
        rfl
    refine counts_nothing (step_child hn hfate _) hcounters rfl (not_noted_of_not_fails ?_ rfl)
    exact Store.not_fails_map fun _ => Store.Batch.add_error
  | write => exact counts_write hfate h hn (.inl rfl)
  | writeAndClose => exact counts_write hfate h hn (.inr rfl)

theorem counts_askSnapshot {snapshot : Store.Snapshot} (hn : c.places[n]? = some ⟨.snapshot snapshot, fate⟩)
    (q : SnapshotCall) : Counts c before (.child n (.snapshot q)) := by
  have hstep := step_child hn hfate (.snapshot q)
  cases q with
  | get key =>
    have hcounters : (snapshot.get key c.store).2.counters = c.store.counters := by
      unfold Store.Snapshot.get
      split <;> rfl
    exact counts_nothing hstep hcounters rfl (not_noted_of_missed rfl rfl)
  | sequence =>
    refine counts_nothing hstep rfl rfl (not_noted_of_not_fails ?_ rfl)
    exact Store.not_fails_map fun _ => Store.Snapshot.sequence_error
  | cursor =>
    refine counts_receive hstep (Store.makes_cursorOf snapshot c.store) Counters.countCursor_eq (fun _ => rfl) rfl
      fun e he => not_noted_of_not_fails ?_ rfl
    exact Store.not_fails_error (fun _ => Store.Snapshot.cursor_error) he

end Child

theorem counts_ask (h : Carries c before) {n : Nat} {place : Place} (hn : c.places[n]? = some place)
    (hfate : place.fate ≠ .dropped) (q : ChildCall) : Counts c before (.child n q) := by
  obtain ⟨handle, fate⟩ := place
  cases q with
  | cursor q =>
    cases handle with
    | cursor cursor => exact counts_askCursor hfate hn q
    | batch | snapshot => exact counts_nothing (step_child hn hfate _) rfl rfl rfl
  | batch q =>
    cases handle with
    | batch b => exact counts_askBatch hfate h hn q
    | cursor | snapshot => exact counts_nothing (step_child hn hfate _) rfl (toll_of_noChild n _) rfl
  | snapshot q =>
    cases handle with
    | snapshot snapshot => exact counts_askSnapshot hfate hn q
    | cursor | batch => exact counts_nothing (step_child hn hfate _) rfl (toll_of_noChild n _) rfl
  | close =>
    have hcounters : (handle.close c.store).counters = c.store.counters := by
      rw [Handle.close_eq]
      exact Store.counters_release _ _
    exact counts_nothing ((step_child hn hfate .close).trans (ask_close c n _)) hcounters rfl rfl
  | drop =>
    have hcounters : (handle.drop c.store).counters = c.store.counters := by
      rw [Handle.drop_eq]
      exact Store.counters_release _ _
    exact counts_nothing ((step_child hn hfate .drop).trans (ask_drop c n _)) hcounters rfl rfl

/-- What each call does to the counters. -/
theorem counters_step (h : Carries c before) (q : Call) : Counts c before q := by
  cases q with
  | get key =>
    have hok (value : Option Bytes) (k : Counters) : k.countRead (.ofNat (value.elim 0 List.length)) =
        k.credit { toll before (.get key, .ok (.value value)) with errors := 0 } := k.countRead_eq _
    exact counts_keyed rfl rfl hok
  | put key value => exact counts_keyed rfl rfl fun _ k => k.countWrite_eq (key.length + value.length)
  | delete key => exact counts_keyed rfl rfl fun _ k => k.countDelete_eq
  | property name =>
    rcases c.store.property_cases name with hproperty | ⟨value, engine, hproperty⟩
    · have hstep : c.step (.property name) = (.error (.closed .store), c) := by
        simp only [step, hproperty]
        rfl
      exact counts_nothing hstep rfl rfl rfl
    · have hstep : c.step (.property name) = (.ok (.text value), { c with store := { c.store with engine } }) := by
        simp only [step, hproperty]
        rfl
      exact counts_nothing hstep rfl rfl rfl
  | openCursor =>
    exact counts_receive rfl (Store.makes_cursor c.store) Counters.countCursor_eq (fun _ => rfl) rfl
      fun _ _ => not_noted_of_missed rfl rfl
  | openBatch =>
    refine counts_receive rfl (Store.makes_writeBatch c.store) (fun k => k.credit_empty.symm) (fun _ => rfl) rfl
      fun e he => not_noted_of_not_fails ?_ rfl
    exact Store.not_fails_error (fun _ => Store.writeBatch_error) he
  | openSnapshot =>
    exact counts_receive rfl (Store.makes_snapshot c.store) Counters.countSnapshot_eq (fun _ => rfl) rfl
      fun _ _ => not_noted_of_missed rfl rfl
  | child n q =>
    cases hn : c.places[n]? with
    | none => exact counts_nothing (step_unmade hn q) rfl (toll_of_noChild n q) rfl
    | some place =>
      by_cases hfate : place.fate = .dropped
      · exact counts_nothing (step_dropped hn hfate q) rfl (toll_of_noChild n q) rfl
      · exact counts_ask h hn hfate q
  | close =>
    rcases c.store.close_cases with ⟨s, hclose, hcounters⟩ | ⟨e, s, hclose, hcounters⟩
    · have hstep : c.step .close = (.ok .done, { c with store := s }) := by
        simp only [step, hclose]
        rfl
      exact counts_nothing hstep hcounters rfl rfl
    · have hstep : c.step .close = (.error (.ioFailure e), { c with store := s }) := by
        simp only [step, hclose]
        rfl
      rw [Counts, hstep]
      exact hcounters.trans (Counters.countError_eq _)
  | drop =>
    rcases c.store.close_cases with ⟨s, hclose, hcounters⟩ | ⟨e, s, hclose, hcounters⟩
    · have hstep : c.step .drop = (.ok .done, { c with store := s }) := by simp only [step, Store.drop, hclose]
      refine counts_nothing hstep hcounters rfl (not_noted_of_not_fails rfl ?_)
      simp only [hidden, hclose]
    · have hstep : c.step .drop = (.ok .done, { c with store := s }) := by simp only [step, Store.drop, hclose]
      have hnoted : noted ⟨c, .drop, .ok .done⟩ = true := by simp only [noted, hidden, hclose, Bool.or_true]
      rw [Counts, hstep, hnoted]
      exact hcounters.trans (Counters.countError_eq _)

/-- A call that fails other than by the refusal of a batch adds no success. -/
theorem toll_of_error {e : StoreError} (q : Call) (h : ∀ source, e ≠ .applyFailure source) :
    toll before (q, .error e) = {} := by
  cases e with
  | applyFailure source => exact absurd rfl (h source)
  | _ => rcases q with _ | _ | _ | _ | _ | _ | _ | ⟨n, _ | (_ | _ | _) | (_ | _ | _) | _ | _⟩ | _ | _ <;> rfl

theorem toll_of_again {n : Nat} {q : Call} (h : q.writes n = true) : toll before (q, .ok (.applied false)) = {} := by
  unfold Call.writes at h
  split at h
  · rfl
  · rfl
  · cases h

/-! ## Runs -/

/-- A run adds to the counters of successes what its trace says. -/
theorem counters_run (act : δ → ε → ε) (h : Carries c before) (events : List (Event δ)) :
    ∃ errors, (c.run act events).store.counters =
      { c.store.counters.credit (tally before (c.trace act events)) with errors := errors } := by
  induction events generalizing c before with
  | nil =>
    refine ⟨c.store.counters.errors, ?_⟩
    show c.store.counters = { c.store.counters.credit {} with errors := c.store.counters.errors }
    rw [Counters.credit_empty]
  | cons event events ih =>
    cases event with
    | call q =>
      obtain ⟨errors, hrun⟩ := ih (carries_step h q)
      refine ⟨errors, hrun.trans ?_⟩
      -- what the call adds to the errors is overwritten with those of the whole run
      rw [show (c.step q).2.store.counters = _ from counters_step h q, Counters.credit_credit]
      rfl
    | change d => exact ih (h.change (act d))

theorem countP_moments (p : Moment ε κ ς → Bool) (act : δ → ε → ε) (c : Client ε κ ς) (q : Call)
    (events : List (Event δ)) : (c.moments act (.call q :: events)).countP p =
      (p ⟨c, q, (c.step q).1⟩).toNat + ((c.next act (.call q)).moments act events).countP p := by
  rw [moments, List.countP_cons, Nat.add_comm]
  cases p ⟨c, q, (c.step q).1⟩ <;> rfl

/-- A run adds to the counter of errors one for each call that is noted. -/
theorem errors_run (act : δ → ε → ε) (h : Carries c before) (events : List (Event δ)) :
    (c.run act events).store.counters.errors =
      c.store.counters.errors + .ofNat ((c.moments act events).countP noted) := by
  induction events generalizing c before with
  | nil => exact (UInt64.add_zero _).symm
  | cons event events ih =>
    cases event with
    | call q =>
      have hstep : (c.next act (.call q)).store.counters.errors =
          c.store.counters.errors + .ofNat (noted ⟨c, q, (c.step q).1⟩).toNat :=
        congrArg Counters.errors (counters_step h q)
      calc (c.run act (.call q :: events)).store.counters.errors
          = (c.next act (.call q)).store.counters.errors +
              .ofNat (((c.next act (.call q)).moments act events).countP noted) := ih (carries_step h q)
        _ = c.store.counters.errors + .ofNat ((c.moments act (.call q :: events)).countP noted) := by
            rw [hstep, countP_moments, UInt64.ofNat_add, UInt64.add_assoc]
    | change d => exact ih (h.change (act d))

omit [Engine ε κ ς] in
theorem reported_of_missed {m : Moment ε κ ς} (h : missed m = true) : reported m = true := by
  unfold missed at h
  split at h
  · exact h
  · exact h
  · exact h
  · cases h

/-- What is hidden is not reported. -/
theorem not_reported_of_hidden {q : Call} (h : hidden ⟨c, q, (c.step q).1⟩ = true) :
    reported ⟨c, q, (c.step q).1⟩ = false := by
  have hclosed : ∀ reply : Client.Reply, (saysClosed reply && c.store.isOpen) = true → fails reply = false := by
    intro reply hsays
    unfold saysClosed at hsays
    split at hsays
    · rfl
    · cases hsays
  cases q with
  | get | put | delete => exact hclosed _ h
  | drop => rfl
  | _ => cases h

theorem noted_add_missed (c : Client ε κ ς) (q : Call) :
    (noted ⟨c, q, (c.step q).1⟩).toNat + (missed ⟨c, q, (c.step q).1⟩).toNat =
      (reported ⟨c, q, (c.step q).1⟩).toNat + (hidden ⟨c, q, (c.step q).1⟩).toNat := by
  have hmissed : missed ⟨c, q, (c.step q).1⟩ = true → reported ⟨c, q, (c.step q).1⟩ = true := reported_of_missed
  have hhidden : hidden ⟨c, q, (c.step q).1⟩ = true → reported ⟨c, q, (c.step q).1⟩ = false := not_reported_of_hidden
  rw [noted]
  generalize missed ⟨c, q, (c.step q).1⟩ = isMissed at *
  generalize reported ⟨c, q, (c.step q).1⟩ = isReported at *
  generalize hidden ⟨c, q, (c.step q).1⟩ = isHidden at *
  revert isMissed isReported isHidden
  decide

/-- What is noted and what is reported differ by what is missed and what is hidden. -/
theorem countP_noted (act : δ → ε → ε) (c : Client ε κ ς) (events : List (Event δ)) :
    (c.moments act events).countP noted + (c.moments act events).countP missed =
      (c.moments act events).countP reported + (c.moments act events).countP hidden := by
  induction events generalizing c with
  | nil => rfl
  | cons event events ih =>
    cases event with
    | call q =>
      have hone := noted_add_missed c q
      have hnext := ih (c.next act (.call q))
      rw [countP_moments, countP_moments, countP_moments, countP_moments]
      omega
    | change d => exact ih _

/-! ## What the counters say -/

/-- The counters of successes after any run of calls, over any engine: the successes that its trace tells. A call
changes none of them if it fails, other than by the refusal of a batch, or writes a batch again, or reads a snapshot. -/
theorem counters_eq_tally (act : δ → ε → ε) (path : Option String) (options : Options) (engine : ε)
    (events : List (Event δ)) :
    let c₀ : Client ε κ ς := start (Store.ofEngine path options engine)
    let c := c₀.run act events
    let t := tally [] (c₀.trace act events)
    c.store.counters = {
      reads := .ofNat t.reads
      writes := .ofNat t.writes
      deletes := .ofNat t.deletes
      bytesRead := .ofNat t.bytesRead
      bytesWritten := .ofNat t.bytesWritten
      cursorsOpened := .ofNat t.cursorsOpened
      batchesApplied := .ofNat t.batchesApplied
      batchesFailed := .ofNat t.batchesFailed
      snapshotsTaken := .ofNat t.snapshotsTaken
      errors := c.store.counters.errors } ∧
    ∀ q, ((∃ e, (c.step q).1 = .error e ∧ ∀ source, e ≠ .applyFailure source) ∨
        (∃ n, q.writes n = true ∧ (c.step q).1 = .ok (.applied false)) ∨
        ∃ n key, q = .child n (.snapshot (.get key))) →
      { (c.step q).2.store.counters with errors := 0 } = { c.store.counters with errors := 0 } := by
  intro c₀ c t
  have hstart : Carries c₀ [] := carries_start path options engine
  constructor
  · obtain ⟨errors, hrun⟩ := counters_run act hstart events
    show (c₀.run act events).store.counters = _
    simp only [c, hrun]
    simp [Counters.credit, t, c₀, start, Store.ofEngine]
  · intro q hidle
    have hcarries : Carries c _ := carries_run act hstart events
    have htoll : toll ([] ++ c₀.trace act events) (q, (c.step q).1) = {} := by
      rcases hidle with ⟨e, hreply, hsource⟩ | ⟨n, hwrites, hreply⟩ | ⟨n, key, rfl⟩
      · rw [hreply]
        exact toll_of_error q hsource
      · rw [hreply]
        exact toll_of_again hwrites
      · rfl
    have hstep := counters_step hcarries q
    rw [Counts, htoll] at hstep
    rw [hstep]
    exact congrArg (fun k : Counters => { k with errors := 0 }) (Counters.credit_empty c.store.counters)

/-- A store over an engine some of whose calls fail. The first batch is applied, and written again for nothing; the
engine refuses the second. -/
theorem counters_eq_tally_faulty :
    let engine : Faulty (Connection MemoryLog) := { engine := ⟨none, {}, .ofRecords [], .empty, true⟩ }
    let fault (method : EngineMethod) (e : Faulty (Connection MemoryLog)) :=
      e.setFault method (some (.io (.reported "full")))
    let events : List (Event (Faulty (Connection MemoryLog) → Faulty (Connection MemoryLog))) :=
      [.call (.put [97] [1, 2]), .call (.get [97]), .call .openBatch, .call (.child 0 (.batch (.add (.put [98] [3])))),
        .call (.child 0 (.batch (.add (.delete [97])))), .call (.child 0 (.batch .write)), .call .openSnapshot,
        .call (.child 1 (.snapshot .cursor)), .change (fault .delete), .call (.delete [98]), .call .openBatch,
        .change (fault .apply), .call (.child 3 (.batch .writeAndClose))]
    let c₀ : Client _ _ _ := start (Store.ofEngine none {} engine)
    let c := c₀.run (fun f => f) events
    c.store.counters = {
      reads := 1, writes := 1, bytesRead := 2, bytesWritten := 6, cursorsOpened := 1, batchesApplied := 1,
      batchesFailed := 1, snapshotsTaken := 1, errors := 2 } ∧
      (c.step (.child 0 (.batch .write))).1 = .ok (.applied false) ∧
      { (c.step (.child 0 (.batch .write))).2.store.counters with errors := 0 } =
        { c.store.counters with errors := 0 } := by
  intro engine fault events c₀ c
  have hrun : run (fun f => f) (start (Store.ofEngine none {} engine)) events = c := rfl
  have htally : tally [] (trace (fun f => f) (start (Store.ofEngine none {} engine)) events) = {
      reads := 1, writes := 1, bytesRead := 2, bytesWritten := 6, cursorsOpened := 1, batchesApplied := 1,
      batchesFailed := 1, snapshotsTaken := 1 } := by decide +kernel
  have herrors : c.store.counters.errors = 2 := by decide +kernel
  have hreply : (c.step (.child 0 (.batch .write))).1 = .ok (.applied false) := by decide +kernel
  obtain ⟨hcounters, hidle⟩ := counters_eq_tally (fun f => f) none {} engine events
  rw [hrun] at hcounters hidle
  rw [htally, herrors] at hcounters
  exact ⟨hcounters, hreply, hidle _ (.inr (.inl ⟨0, rfl, hreply⟩))⟩

/-- The counter of errors after any run of calls, over any engine: it is the number of the calls that are noted. Those
are the calls that have told their caller of a failure of the engine, without those that are missed and with those that
are hidden. -/
theorem errors_eq_noted (act : δ → ε → ε) (path : Option String) (options : Options) (engine : ε)
    (events : List (Event δ)) :
    let c₀ : Client ε κ ς := start (Store.ofEngine path options engine)
    let errors := (c₀.run act events).store.counters.errors
    let moments := c₀.moments act events
    errors = .ofNat (moments.countP noted) ∧
      errors + .ofNat (moments.countP missed) = .ofNat (moments.countP reported) + .ofNat (moments.countP hidden) := by
  intro c₀ errors moments
  have herrors : errors = .ofNat (moments.countP noted) :=
    (errors_run act (carries_start path options engine) events).trans (UInt64.zero_add _)
  refine ⟨herrors, ?_⟩
  rw [herrors, ← UInt64.ofNat_add, ← UInt64.ofNat_add, countP_noted]

/-- Failures that are reported are not always counted, nor are those always reported that are counted: a store whose
engine cannot make a cursor counts no error, and one whose engine says that it is closed counts an error. -/
theorem errors_ne_reported :
    let engine : Faulty (Connection MemoryLog) := { engine := ⟨none, {}, .ofRecords [], .empty, true⟩ }
    let c₀ : Client _ _ _ := start (Store.ofEngine none {} engine)
    let full : EngineError := .io (.reported "full")
    let uncounted : List (Event (Faulty (Connection MemoryLog) → Faulty (Connection MemoryLog))) :=
      [.change (·.setFault .openCursor (some full)), .call .openCursor]
    let silenced : List (Event (Faulty (Connection MemoryLog) → Faulty (Connection MemoryLog))) :=
      [.change (·.setFault .get (some .closed)), .call (.get [97])]
    (c₀.run (fun f => f) uncounted).store.counters.errors = 0 ∧
      (c₀.moments (fun f => f) uncounted).countP reported = 1 ∧
      (c₀.run (fun f => f) silenced).store.counters.errors = 1 ∧
      (c₀.moments (fun f => f) silenced).countP reported = 0 := by
  refine ⟨?_, ?_, ?_, ?_⟩ <;> decide +kernel

end Client

end OrderedStore
