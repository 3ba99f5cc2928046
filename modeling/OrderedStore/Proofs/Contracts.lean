import OrderedStore.Proofs.Counting
import OrderedStore.Proofs.Engine

/-!
# Broken contracts and failing engines

A call that fails has a caller that broke the contract, or an engine that failed. A broken contract has no effect.

* `Blame`: which of the two an error is due to;
* `Store.Fails`, `Client.EngineFails`: a call gets to the engine and fails there;
* `Client.blames_step`: every call, over any engine;
* `LogStorage.Unclosed`: a log that does not report itself closed; over such a log, an error of the engine is never
  reported as a broken contract (`report_of_engineFails`);
* `Client.broken_contract_or_engine_failure`: what errors mean over a connection.
-/

namespace OrderedStore

open Client

/-- How an error of the engine in applying a batch is reported. -/
def StoreError.ofApply : EngineError → StoreError
  | .closed => .closed .store
  | e => .applyFailure e

/-- An error, and the state behind it: the caller broke the contract, and the state is `t`; or the engine failed, in a
way that `fails` describes, and this is reported. -/
inductive Blame {τ : Type} (t : τ) (fails : EngineError → Prop) (report : EngineError → StoreError) :
    StoreError → τ → Prop where
  | caller {e : StoreError} (hcontract : e.isContractViolation = true) : Blame t fails report e t
  | engine {source : EngineError} (t' : τ) (hfails : fails source) : Blame t fails report (report source) t'

theorem Blame.map {τ τ' : Type} {t t' : τ} {fails fails' : EngineError → Prop} {report : EngineError → StoreError}
    {e : StoreError} (h : Blame t fails report e t') (g : τ → τ') (hfails : ∀ source, fails source → fails' source) :
    Blame (g t) fails' report e (g t') := by
  cases h with
  | caller hcontract => exact .caller hcontract
  | engine _ hsource => exact .engine (g t') (hfails _ hsource)

namespace Store

variable {ε κ ς : Type} {s s' : Store ε κ ς} {e : StoreError}

/-! ## Calls of stores and children -/

/-- The store is open, and its engine fails in `f`. -/
def Fails {α : Type} (s : Store ε κ ς) (f : ε → Except EngineError α × ε) (source : EngineError) : Prop :=
  s.isOpen = true ∧ (f s.engine).1 = .error source

theorem Asks.blame {α : Type} {f : ε → Except EngineError α × ε} {counters : Counters}
    (h : s.Asks f counters (.error e, s')) : Blame s (s.Fails f) .ofEngine e s' := by
  cases h with
  | closed => exact .caller rfl
  | failed hopen hengine => exact .engine _ ⟨hopen, congrArg Prod.fst hengine⟩

theorem call_blame {α : Type} {f : ε → Except EngineError α × ε} (h : s.call f = (.error e, s')) :
    Blame s (s.Fails f) .ofEngine e s' := Asks.blame (h ▸ s.asks_call f)

theorem request_blame {α : Type} {f : ε → Except EngineError α × ε} (h : s.request f = (.error e, s')) :
    Blame s (s.Fails f) .ofEngine e s' := Asks.blame (h ▸ s.asks_request f)

/-- Counting successes has nothing to do with errors. -/
theorem count_eq_error {α : Type} {note : α → Counters → Counters} {r : Except StoreError α × Store ε κ ς}
    (h : Store.count note r = (.error e, s')) : r = (.error e, s') := by
  unfold Store.count at h
  split at h
  · cases h
  · exact h

theorem writeBatch_blame (h : s.writeBatch = (.error e, s')) : Blame s (fun _ => False) .ofEngine e s' := by
  have hcontract : e.isContractViolation = true := writeBatch_error (congrArg Prod.fst h)
  unfold Store.writeBatch at h
  split at h
  · cases h
    exact .caller hcontract
  · cases h

variable [Engine ε κ ς]

theorem get_blame {key : Bytes} (h : s.get key = (.error e, s')) :
    Blame s (s.Fails (Engine.get key)) .ofEngine e s' := call_blame (count_eq_error h)

theorem put_blame {key value : Bytes} (h : s.put key value = (.error e, s')) :
    Blame s (s.Fails (Engine.put key value)) .ofEngine e s' := call_blame (count_eq_error h)

theorem delete_blame {key : Bytes} (h : s.delete key = (.error e, s')) :
    Blame s (s.Fails (Engine.delete key)) .ofEngine e s' := call_blame (count_eq_error h)

theorem property_blame {name : String} (h : s.property name = (.error e, s')) :
    Blame s (fun _ => False) .ofEngine e s' := by
  obtain hproperty | ⟨value, engine, hproperty⟩ := s.property_cases name
  · cases hproperty.symm.trans h
    exact .caller rfl
  · cases hproperty.symm.trans h

theorem cursor_blame (h : s.cursor = (.error e, s')) : Blame s (s.Fails Engine.openCursor) .ofEngine e s' := by
  unfold Store.cursor at h
  split at h
  · rename_i hrequest
    cases h
    exact request_blame hrequest
  · cases h

theorem snapshot_blame (h : s.snapshot = (.error e, s')) : Blame s (s.Fails Engine.openView) .ofEngine e s' := by
  unfold Store.snapshot at h
  split at h
  · rename_i hrequest
    cases h
    exact request_blame hrequest
  · cases h

theorem close_blame (h : s.close = (.error e, s')) :
    Blame s (fun source => s.isOpen = true ∧ (Engine.close s.releaseAll.engine).1 = .error source) .ioFailure e s' := by
  unfold Store.close at h
  split at h
  · cases h
  · rename_i hnot
    have hopen : s.isOpen = true := by simpa using hnot
    dsimp only at h
    split at h
    · cases h
    · rename_i hclose
      cases h
      exact .engine _ ⟨hopen, congrArg Prod.fst hclose⟩

theorem move_blame {m : Move} {c c' : Store.Cursor} (h : c.move m s = (.error e, c', s')) :
    Blame (c, s) (fun _ => False) .ofEngine e (c', s') := by
  have hcontract : e.isContractViolation = true := Cursor.move_error (congrArg Prod.fst h)
  unfold Cursor.move at h
  split at h
  · cases h
    exact .caller hcontract
  · unfold Cursor.step at h
    split at h
    · cases h
      exact .caller hcontract
    · cases h

omit [Engine ε κ ς] in
theorem add_blame {op : Operation} {b : Store.Batch} (h : b.add op s = (.error e, s')) :
    Blame s (fun _ => False) .ofApply e s' := by
  have hcontract : e.isContractViolation = true := Batch.add_error (congrArg Prod.fst h)
  obtain ⟨e', hadd⟩ | ⟨ops, -, hadd⟩ := Batch.add_cases op b s
  · cases hadd.symm.trans h
    exact .caller hcontract
  · cases hadd.symm.trans h

theorem write_blame {b b' : Store.Batch} (h : b.write s = (.error e, b', s')) :
    Blame (b, s) (fun source => ∃ ops, s.batch? b.token = some ops ∧ s.Fails (Engine.apply ops) source) .ofApply e
      (b', s') := by
  have hwrites := Batch.writes b s
  rw [h] at hwrites
  cases hwrites with
  | closed | storeClosed => exact .caller rfl
  | engineClosed hbatch _ hopen hengine =>
    show Blame _ _ _ (StoreError.ofApply .closed) _
    exact .engine _ ⟨_, hbatch, hopen, congrArg Prod.fst hengine⟩
  | @failed ops source engine hbatch _ hopen hengine hunclosed =>
    have hreport : StoreError.ofApply source = .applyFailure source := by
      cases source with
      | closed => exact absurd rfl hunclosed
      | _ => rfl
    exact hreport ▸ .engine _ ⟨ops, hbatch, hopen, congrArg Prod.fst hengine⟩

theorem getAt_blame {key : Bytes} {n : Store.Snapshot} (h : n.get key s = (.error e, s')) :
    Blame s (fun source => ∃ view, s.snapshot? n.token = some view ∧ (Engine.getAt view key s.engine).1 = .error source)
      .ofEngine e s' := by
  unfold Snapshot.get at h
  split at h
  · cases h
    exact .caller rfl
  · rename_i view hview
    obtain ⟨result, engine, hgot⟩ : ∃ result engine, Engine.getAt view key s.engine = (result, engine) := ⟨_, _, rfl⟩
    rw [hgot] at h
    cases result with
    | ok value => cases h
    | error source =>
      cases h
      exact .engine _ ⟨view, hview, congrArg Prod.fst hgot⟩

theorem cursorOf_blame {n : Store.Snapshot} (h : n.cursor s = (.error e, s')) :
    Blame s (fun _ => False) .ofEngine e s' := by
  have hcontract : e.isContractViolation = true := Snapshot.cursor_error (congrArg Prod.fst h)
  unfold Snapshot.cursor at h
  split at h
  · cases h
    exact .caller hcontract
  · split at h
    · cases h
      exact .caller hcontract
    · cases h

end Store

namespace Client

/-! ## Calls of clients -/

/-- The child that a call uses up, whatever comes of it. -/
def Call.usesUp : Call → Option Nat
  | .child n (.batch .writeAndClose) => some n
  | _ => none

/-- How an error of the engine is reported to the caller. -/
def Call.report : Call → EngineError → StoreError
  | .child _ (.batch _) => .ofApply
  | .close => .ioFailure
  | _ => .ofEngine

variable {ε κ ς : Type} [Engine ε κ ς] {c : Client ε κ ς}

/-- The call gets to the engine, and the engine answers it with an error. -/
inductive EngineFails (c : Client ε κ ς) : Call → EngineError → Prop where
  | get {key : Bytes} {source : EngineError} (h : c.store.Fails (Engine.get key) source) :
      EngineFails c (.get key) source
  | put {key value : Bytes} {source : EngineError} (h : c.store.Fails (Engine.put key value) source) :
      EngineFails c (.put key value) source
  | delete {key : Bytes} {source : EngineError} (h : c.store.Fails (Engine.delete key) source) :
      EngineFails c (.delete key) source
  | openCursor {source : EngineError} (h : c.store.Fails Engine.openCursor source) : EngineFails c .openCursor source
  | openSnapshot {source : EngineError} (h : c.store.Fails Engine.openView source) : EngineFails c .openSnapshot source
  /-- A batch is written, and used up or not. -/
  | write {n : Nat} {fate : Fate} {b : Store.Batch} {q : BatchCall} {ops : List Operation} {source : EngineError}
      (hn : c.places[n]? = some ⟨.batch b, fate⟩) (hq : q = .write ∨ q = .writeAndClose)
      (hops : c.store.batch? b.token = some ops) (h : c.store.Fails (Engine.apply ops) source) :
      EngineFails c (.child n (.batch q)) source
  | getAt {n : Nat} {fate : Fate} {snapshot : Store.Snapshot} {view : ς} {key : Bytes} {source : EngineError}
      (hn : c.places[n]? = some ⟨.snapshot snapshot, fate⟩) (hview : c.store.snapshot? snapshot.token = some view)
      (h : (Engine.getAt view key c.store.engine).1 = .error source) :
      EngineFails c (.child n (.snapshot (.get key))) source
  /-- The engine is closed when the children have been released. -/
  | close {source : EngineError} (hopen : c.store.isOpen = true)
      (h : (Engine.close c.store.releaseAll.engine).1 = .error source) : EngineFails c .close source

/-- The client when a call is refused. What the call uses up is dropped, and nothing else has happened. -/
def refused (c : Client ε κ ς) (q : Call) : Client ε κ ς := q.usesUp.elim c fun n => (c.step (.child n .drop)).2

/-- An error of a call, and the client behind it: the call is refused, or the engine has failed. -/
def Blames (c : Client ε κ ς) (q : Call) : Prop :=
  ∀ e c', c.step q = (.error e, c') → Blame (c.refused q) (EngineFails c q) q.report e c'

theorem refused_of_usesUp {q : Call} (hused : q.usesUp = none) : c.refused q = c := by
  rw [refused, hused, Option.elim_none]

/-- A call that is answered with what comes of `t`, a part of the client that `g` puts back into it. -/
theorem blames_answer {q : Call} {α τ : Type} {r : Except StoreError α × τ}
    {f : Except StoreError α × τ → Reply × Client ε κ ς} {t : τ} (g : τ → Client ε κ ς) (hstep : c.step q = f r)
    (hok : ∀ a t', ∃ outcome c', f (.ok a, t') = (.ok outcome, c'))
    (herror : ∀ e t', f (.error e, t') = (.error e, g t')) (hrefused : c.refused q = g t)
    {fails : EngineError → Prop} (hr : ∀ e t', r = (.error e, t') → Blame t fails q.report e t')
    (hfails : ∀ source, fails source → EngineFails c q source) : Blames c q := by
  intro e c' h
  obtain ⟨result, t'⟩ := r
  rw [hstep] at h
  cases result with
  | ok a =>
    obtain ⟨outcome, c'', hanswer⟩ := hok a t'
    cases hanswer.symm.trans h
  | error e' =>
    cases (herror e' t').symm.trans h
    rw [hrefused]
    exact (hr e t' rfl).map g hfails

/-- A call of the store, or of a child that keeps no account of it, that makes no child. -/
theorem blames_store {q : Call} {α : Type} {r : Except StoreError α × Store ε κ ς} {out : α → Outcome}
    (hstep : c.step q = (r.1.map out, { c with store := r.2 })) (hused : q.usesUp = none)
    {fails : EngineError → Prop} (hr : ∀ e s', r = (.error e, s') → Blame c.store fails q.report e s')
    (hfails : ∀ source, fails source → EngineFails c q source) : Blames c q :=
  blames_answer (f := fun r => (r.1.map out, { c with store := r.2 })) (fun store => { c with store }) hstep
    (fun _ _ => ⟨_, _, rfl⟩) (fun _ _ => rfl) (refused_of_usesUp hused) hr hfails

/-- A call that makes a child. -/
theorem blames_receive {q : Call} {α : Type} {r : Except StoreError α × Store ε κ ς} {handle : α → Handle}
    (hstep : c.step q = c.receive (r.1.map handle, r.2)) (hused : q.usesUp = none) {fails : EngineError → Prop}
    (hr : ∀ e s', r = (.error e, s') → Blame c.store fails q.report e s')
    (hfails : ∀ source, fails source → EngineFails c q source) : Blames c q :=
  blames_answer (f := fun r => c.receive (r.1.map handle, r.2)) (fun store => { c with store }) hstep
    (fun _ _ => ⟨_, _, rfl⟩) (fun _ _ => rfl) (refused_of_usesUp hused) hr hfails

/-- A call that only looks, and fails only where the contract is broken. -/
theorem blames_look {q : Call} {α : Type} {result : Except StoreError α} {out : α → Outcome}
    (hstep : c.step q = (result.map out, c)) (hused : q.usesUp = none)
    (hcontract : ∀ e, result = .error e → e.isContractViolation = true) : Blames c q :=
  blames_answer (f := fun r => (r.1.map out, c)) (r := (result, ())) (t := ()) (fun _ => c) hstep
    (fun _ _ => ⟨_, _, rfl⟩) (fun _ _ => rfl) (refused_of_usesUp hused)
    (fun e _ he => .caller (hcontract e (congrArg Prod.fst he))) fun _ => False.elim

/-- A call that cannot fail. -/
theorem blames_ok {q : Call} {outcome : Outcome} {c' : Client ε κ ς} (hstep : c.step q = (.ok outcome, c')) :
    Blames c q := by
  intro e c'' h
  cases hstep.symm.trans h

section Child

variable {n : Nat} {fate : Fate} (hfate : fate ≠ .dropped)

include hfate

theorem blames_askCursor {cursor : Store.Cursor} (hn : c.places[n]? = some ⟨.cursor cursor, fate⟩) (q : CursorCall) :
    Blames c (.child n (.cursor q)) := by
  have hstep := step_child hn hfate (.cursor q)
  cases q with
  | move m =>
    have hset : c.places.set n ⟨.cursor cursor, fate⟩ = c.places := set_of_getElem? hn
    refine blames_answer (r := cursor.move m c.store) (t := (cursor, c.store))
      (f := fun r => (r.1.map fun _ => .done, ⟨r.2.2, c.places.set n ⟨.cursor r.2.1, fate⟩⟩))
      (fun t => ⟨t.2, c.places.set n ⟨.cursor t.1, fate⟩⟩) hstep (fun _ _ => ⟨_, _, rfl⟩) (fun _ _ => rfl) ?_
      (fun _ _ => Store.move_blame) fun _ => False.elim
    rw [hset]
    rfl
  | key => exact blames_look hstep rfl fun _ => Store.Cursor.read_error
  | value => exact blames_look hstep rfl fun _ => Store.Cursor.read_error
  | entry => exact blames_look hstep rfl fun _ => Store.Cursor.read_error

theorem blames_askBatch {b : Store.Batch} (hn : c.places[n]? = some ⟨.batch b, fate⟩) (q : BatchCall) :
    Blames c (.child n (.batch q)) := by
  have hstep := step_child hn hfate (.batch q)
  cases q with
  | add op =>
    exact blames_store (r := b.add op c.store) hstep rfl (fun _ _ => Store.add_blame) fun _ => False.elim
  | write =>
    have hset : c.places.set n ⟨.batch b, fate⟩ = c.places := set_of_getElem? hn
    refine blames_answer (r := b.write c.store) (t := (b, c.store))
      (f := fun r => (r.1.map .applied, ⟨r.2.2, c.places.set n ⟨.batch r.2.1, fate⟩⟩))
      (fun t => ⟨t.2, c.places.set n ⟨.batch t.1, fate⟩⟩) hstep (fun _ _ => ⟨_, _, rfl⟩) (fun _ _ => rfl) ?_
      (fun _ _ => Store.write_blame) fun _ ⟨_, hops, hfails⟩ => .write hn (.inl rfl) hops hfails
    rw [hset]
    rfl
  | writeAndClose =>
    -- the batch that is dropped is the one that the write has given back
    exact blames_answer (r := b.write c.store) (t := (b, c.store))
      (f := fun r => (r.1.map .applied, ⟨r.2.1.drop r.2.2, c.places.set n ⟨.batch b, .dropped⟩⟩))
      (fun t => ⟨t.1.drop t.2, c.places.set n ⟨.batch b, .dropped⟩⟩) hstep (fun _ _ => ⟨_, _, rfl⟩) (fun _ _ => rfl)
      (congrArg Prod.snd (step_child hn hfate .drop)) (fun _ _ => Store.write_blame)
      fun _ ⟨_, hops, hfails⟩ => .write hn (.inr rfl) hops hfails

theorem blames_askSnapshot {snapshot : Store.Snapshot} (hn : c.places[n]? = some ⟨.snapshot snapshot, fate⟩)
    (q : SnapshotCall) : Blames c (.child n (.snapshot q)) := by
  have hstep := step_child hn hfate (.snapshot q)
  cases q with
  | get key =>
    exact blames_store (r := snapshot.get key c.store) hstep rfl (fun _ _ => Store.getAt_blame)
      fun source ⟨view, hview, hfails⟩ => .getAt hn hview hfails
  | sequence => exact blames_look hstep rfl fun _ => Store.Snapshot.sequence_error
  | cursor =>
    exact blames_receive (r := snapshot.cursor c.store) hstep rfl (fun _ _ => Store.cursorOf_blame)
      fun _ => False.elim

end Child

theorem blames_ask {n : Nat} {place : Place} (hn : c.places[n]? = some place) (hfate : place.fate ≠ .dropped)
    (q : ChildCall) : Blames c (.child n q) := by
  obtain ⟨handle, fate⟩ := place
  cases q with
  | cursor q =>
    cases handle with
    | cursor cursor => exact blames_askCursor hfate hn q
    | batch | snapshot => exact blames_ok (step_child hn hfate _)
  | batch q =>
    cases handle with
    | batch b => exact blames_askBatch hfate hn q
    | cursor | snapshot => exact blames_ok (step_child hn hfate _)
  | snapshot q =>
    cases handle with
    | snapshot snapshot => exact blames_askSnapshot hfate hn q
    | cursor | batch => exact blames_ok (step_child hn hfate _)
  | close => exact blames_ok ((step_child hn hfate _).trans (ask_close c n _))
  | drop => exact blames_ok ((step_child hn hfate _).trans (ask_drop c n _))

/-- Every error of a call is due to the caller, and then the call is refused, or to the engine. -/
theorem blames_step (c : Client ε κ ς) (q : Call) : Blames c q := by
  cases q with
  | get key => exact blames_store (r := c.store.get key) rfl rfl (fun _ _ => Store.get_blame) fun _ => .get
  | put key value => exact blames_store (r := c.store.put key value) rfl rfl (fun _ _ => Store.put_blame) fun _ => .put
  | delete key => exact blames_store (r := c.store.delete key) rfl rfl (fun _ _ => Store.delete_blame) fun _ => .delete
  | property name =>
    exact blames_store (r := c.store.property name) rfl rfl (fun _ _ => Store.property_blame) fun _ => False.elim
  | openCursor =>
    exact blames_receive (r := c.store.cursor) rfl rfl (fun _ _ => Store.cursor_blame) fun _ => .openCursor
  | openBatch =>
    exact blames_receive (r := c.store.writeBatch) rfl rfl (fun _ _ => Store.writeBatch_blame) fun _ => False.elim
  | openSnapshot =>
    exact blames_receive (r := c.store.snapshot) rfl rfl (fun _ _ => Store.snapshot_blame) fun _ => .openSnapshot
  | child n q =>
    cases hn : c.places[n]? with
    | none => exact blames_ok (step_unmade hn q)
    | some place =>
      by_cases hfate : place.fate = .dropped
      · exact blames_ok (step_dropped hn hfate q)
      · exact blames_ask hn hfate q
  | close =>
    exact blames_store (r := c.store.close) rfl rfl (fun _ _ => Store.close_blame) fun source h => .close h.1 h.2
  | drop => exact blames_ok rfl

end Client

/-! ## Over a connection -/

/-- The log does not report itself closed when it is asked for its size or appended to. -/
structure LogStorage.Unclosed {σ : Type} [LogStorage σ] (log : σ) : Prop where
  size : LogStorage.size log ≠ .error .closed
  append (bytes : Bytes) : (LogStorage.append bytes log).1 ≠ .error .closed

section Connection

variable {σ : Type} [LogStorage σ] {connection : Connection σ}

theorem LogStorage.Unclosed.appendRecord {log : σ} (h : LogStorage.Unclosed log) (r : Record) :
    (LogStorage.appendRecord r log).1 ≠ .error .closed := by
  unfold LogStorage.appendRecord
  split
  · nofun
  · exact h.append _

/-- An open connection over such a log does not report itself closed when it is written to. -/
theorem Connection.write_ne_closed (hopen : connection.isOpen = true) (hlog : LogStorage.Unclosed connection.log)
    (w : Write) : (connection.write w).1 ≠ .error .closed := by
  obtain ⟨make, -, heq⟩ | ⟨-, heq⟩ := connection.write_eq w
  · obtain ⟨result, after, hcommit⟩ : ∃ result after, connection.commit make = (result, after) := ⟨_, _, rfl⟩
    rw [heq, hcommit]
    rcases Connection.commit_cases hcommit with ⟨hclosed, -, -⟩ | ⟨-, e, hsize, rfl, -⟩ |
      ⟨-, size, -, ⟨e, log, happend, rfl, -⟩ | ⟨offset, log, -, rfl, -⟩⟩
    · cases hopen.symm.trans hclosed
    · intro hreported
      cases hreported
      exact hlog.size hsize
    · intro hreported
      cases hreported
      exact hlog.appendRecord _ (congrArg Prod.fst happend)
    · nofun
  · rw [heq, Connection.ifOpen, if_pos hopen]
    nofun

theorem StoreError.source?_ofEngine {source : EngineError} (h : source ≠ .closed) :
    (StoreError.ofEngine source).source? = some source := by
  cases source with
  | closed => exact absurd rfl h
  | _ => rfl

theorem StoreError.source?_ofApply {source : EngineError} (h : source ≠ .closed) :
    (StoreError.ofApply source).source? = some source := by
  cases source with
  | closed => exact absurd rfl h
  | _ => rfl

theorem StoreError.not_contract_of_source? {e : StoreError} {source : EngineError} (h : e.source? = some source) :
    e.isContractViolation = false := by
  cases e with
  | openFailure | ioFailure | applyFailure => rfl
  | alreadyExists | closed | invalidCursorState | alreadyApplied => cases h

namespace Client

variable {c : OnConnection σ}

/-- What fails in the connection of an open store is reported as a failure of the engine. -/
theorem report_of_engineFails (hengine : c.store.isOpen = true → c.store.engine.isOpen = true)
    (hlog : LogStorage.Unclosed c.store.engine.log) {q : Call} {source : EngineError} (h : c.EngineFails q source) :
    (q.report source).source? = some source := by
  cases h with
  | get h =>
    obtain ⟨hopen, hget⟩ := h
    cases (Connection.get_of_isOpen (hengine hopen) _).symm.trans hget
  | @put key value _ h =>
    obtain ⟨hopen, hput⟩ := h
    have hwrite := Connection.write_ne_closed (hengine hopen) hlog (.put key value)
    exact StoreError.source?_ofEngine fun hclosed => hwrite (hclosed ▸ hput)
  | @delete key _ h =>
    obtain ⟨hopen, hdelete⟩ := h
    have hwrite := Connection.write_ne_closed (hengine hopen) hlog (.delete key)
    exact StoreError.source?_ofEngine fun hclosed => hwrite (hclosed ▸ hdelete)
  | openCursor h =>
    obtain ⟨hopen, hcursor⟩ := h
    have hok : (Connection.openCursor c.store.engine).1 = .error source := hcursor
    rw [Connection.openCursor, if_pos (hengine hopen)] at hok
    cases hok
  | openSnapshot h =>
    obtain ⟨hopen, hview⟩ := h
    have hok : (Connection.openView c.store.engine).1 = .error source := hview
    rw [Connection.openView, if_pos (hengine hopen)] at hok
    cases hok
  | @write _ _ _ _ ops _ _ _ _ h =>
    obtain ⟨hopen, happly⟩ := h
    have hwrite := Connection.write_ne_closed (hengine hopen) hlog (.apply ops)
    exact StoreError.source?_ofApply fun hclosed => hwrite (hclosed ▸ happly)
  | getAt _ _ h => cases h
  | close => rfl

/-- Any call of a client, whatever has been called and has happened to the log before, if the log does not report itself
closed. When the caller is told of a broken contract, then nothing has happened: the store is as it was, with its log
and its pins, its registry and its counters, and so are the children; only a batch that the call uses up is dropped.
When the caller is told of anything else, then the call has got to the engine, and this is the engine's error. -/
theorem broken_contract_or_engine_failure {path : Option String} {options : EngineOptions} {log : σ}
    (hopen : Connection.openOn path options log = .ok connection) (storePath : Option String) (storeOptions : Options)
    (events : List (Event (σ → σ))) :
    let c := (start (Store.ofEngine storePath storeOptions connection)).run Connection.mapLog events
    LogStorage.Unclosed c.store.engine.log → ∀ q e, (c.step q).1 = .error e →
      (e.isContractViolation = true → (q.usesUp = none → (c.step q).2 = c) ∧
        ∀ n, q.usesUp = some n → (c.step q).2 = (c.step (.child n .drop)).2) ∧
      (e.isContractViolation = false → ∃ source, c.EngineFails q source ∧ e.source? = some source) := by
  intro c hlog q e hreply
  obtain ⟨c', hstep⟩ : ∃ c', c.step q = (.error e, c') := ⟨_, Prod.ext hreply rfl⟩
  have hstart : connection.isOpen = true := by
    obtain ⟨replay, log', -, -, -, rfl⟩ := Connection.openOn_eq_ok hopen
    rfl
  have hengine : c.store.isOpen = true → c.store.engine.isOpen = true :=
    engine_run Connection.keeps_isOpen Connection.mapLog (fun _ _ h => h) (fun _ => hstart) events
  rw [hstep]
  cases blames_step c q e c' hstep with
  | caller hcontract =>
    refine ⟨fun _ => ⟨fun hused => refused_of_usesUp hused, fun n hused => ?_⟩, fun hnot => ?_⟩
    · rw [refused, hused, Option.elim_some]
    · cases hcontract.symm.trans hnot
  | engine _ hfails =>
    have hsource := report_of_engineFails hengine hlog hfails
    refine ⟨fun hcontract => ?_, fun _ => ⟨_, hfails, hsource⟩⟩
    cases hcontract.symm.trans (StoreError.not_contract_of_source? hsource)

/-- On a full disk, a cursor that has not been moved is read, a batch that has been written is filled, a key is put. -/
theorem broken_contract_or_engine_failure_full :
    let log : FaultyLog := { log := ⟨[66, 76, 79, 71, 1, 0, 1, 18, 0, 0, 0, 7, 0, 0, 0, 0, 0, 0, 0, 1, 0, 0, 0, 97, 1,
      0, 0, 0, 1, 225, 104, 124, 77]⟩ }
    let connection : Connection FaultyLog := ⟨none, {}, .ofRecords [.put 7 [97] [1]], log, true⟩
    let full : EngineError := .io (.reported "full")
    let events : List (Event (FaultyLog → FaultyLog)) := [.call .openCursor, .call .openBatch,
      .call (.child 1 (.batch (.add (.delete [97])))), .call (.child 1 (.batch .write)),
      .change (·.setFault .append (some ⟨full, 2⟩))]
    let c := (start (Store.ofEngine none {} connection)).run Connection.mapLog events
    Connection.openOn none {} log = .ok connection ∧
      (c.step (.child 0 (.cursor .key))).1 = .error (.invalidCursorState "key" .unset) ∧
      (c.step (.child 0 (.cursor .key))).2 = c ∧
      (c.step (.child 1 (.batch (.add (.put [98] [2]))))).1 = .error .alreadyApplied ∧
      (c.step (.child 1 (.batch (.add (.put [98] [2]))))).2 = c ∧
      (c.step (.put [98] [2])).1 = .error (.ioFailure full) ∧ c.EngineFails (.put [98] [2]) full := by
  intro log connection full events c
  have hopen : Connection.openOn none {} log = .ok connection :=
    Connection.openOn_encodeLog (by decide +kernel) rfl (by decide)
  have hfault : c.store.engine.log.faults .append = some ⟨full, 2⟩ := by decide +kernel
  have hlog : LogStorage.Unclosed c.store.engine.log := by
    refine ⟨by decide +kernel, fun bytes => ?_⟩
    show (FaultyLog.append bytes c.store.engine.log).1 ≠ _
    rw [FaultyLog.append, hfault]
    intro hreported
    cases hreported
  have hrun := broken_contract_or_engine_failure hopen none {} events hlog
  have hunset : (c.step (.child 0 (.cursor .key))).1 = .error (.invalidCursorState "key" .unset) := by decide +kernel
  have hwritten : (c.step (.child 1 (.batch (.add (.put [98] [2]))))).1 = .error .alreadyApplied := by decide +kernel
  have hfull : (c.step (.put [98] [2])).1 = .error (.ioFailure full) := by decide +kernel
  obtain ⟨source, hfails, hsource⟩ := (hrun _ _ hfull).2 rfl
  obtain rfl : full = source := Option.some.inj hsource
  exact ⟨hopen, hunset, ((hrun _ _ hunset).1 rfl).1 rfl, hwritten, ((hrun _ _ hwritten).1 rfl).1 rfl, hfull, hfails⟩

end Client

end Connection

end OrderedStore
