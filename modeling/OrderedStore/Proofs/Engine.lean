import OrderedStore.Proofs.Holdings

/-!
# What the engine of an open store keeps

What every call of an engine but closing keeps is kept by everything that a client does, until its store is closed.

* `Engine.Keeps`: what calls of an engine keep;
* `Store.Stays`: a change that leaves a store open or closed, and keeps this of its engine;
* `Client.stays_step`: every call that is not the end of the store; `Client.engine_run`: every run;
* `Connection.keeps_isOpen`: an open connection stays open.
-/

namespace OrderedStore

open Client

/-- Calls of an engine, other than closing it, keep `P`. -/
structure Engine.Keeps {ε κ ς : Type} [Engine ε κ ς] (P : ε → Prop) : Prop where
  get (key : Bytes) {engine : ε} : P engine → P (Engine.get key engine).2
  put (key value : Bytes) {engine : ε} : P engine → P (Engine.put key value engine).2
  delete (key : Bytes) {engine : ε} : P engine → P (Engine.delete key engine).2
  apply (ops : List Operation) {engine : ε} : P engine → P (Engine.apply ops engine).2
  property (name : String) {engine : ε} : P engine → P (Engine.property name engine).2
  openCursor {engine : ε} : P engine → P (Engine.openCursor engine).2
  openView {engine : ε} : P engine → P (Engine.openView engine).2
  move (m : Move) (raw : κ) {engine : ε} : P engine → P (Engine.move m raw engine).2
  dropCursor (raw : κ) {engine : ε} : P engine → P (Engine.dropCursor raw engine)
  getAt (view : ς) (key : Bytes) {engine : ε} : P engine → P (Engine.getAt view key engine).2
  cursorAt (view : ς) {engine : ε} : P engine → P (Engine.cursorAt view engine).2
  dropView (view : ς) {engine : ε} : P engine → P (Engine.dropView view engine)

theorem Connection.keeps_isOpen {σ : Type} [LogStorage σ] :
    Engine.Keeps fun connection : Connection σ => connection.isOpen = true where
  get _ _ h := h
  put key value connection h := (Connection.timeline_write (w := .put key value) rfl).1.trans h
  delete key connection h := (Connection.timeline_write (w := .delete key) rfl).1.trans h
  apply ops connection h := (Connection.timeline_write (w := .apply ops) rfl).1.trans h
  property _ _ h := h
  openCursor {connection} h := by
    show (Connection.openCursor connection).2.isOpen = true
    rw [Connection.openCursor, if_pos h]
    exact h
  openView {connection} h := by
    show (Connection.openView connection).2.isOpen = true
    rw [Connection.openView, if_pos h]
    exact h
  move _ _ _ h := h
  dropCursor _ _ h := h
  getAt _ _ _ h := h
  cursorAt _ _ h := h
  dropView _ _ h := h

namespace Store

variable {ε κ ς : Type} {P : ε → Prop} {s s' s'' : Store ε κ ς}

/-! ## Changes of a store -/

/-- The store is open or closed as it was, and its engine keeps `P`. -/
structure Stays (P : ε → Prop) (s s' : Store ε κ ς) : Prop where
  isOpen : s'.isOpen = s.isOpen
  engine : P s.engine → P s'.engine

theorem stays_refl : Stays P s s := ⟨rfl, id⟩

theorem Stays.trans (h : Stays P s s') (h' : Stays P s' s'') : Stays P s s'' :=
  ⟨h'.isOpen.trans h.isOpen, h'.engine ∘ h.engine⟩

theorem Asks.stays {α : Type} {f : ε → Except EngineError α × ε} {counters : Counters}
    {r : Except StoreError α × Store ε κ ς} (h : s.Asks f counters r) (hf : P s.engine → P (f s.engine).2) :
    Stays P s r.2 := by
  cases h with
  | closed => exact stays_refl
  | done hengine | failed _ hengine =>
    rw [hengine] at hf
    exact ⟨rfl, hf⟩

theorem Stays.count {α : Type} {r : Except StoreError α × Store ε κ ς} (h : Stays P s r.2)
    (note : α → Counters → Counters) : Stays P s (Store.count note r).2 := by
  unfold Store.count
  split
  · exact h.trans ⟨rfl, id⟩
  · exact h

variable [Engine ε κ ς] (hP : Engine.Keeps P)

include hP

theorem stays_get (key : Bytes) : Stays P s (s.get key).2 :=
  ((s.asks_call (Engine.get key)).stays (hP.get key)).count _

theorem stays_put (key value : Bytes) : Stays P s (s.put key value).2 :=
  ((s.asks_call (Engine.put key value)).stays (hP.put key value)).count _

theorem stays_delete (key : Bytes) : Stays P s (s.delete key).2 :=
  ((s.asks_call (Engine.delete key)).stays (hP.delete key)).count _

theorem stays_property (name : String) : Stays P s (s.property name).2 := (s.asks_call _).stays (hP.property name)

theorem stays_release (token : TokenId) : Stays P s (s.release token) := by
  unfold Store.release
  split
  · exact stays_refl
  · exact ⟨rfl, hP.dropCursor _⟩
  · exact ⟨rfl, id⟩
  · exact ⟨rfl, hP.dropView _⟩

theorem stays_forget (token : TokenId) (id : Nat) : Stays P s (s.forget token id) :=
  (stays_release hP token).trans ⟨rfl, fun h => h⟩

theorem stays_discard (token : TokenId) (id : Nat) : Stays P s (s.discard token id) :=
  (stays_forget hP token id).trans ⟨rfl, fun h => h⟩

theorem stays_cursor : Stays P s s.cursor.2 := by
  have hrequest : Stays P s (s.request Engine.openCursor).2 := (s.asks_request _).stays hP.openCursor
  unfold Store.cursor
  split
  all_goals
    rename_i hcall
    rw [hcall] at hrequest
    exact hrequest.trans ⟨rfl, id⟩

theorem stays_snapshot : Stays P s s.snapshot.2 := by
  have hrequest : Stays P s (s.request Engine.openView).2 := (s.asks_request _).stays hP.openView
  unfold Store.snapshot
  split
  all_goals
    rename_i hcall
    rw [hcall] at hrequest
    exact hrequest.trans ⟨rfl, id⟩

theorem stays_cursorOf (n : Store.Snapshot) : Stays P s (n.cursor s).2 := by
  unfold Snapshot.cursor
  split
  · exact stays_refl
  · split
    · exact stays_refl
    · exact ⟨rfl, hP.cursorAt _⟩

theorem stays_getAt (key : Bytes) (n : Store.Snapshot) : Stays P s (n.get key s).2 := by
  unfold Snapshot.get
  split
  · exact stays_refl
  · exact ⟨rfl, hP.getAt _ key⟩

theorem stays_move (m : Move) (c : Store.Cursor) : Stays P s (c.move m s).2.2 := by
  unfold Cursor.move
  split
  · exact stays_refl
  · unfold Cursor.step
    split
    · exact stays_refl
    · exact ⟨rfl, hP.move m _⟩

omit hP [Engine ε κ ς] in
theorem stays_writeBatch : Stays P s s.writeBatch.2 := by
  unfold Store.writeBatch
  split
  · exact stays_refl
  · exact ⟨rfl, id⟩

omit hP [Engine ε κ ς] in
theorem stays_add (op : Operation) (b : Store.Batch) : Stays P s (b.add op s).2 := by
  obtain ⟨e, hadd⟩ | ⟨ops, -, hadd⟩ := Batch.add_cases op b s
  · rw [hadd]
    exact stays_refl
  · rw [hadd]
    exact ⟨rfl, id⟩

theorem stays_write (b : Store.Batch) : Stays P s (b.write s).2.2 := by
  have hengine : ∀ {ops result engine}, Engine.apply ops s.engine = (result, engine) → P s.engine → P engine := by
    intro ops result engine hresult h
    have happly := hP.apply ops h
    rwa [hresult] at happly
  have hwrites := Batch.writes b s
  generalize b.write s = written at hwrites ⊢
  cases hwrites with
  | closed | again | storeClosed => exact stays_refl
  | engineClosed _ _ _ hresult => exact ⟨rfl, hengine hresult⟩
  | applied _ _ _ hresult => exact ⟨rfl, hengine hresult⟩
  | failed _ _ _ hresult => exact ⟨rfl, hengine hresult⟩

omit hP in
theorem isOpen_close (s : Store ε κ ς) : s.close.2.isOpen = false := by
  unfold Store.close
  split
  · rename_i hclosed
    exact Bool.not_eq_true' _ ▸ hclosed
  · dsimp only
    split <;> rfl

end Store

namespace Client

variable {ε κ ς δ : Type} [Engine ε κ ς] {P : ε → Prop} {c : Client ε κ ς}

/-! ## Calls and runs -/

omit [Engine ε κ ς] in
theorem stays_receive {r : Except StoreError Handle × Store ε κ ς} (h : c.store.Stays P r.2) :
    c.store.Stays P (c.receive r).2.store := by
  unfold receive
  split <;> exact h

theorem stays_ask (hP : Engine.Keeps P) (c : Client ε κ ς) (n : Nat) (place : Place) (q : ChildCall) :
    c.store.Stays P (c.ask n place q).2.store := by
  unfold ask
  split
  · rename_i cursor q _
    cases q with
    | move m => exact Store.stays_move hP m cursor
    | key | value | entry => exact Store.stays_refl
  · rename_i b q _
    cases q with
    | add op => exact Store.stays_add op b
    | write => exact Store.stays_write hP b
    | writeAndClose => exact (Store.stays_write hP b).trans (Store.stays_discard hP _ _)
  · rename_i snapshot q _
    cases q with
    | get key => exact Store.stays_getAt hP key snapshot
    | sequence => exact Store.stays_refl
    | cursor => exact stays_receive (Store.stays_cursorOf hP snapshot)
  · rw [Handle.close_eq]
    exact Store.stays_forget hP _ _
  · rw [Handle.drop_eq]
    exact Store.stays_discard hP _ _
  · exact Store.stays_refl

theorem stays_step (hP : Engine.Keeps P) {q : Call} (hends : q.ends = false) :
    c.store.Stays P (c.step q).2.store := by
  cases q with
  | get key => exact Store.stays_get hP key
  | put key value => exact Store.stays_put hP key value
  | delete key => exact Store.stays_delete hP key
  | property name => exact Store.stays_property hP name
  | openCursor => exact stays_receive (Store.stays_cursor hP)
  | openBatch => exact stays_receive Store.stays_writeBatch
  | openSnapshot => exact stays_receive (Store.stays_snapshot hP)
  | child n q =>
    cases hn : c.places[n]? with
    | none =>
      rw [step_unmade hn]
      exact Store.stays_refl
    | some place =>
      by_cases hfate : place.fate = .dropped
      · rw [step_dropped hn hfate]
        exact Store.stays_refl
      · rw [step_child hn hfate]
        exact stays_ask hP c n place q
  | close | drop => cases hends

/-- A call that is the end of a store closes it. -/
theorem isOpen_step_of_ends {q : Call} (hends : q.ends = true) : (c.step q).2.store.isOpen = false := by
  cases q with
  | close | drop => exact c.store.isOpen_close
  | _ => cases hends

/-- While the store is open, its engine has what every call but closing, and every change from outside, keeps. -/
theorem engine_run (hP : Engine.Keeps P) (act : δ → ε → ε) (hact : ∀ d engine, P engine → P (act d engine))
    (h : c.store.isOpen = true → P c.store.engine) (events : List (Event δ)) :
    (c.run act events).store.isOpen = true → P (c.run act events).store.engine := by
  induction events generalizing c with
  | nil => exact h
  | cons event events ih =>
    refine ih fun hopen => ?_
    cases event with
    | call q =>
      cases hends : q.ends with
      | true => exact absurd hopen (by rw [next, isOpen_step_of_ends hends]; exact Bool.false_ne_true)
      | false =>
        have hstays : c.store.Stays P (c.step q).2.store := stays_step hP hends
        exact hstays.engine (h (hstays.isOpen.symm.trans hopen))
    | change d => exact hact d _ (h hopen)

end Client

end OrderedStore
