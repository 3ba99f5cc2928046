import OrderedStore.Proofs.Recovery
import OrderedStore.Proofs.Store

/-!
# Children are accounted for

A store accounts for its children in every state that its client can reach, so the children, the registry and
the pins of the connection say the same.

* `Client.accounted_step`, `Client.accounted_run`: every call keeps the account, and only closing and dropping
  end a store;
* `Client.ask_of_closed`: the children of a closed store refuse every call;
* `Client.children_accounted`: what this says of live children, registered children and pins.
-/

namespace OrderedStore

namespace Client

/-- A client of a store over a connection. -/
abbrev OnConnection (σ : Type) := Client (Connection σ) Timeline.Cursor Timeline.View

/-- The store is open or closed as `isOpen` says, and accounts for the children of the client. -/
def Accounted {σ : Type} (c : OnConnection σ) (isOpen : Bool) : Prop := c.store.Accounted isOpen c.places

variable {σ : Type} {c : OnConnection σ} {isOpen : Bool}

theorem accounted_receive (h : c.Accounted isOpen)
    {r : Except StoreError Handle × Store.OnConnection σ} (hr : c.store.Opens r) :
    (c.receive r).2.Accounted isOpen := by
  cases hr with
  | refused e => exact h
  | @opened engine _ _ held hopen htimeline _ hentry hsteady =>
    have hisOpen : isOpen = true := h.status.symm.trans hopen
    have hpins : engine.timeline.pins.pinned = held.seq?.toList ++ c.store.engine.timeline.pins.pinned := by
      rw [htimeline]
      cases held <;> rfl
    subst hisOpen
    exact Store.Accounted.adopt h hpins hentry hsteady

variable [LogStorage σ]

theorem accounted_ask (h : c.Accounted isOpen) {n : Nat} {place : Place} (hn : c.places[n]? = some place)
    (hfate : place.fate ≠ .dropped) (q : ChildCall) : (c.ask n place q).2.Accounted isOpen := by
  unfold ask
  split
  · rename_i cursor q hcursor
    cases q with
    | move m => exact Store.Accounted.move h hn hcursor m
    | key | value | entry => exact h
  · rename_i b q hb
    cases q with
    | add op => exact Store.Accounted.add h op b
    | write => exact Store.Accounted.write h hn hb
    | writeAndClose => exact Store.Accounted.writeAndClose h hn hfate hb
  · rename_i snapshot q _
    cases q with
    | get key =>
      show (snapshot.get key c.store).2.Accounted isOpen c.places
      rw [Store.Snapshot.get]
      split <;> exact h
    | sequence => exact h
    | cursor => exact accounted_receive h (Store.opens_cursorOf snapshot c.store)
  · exact Store.Accounted.closeChild h hn hfate
  · exact Store.Accounted.dropChild h hn hfate
  · exact h

/-- A call keeps the account, and leaves the store open unless it is its end. -/
theorem accounted_step (h : c.Accounted isOpen) (q : Call) : (c.step q).2.Accounted (!q.ends && isOpen) := by
  cases q with
  | get key =>
    have hcall : (c.store.call (Engine.get key)).2.Accounted isOpen c.places := Store.Accounted.call h rfl
    exact hcall.count fun value counters => counters.countRead (.ofNat (value.elim 0 List.length))
  | put key value =>
    have hcall : (c.store.call (Engine.put key value)).2.Accounted isOpen c.places :=
      Store.Accounted.call h (c.store.engine.pins_write (.put key value))
    exact hcall.count fun _ counters => counters.countWrite (.ofNat (key.length + value.length))
  | delete key =>
    have hcall : (c.store.call (Engine.delete key)).2.Accounted isOpen c.places :=
      Store.Accounted.call h (c.store.engine.pins_write (.delete key))
    exact hcall.count fun _ counters => counters.countDelete
  | property name =>
    show (c.store.property name).2.Accounted isOpen c.places
    exact Store.Accounted.call h rfl
  | openCursor => exact accounted_receive h (Store.opens_cursor c.store)
  | openBatch => exact accounted_receive h (Store.opens_writeBatch c.store)
  | openSnapshot => exact accounted_receive h (Store.opens_snapshot c.store)
  | child n q =>
    unfold step
    dsimp only
    split
    · exact h
    · rename_i place hn
      split
      · exact h
      · rename_i hfate
        exact accounted_ask h hn hfate q
  | close => exact Store.Accounted.close h
  | drop => exact Store.Accounted.close h

/-- So does every event, whatever happens to the log. -/
theorem accounted_next (h : c.Accounted isOpen) (event : Event (σ → σ)) :
    (c.next Connection.mapLog event).Accounted (!event.ends && isOpen) := by
  cases event with
  | call q => exact accounted_step h q
  | change f => exact Store.Accounted.congr h rfl rfl rfl rfl

/-- Every state of a client is accounted for, and the store is open until it is closed or dropped. -/
theorem accounted_run (h : c.Accounted isOpen) (events : List (Event (σ → σ))) :
    (c.run Connection.mapLog events).Accounted (!events.any Event.ends && isOpen) := by
  induction events generalizing c isOpen with
  | nil => exact h
  | cons event events ih =>
    rw [List.any_cons, Bool.not_or, Bool.and_comm (!event.ends), Bool.and_assoc]
    exact ih (accounted_next h event)

/-- A child of a closed store refuses everything that a child of its kind is asked. -/
theorem ask_of_closed (h : c.Accounted false) {n : Nat} {place : Place}
    (hn : c.places[n]? = some place) {q : ChildCall} (hkind : q.kind? = some place.handle.kind) :
    (c.ask n place q).1 = .error (.closed place.handle.kind) := by
  have hget := Store.Accounted.get?_of_closed h hn
  obtain ⟨handle, fate⟩ := place
  cases handle with
  | cursor cursor =>
    have hnone : c.store.cursor? cursor.token = none := Store.cursor?_of_get? hget
    cases q with
    | cursor q =>
      cases q with
      | move m =>
        show (cursor.move m c.store).1.map _ = _
        rw [Store.Cursor.move_of_closed hnone]
        rfl
      | key | value | entry => exact congrArg (Except.map _) (Store.Cursor.read_of_closed hnone ..)
    | batch q | snapshot q | close | drop => cases hkind
  | batch b =>
    have hnone : c.store.batch? b.token = none := Store.batch?_of_get? hget
    have hwrite : b.write c.store = (.error (.closed .batch), b, c.store) := by rw [Store.Batch.write, hnone]
    cases q with
    | batch q =>
      cases q with
      | add op =>
        show (b.add op c.store).1.map _ = _
        rw [Store.Batch.add, hnone]
        rfl
      | write =>
        show (b.write c.store).1.map _ = _
        rw [hwrite]
        rfl
      | writeAndClose =>
        show (b.writeAndClose c.store).1.map _ = _
        rw [Store.Batch.writeAndClose, hwrite]
        rfl
    | cursor q | snapshot q | close | drop => cases hkind
  | snapshot snapshot =>
    have hnone : c.store.snapshot? snapshot.token = none := Store.snapshot?_of_get? hget
    cases q with
    | snapshot q =>
      cases q with
      | get key =>
        show (snapshot.get key c.store).1.map _ = _
        rw [Store.Snapshot.get, hnone]
        rfl
      | sequence =>
        show (snapshot.sequence c.store).map _ = _
        rw [Store.Snapshot.sequence, hnone]
        rfl
      | cursor =>
        have hcursor : snapshot.cursor c.store = (.error (.closed .snapshot), c.store) := by
          rw [Store.Snapshot.cursor, h.status]
          rfl
        show (c.receive ((snapshot.cursor c.store).1.map .cursor, (snapshot.cursor c.store).2)).1 = _
        rw [hcursor]
        rfl
    | cursor q | batch q | close | drop => cases hkind

omit [LogStorage σ] in
theorem exists_ends_iff (events : List (Event (σ → σ))) :
    (∃ event ∈ events, event.ends = true) ↔ Event.call .close ∈ events ∨ Event.call .drop ∈ events := by
  constructor
  · rintro ⟨event, hmem, hends⟩
    rcases event with q | f
    · cases q with
      | close => exact .inl hmem
      | drop => exact .inr hmem
      | _ => cases hends
    · cases hends
  · rintro (hmem | hmem)
    · exact ⟨_, hmem, rfl⟩
    · exact ⟨_, hmem, rfl⟩

/-- A store over a connection that has just been opened has no children, and the connection has no pins. -/
theorem accounted_start {path : Option String} {options : EngineOptions} {log : σ} {connection : Connection σ}
    (hopen : Connection.openOn path options log = .ok connection) (storePath : Option String) (storeOptions : Options) :
    (start (Store.ofEngine storePath storeOptions connection)).Accounted true := by
  obtain ⟨replay, log', -, -, -, rfl⟩ := Connection.openOn_eq_ok hopen
  exact Store.accounted_ofEngine storePath storeOptions (Timeline.pins_ofRecords replay.records)

/-- Whatever a client calls, and whatever happens to the log. While its store is open, just the children that are
neither closed nor dropped report themselves live, the registry has one entry for each of them, under a number of its
own and with a live token, and the connection keeps one pin for each live cursor and each live snapshot. A store that
is closed or dropped has no live children and no pins; its children refuse every call, and closing them again changes
nothing. -/
theorem children_accounted {path : Option String} {options : EngineOptions} {log : σ} {connection : Connection σ}
    (hopen : Connection.openOn path options log = .ok connection) (storePath : Option String) (storeOptions : Options)
    (events : List (Event (σ → σ))) :
    let c := (start (Store.ofEngine storePath storeOptions connection)).run Connection.mapLog events
    let s := c.store
    (s.isOpen = false ↔ Event.call .close ∈ events ∨ Event.call .drop ∈ events) ∧
      (s.isOpen = true →
        (∀ place ∈ c.places, place.handle.isLive s = true ↔ place.fate = .inUse) ∧
          s.registry.children.Perm ((c.places.filter (·.handle.isLive s)).map (·.handle.entry)) ∧
          (s.registry.children.map Child.id).Nodup ∧
          (∀ child ∈ s.registry.children, s.tokens.isLive child.token = true) ∧
          (∀ kind, s.registry.live kind = c.places.countP fun p => p.handle.kind = kind ∧ p.handle.isLive s = true) ∧
          s.engine.timeline.pins.size = s.registry.live .cursor + s.registry.live .snapshot) ∧
      (s.isOpen = false →
        (∀ place ∈ c.places, place.handle.isLive s = false) ∧
          s.liveChildren = (0, 0, 0) ∧ s.engine.timeline.pins.size = 0 ∧
          (∀ n place q, c.places[n]? = some place → place.fate ≠ .dropped → q.kind? = some place.handle.kind →
            (c.step (.child n q)).1 = .error (.closed place.handle.kind)) ∧
          ∀ place ∈ c.places, place.handle.close s = s) := by
  intro c s
  have h : c.Accounted (!events.any Event.ends && true) :=
    accounted_run (accounted_start hopen storePath storeOptions) events
  refine ⟨?_, fun hisOpen => ?_, fun hclosed => ?_⟩
  · rw [h.status, Bool.and_true, Bool.not_eq_false', List.any_eq_true]
    exact exists_ends_iff events
  · have hlive : s.Accounted true c.places := by rwa [← h.status, hisOpen] at h
    refine ⟨fun place hplace => ?_, hlive.children_perm, hlive.nodup_ids, fun child => hlive.isLive_token,
      hlive.live_eq_countP, hlive.size_pins⟩
    rw [hlive.isLive_iff hplace]
    exact and_iff_right rfl
  · have hgone : s.Accounted false c.places := by rwa [← h.status, hclosed] at h
    refine ⟨fun place hplace => ?_, ?_, hgone.size_pins_of_closed, fun n place q hn hfate hkind => ?_,
      fun place hplace => ?_⟩
    · rw [← Bool.not_eq_true, hgone.isLive_iff hplace]
      exact fun hlive => Bool.false_ne_true hlive.1
    · rw [Store.liveChildren, Registry.live, Registry.live, Registry.live, hgone.children_of_closed]
      rfl
    · rw [step_child hn hfate]
      exact ask_of_closed hgone hn hkind
    · obtain ⟨n, hn⟩ := List.getElem?_of_mem hplace
      exact hgone.closeChild_of_closed hn

/-- A snapshot hands out a cursor and is closed, a batch is written, another cursor moves and is dropped; then the
store is closed. -/
theorem children_accounted_recovered :
    let log : MemoryLog := ⟨[66, 76, 79, 71, 1, 0, 1, 18, 0, 0, 0, 7, 0, 0, 0, 0, 0, 0, 0, 1, 0, 0, 0, 97, 1, 0, 0, 0,
      1, 225, 104, 124, 77]⟩
    let connection : Connection MemoryLog := ⟨none, {}, .ofRecords [.put 7 [97] [1]], log, true⟩
    let calls : List (Event (MemoryLog → MemoryLog)) := [.openSnapshot, .child 0 (.snapshot .cursor), .openBatch,
      .child 2 (.batch (.add (.delete [97]))), .child 2 (.batch .write), .child 0 .close, .openCursor,
      .child 3 (.cursor (.move .first)), .child 3 .drop].map .call
    Connection.openOn none {} log = .ok connection ∧
      ((start (Store.ofEngine none {} connection)).run Connection.mapLog calls).store.isOpen = true ∧
      ((start (Store.ofEngine none {} connection)).run Connection.mapLog calls).store.registry.live .cursor = 1 ∧
      ((start (Store.ofEngine none {} connection)).run Connection.mapLog calls).store.engine.timeline.pins.size = 1 ∧
      ((start (Store.ofEngine none {} connection)).run Connection.mapLog (calls ++ [.call .close])).store.liveChildren =
        (0, 0, 0) := by
  intro log connection calls
  have hopen : Connection.openOn none {} log = .ok connection :=
    Connection.openOn_encodeLog (by decide +kernel) rfl (by decide)
  have hisOpen : ((start (Store.ofEngine none {} connection)).run Connection.mapLog calls).store.isOpen = true := by
    decide +kernel
  have hcursors : ((start (Store.ofEngine none {} connection)).run Connection.mapLog calls).store.registry.live
      .cursor = 1 := by
    decide +kernel
  have hsnapshots : ((start (Store.ofEngine none {} connection)).run Connection.mapLog calls).store.registry.live
      .snapshot = 0 := by
    decide +kernel
  have hpins := ((children_accounted hopen none {} calls).2.1 hisOpen).2.2.2.2.2
  have hends := children_accounted hopen none {} (calls ++ [.call .close])
  have hclosed := hends.1.mpr (.inl (List.mem_append_right _ (List.mem_singleton_self _)))
  rw [hcursors, hsnapshots] at hpins
  exact ⟨hopen, hisOpen, hcursors, hpins, (hends.2.2 hclosed).2.1⟩

end Client

end OrderedStore
