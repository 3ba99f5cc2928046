import OrderedStore.Proofs.Children

/-!
# What the calls of a store can do

The calls of a store over a connection and of its children, each with its outcomes, and what they do to the
account of the children.

* `Store.Asks`: a call that only goes to the engine; `Accounted.call`: what it does to the account;
* `Store.Opens`: an attempt to make a child, which is refused or adopts one;
* `Cursor.move_cases`, `Batch.add_cases`, `Batch.Writes`: what children are asked;
* `Accounted.get?_of_closed`, `Accounted.closeChild_of_closed`: what is left of the children of a closed store.
-/

namespace OrderedStore

open Client

/-- Writing has nothing to do with the pins. -/
theorem Connection.pins_write {σ : Type} [LogStorage σ] (c : Connection σ) (w : Write) :
    (c.write w).2.timeline.pins = c.timeline.pins := by
  obtain ⟨result, c', hw⟩ : ∃ result c', c.write w = (result, c') := ⟨_, _, rfl⟩
  obtain ⟨-, ⟨e, -, ht⟩ | ⟨-, -, ht⟩ | ⟨-, r, -, ht⟩⟩ := Connection.timeline_write hw
  all_goals rw [hw, ht]
  rfl

namespace Store

/-- What a call comes to that only goes to the engine with `f`, and leaves `counters` if the engine fails. -/
inductive Asks {ε κ ς α : Type} (s : Store ε κ ς) (f : ε → Except EngineError α × ε) (counters : Counters) :
    Except StoreError α × Store ε κ ς → Prop where
  | closed (hclosed : s.isOpen = false) : Asks s f counters (.error (.closed .store), s)
  | done {a : α} {engine : ε} (hengine : f s.engine = (.ok a, engine)) : Asks s f counters (.ok a, { s with engine })
  | failed {e : EngineError} {engine : ε} (hopen : s.isOpen = true) (hengine : f s.engine = (.error e, engine)) :
      Asks s f counters (.error (.ofEngine e), { s with engine, counters })

theorem asks_call {ε κ ς α : Type} (s : Store ε κ ς) (f : ε → Except EngineError α × ε) :
    s.Asks f s.counters.countError (s.call f) := by
  unfold Store.call
  split
  · rename_i hclosed
    exact .closed (Bool.not_eq_true' _ ▸ hclosed)
  · rename_i hnot
    have hopen : s.isOpen = true := by simpa using hnot
    split
    · rename_i hengine
      exact .done hengine
    · rename_i hengine
      exact .failed hopen hengine

/-- A failure to give a reader is not counted. -/
theorem asks_request {ε κ ς α : Type} (s : Store ε κ ς) (f : ε → Except EngineError α × ε) :
    s.Asks f s.counters (s.request f) := by
  unfold Store.request
  split
  · rename_i hclosed
    exact .closed (Bool.not_eq_true' _ ▸ hclosed)
  · rename_i hnot
    have hopen : s.isOpen = true := by simpa using hnot
    split
    · rename_i hengine
      exact .done hengine
    · rename_i hengine
      exact .failed hopen hengine

variable {σ : Type} {s : OnConnection σ} {isOpen : Bool} {places : List Place}

/-! ## Calls that have nothing to do with children -/

theorem Accounted.engine (h : s.Accounted isOpen places) {c : Connection σ}
    (hpins : c.timeline.pins = s.engine.timeline.pins) (counters : Counters) :
    ({ s with engine := c, counters := counters } : OnConnection σ).Accounted isOpen places :=
  h.congr rfl rfl rfl hpins

theorem Accounted.call (h : s.Accounted isOpen places) {α : Type}
    {f : Connection σ → Except EngineError α × Connection σ}
    (hpins : (f s.engine).2.timeline.pins = s.engine.timeline.pins) : (s.call f).2.Accounted isOpen places := by
  have hasks := s.asks_call f
  generalize s.call f = called at hasks ⊢
  cases hasks with
  | closed => exact h
  | done hengine | failed _ hengine =>
    rw [hengine] at hpins
    exact h.engine hpins _

theorem Accounted.count {α : Type} {r : Except StoreError α × OnConnection σ}
    (h : r.2.Accounted isOpen places) (note : α → Counters → Counters) :
    (Store.count note r).2.Accounted isOpen places := by
  unfold Store.count
  split
  · exact h.engine rfl _
  · exact h

/-! ## What tokens hold -/

theorem get?_of_cursor? {ε κ ς : Type} {s : Store ε κ ς} {token : TokenId} {raw : κ} (h : s.cursor? token = some raw) :
    s.tokens.get? token = some (.cursor raw) := by
  unfold cursor? at h
  split at h
  · rename_i hget
    rw [hget, Option.some.inj h]
  · cases h

theorem get?_of_batch? {ε κ ς : Type} {s : Store ε κ ς} {token : TokenId} {ops : List Operation}
    (h : s.batch? token = some ops) :
    s.tokens.get? token = some (.batch ops) := by
  unfold batch? at h
  split at h
  · rename_i hget
    rw [hget, Option.some.inj h]
  · cases h

theorem get?_of_snapshot? {token : TokenId} {view : Timeline.View} (h : s.snapshot? token = some view) :
    s.tokens.get? token = some (.snapshot view) := by
  unfold snapshot? at h
  split at h
  · rename_i hget
    rw [hget, Option.some.inj h]
  · cases h

/-! ## New children -/

/-- An attempt to make a child: it is refused and nothing changes, or an open store has a new child. If it reads, it is
pinned, at the last commit or where another reader is; if it is a batch, it holds nothing. -/
inductive Opens (s : OnConnection σ) : Except StoreError Handle × OnConnection σ → Prop where
  | refused (e : StoreError) : Opens s (.error e, s)
  | opened {engine : Connection σ} {counters : Counters} {handle : Handle} (held : Held Timeline.Cursor Timeline.View)
      (hopen : s.isOpen = true)
      (htimeline : engine.timeline = held.seq?.elim s.engine.timeline s.engine.timeline.pin)
      (hseq : ∀ seq, held.seq? = some seq → seq = s.engine.timeline.sequence ∨
        ∃ n reader, s.tokens.get? n = some reader ∧ reader.seq? = some seq)
      (hentry : handle.entry = ⟨s.registry.lastId + 1, held.kind, s.tokens.slots.length⟩) (hsteady : handle.Steady)
      (hempty : ∀ b, handle = .batch b → b.progress = .pending ∧ held = .batch []) :
      Opens s (.ok handle,
        (({ s with engine := engine, counters := counters } : OnConnection σ).adopt held.kind held).2.2)

/-- A store that is asked for a reader is closed, or its connection is, or it pins the last commit. -/
theorem request_cases (s : OnConnection σ) {α : Type}
    {f : Connection σ → Except EngineError α × Connection σ} {a : α}
    (hf : f s.engine = if s.engine.isOpen then
      (.ok a, { s.engine with timeline := s.engine.timeline.pin s.engine.sequence }) else (.error .closed, s.engine)) :
    (∃ e, s.request f = (.error e, s)) ∨
      s.isOpen = true ∧ s.request f =
        (.ok a, { s with engine := { s.engine with timeline := s.engine.timeline.pin s.engine.sequence } }) := by
  rw [Store.request, hf]
  split
  · exact .inl ⟨_, rfl⟩
  · rename_i hnot
    have hopen : s.isOpen = true := by simpa using hnot
    by_cases hengine : s.engine.isOpen = true
    · rw [if_pos hengine]
      exact .inr ⟨hopen, rfl⟩
    · rw [if_neg hengine]
      exact .inl ⟨_, rfl⟩

variable [LogStorage σ]

theorem opens_cursor (s : OnConnection σ) : Opens s (s.cursor.1.map .cursor, s.cursor.2) := by
  have hcases := s.request_cases (f := Engine.openCursor) (a := .start s.engine.sequence) rfl
  rw [Store.cursor]
  rcases hcases with ⟨e, hrequest⟩ | ⟨hopen, hrequest⟩
  · rw [hrequest]
    exact .refused e
  · rw [hrequest]
    exact .opened (.cursor (.start s.engine.sequence)) hopen rfl (fun _ hseq => .inl (Option.some.inj hseq).symm) rfl
      (fun h => nomatch h) (fun _ h => nomatch h)

theorem opens_snapshot (s : OnConnection σ) : Opens s (s.snapshot.1.map .snapshot, s.snapshot.2) := by
  have hcases := s.request_cases (f := Engine.openView) (a := ⟨s.engine.sequence⟩) rfl
  rw [Store.snapshot]
  rcases hcases with ⟨e, hrequest⟩ | ⟨hopen, hrequest⟩
  · rw [hrequest]
    exact .refused e
  · rw [hrequest]
    exact .opened (.snapshot ⟨s.engine.sequence⟩) hopen rfl (fun _ hseq => .inl (Option.some.inj hseq).symm) rfl
      trivial (fun _ h => nomatch h)

omit [LogStorage σ] in
theorem opens_writeBatch (s : OnConnection σ) : Opens s (s.writeBatch.1.map .batch, s.writeBatch.2) := by
  rw [Store.writeBatch]
  split
  · exact .refused _
  · rename_i hnot
    have hopen : s.isOpen = true := by simpa using hnot
    refine .opened (.batch []) hopen rfl (fun _ hseq => nomatch hseq) rfl (fun h => nomatch h) fun b hb => ?_
    cases hb
    exact ⟨rfl, rfl⟩

theorem opens_cursorOf (n : Store.Snapshot) (s : OnConnection σ) :
    Opens s ((n.cursor s).1.map .cursor, (n.cursor s).2) := by
  rw [Snapshot.cursor]
  split
  · exact .refused _
  · rename_i hnot
    have hopen : s.isOpen = true := by simpa using hnot
    split
    · exact .refused _
    · rename_i view hview
      have hsame : ∀ seq, Held.seq? (.cursor (.start view.seq)) = some seq →
          ∃ n reader, s.tokens.get? n = some reader ∧ reader.seq? = some seq :=
        fun seq hseq => ⟨n.token, .snapshot view, get?_of_snapshot? hview, hseq⟩
      exact .opened (.cursor (.start view.seq)) hopen rfl (fun seq hseq => .inr (hsame seq hseq)) rfl
        (fun h => nomatch h) (fun _ h => nomatch h)

/-! ## What children are asked -/

/-- A move is refused, or changes where the cursor stands. -/
theorem Cursor.move_cases (m : Move) (c : Store.Cursor) (s : OnConnection σ) :
    (∃ e, c.move m s = (.error e, c, s)) ∨
      ∃ raw position, s.cursor? c.token = some raw ∧ position ≠ .closed ∧
        c.move m s = (.ok (), { c with position }, s.hold c.token (.cursor (raw.move m s.engine.timeline))) := by
  rw [Cursor.move]
  split
  · rename_i e _
    exact .inl ⟨e, rfl⟩
  · rw [Cursor.step]
    split
    · exact .inl ⟨_, rfl⟩
    · rename_i raw hraw
      refine .inr ⟨raw, _, hraw, ?_, rfl⟩
      split
      · exact fun h => nomatch h
      · exact fun h => nomatch h

/-- Adding an operation is refused, or puts it behind the others. -/
theorem Batch.add_cases {ε κ ς : Type} (op : Operation) (b : Store.Batch) (s : Store ε κ ς) :
    (∃ e, b.add op s = (.error e, s)) ∨
      ∃ ops, s.batch? b.token = some ops ∧ b.add op s = (.ok (), s.hold b.token (.batch (ops ++ [op]))) := by
  rw [Batch.add]
  split
  · exact .inl ⟨_, rfl⟩
  · rename_i ops hops
    split
    · exact .inr ⟨ops, hops, rfl⟩
    · exact .inl ⟨_, rfl⟩

/-- What a write of a batch comes to. -/
inductive Batch.Writes {ε κ ς : Type} [Engine ε κ ς] (b : Store.Batch) (s : Store ε κ ς) :
    Except StoreError Bool × Store.Batch × Store ε κ ς → Prop where
  | closed (hbatch : s.batch? b.token = none) : Writes b s (.error (.closed .batch), b, s)
  /-- It has been written before. -/
  | again {ops : List Operation} (hbatch : s.batch? b.token = some ops) (hspent : b.progress ≠ .pending) :
      Writes b s (.ok false, b, s)
  | storeClosed {ops : List Operation} (hbatch : s.batch? b.token = some ops) (hpending : b.progress = .pending)
      (hclosed : s.isOpen = false) : Writes b s (.error (.closed .store), b, s)
  /-- The engine says that it is closed. -/
  | engineClosed {ops : List Operation} {engine : ε} (hbatch : s.batch? b.token = some ops)
      (hpending : b.progress = .pending) (hopen : s.isOpen = true)
      (hengine : Engine.apply ops s.engine = (.error .closed, engine)) :
      Writes b s (.error (.closed .store), b, { s with engine })
  | applied {ops : List Operation} {engine : ε} (hbatch : s.batch? b.token = some ops)
      (hpending : b.progress = .pending) (hopen : s.isOpen = true)
      (hengine : Engine.apply ops s.engine = (.ok (), engine)) :
      Writes b s (.ok true, { b with progress := .applied },
        { s with engine, counters := s.counters.countBatch (.ofNat (Operation.totalSize ops)) })
  | failed {ops : List Operation} {e : EngineError} {engine : ε} (hbatch : s.batch? b.token = some ops)
      (hpending : b.progress = .pending) (hopen : s.isOpen = true)
      (hengine : Engine.apply ops s.engine = (.error e, engine)) (hunclosed : e ≠ .closed) :
      Writes b s (.error (.applyFailure e), { b with progress := .failed },
        { s with engine, counters := s.counters.countFailedBatch })

theorem Batch.writes {ε κ ς : Type} [Engine ε κ ς] (b : Store.Batch) (s : Store ε κ ς) :
    Batch.Writes b s (b.write s) := by
  rw [Batch.write]
  split
  · rename_i hbatch
    exact .closed hbatch
  · rename_i ops hbatch
    split
    · rename_i hspent
      exact .again hbatch hspent
    · rename_i hnot
      have hpending : b.progress = .pending := not_not.mp hnot
      split
      · rename_i hclosed
        exact .storeClosed hbatch hpending (by simpa using hclosed)
      · rename_i hnot
        have hopen : s.isOpen = true := by simpa using hnot
        split
        · rename_i engine hengine
          exact .applied hbatch hpending hopen hengine
        · rename_i engine hengine
          exact .engineClosed hbatch hpending hopen hengine
        · rename_i e engine hunclosed hengine
          exact .failed hbatch hpending hopen hengine hunclosed

/-- Writing a batch changes nothing but the connection, the counters and what the batch knows of its write. -/
theorem Batch.write_eq (b : Store.Batch) (s : OnConnection σ) :
    ∃ result progress engine counters,
      b.write s = (result, { b with progress }, { s with engine, counters }) ∧
        (progress = b.progress ∨ progress ≠ .closed) ∧ engine.timeline.pins = s.engine.timeline.pins := by
  have hpins : ∀ {ops result engine}, s.engine.write (.apply ops) = (result, engine) →
      engine.timeline.pins = s.engine.timeline.pins := by
    intro ops result engine hengine
    have hwrite := s.engine.pins_write (.apply ops)
    rwa [hengine] at hwrite
  have hwrites := Batch.writes b s
  generalize b.write s = written at hwrites ⊢
  cases hwrites with
  | closed | again | storeClosed => exact ⟨_, b.progress, s.engine, s.counters, rfl, .inl rfl, rfl⟩
  | engineClosed _ _ _ hengine => exact ⟨_, b.progress, _, s.counters, rfl, .inl rfl, hpins hengine⟩
  | applied _ _ _ hengine => exact ⟨_, .applied, _, _, rfl, .inr (fun h => nomatch h), hpins hengine⟩
  | failed _ _ _ hengine => exact ⟨_, .failed, _, _, rfl, .inr (fun h => nomatch h), hpins hengine⟩

theorem Accounted.move (h : s.Accounted isOpen places) {n : Nat} {place : Place} (hn : places[n]? = some place)
    {cursor : Store.Cursor} (hcursor : place.handle = .cursor cursor) (m : Move) :
    (cursor.move m s).2.2.Accounted isOpen (places.set n { place with handle := .cursor (cursor.move m s).2.1 }) := by
  rcases Cursor.move_cases m cursor s with ⟨e, hmove⟩ | ⟨raw, position, hraw, hposition, hmove⟩
  · rw [hmove, set_of_getElem? (hn.trans (by rw [← hcursor]))]
    exact h
  · rw [hmove]
    have hentry : (Handle.cursor { cursor with position }).entry = place.handle.entry := by
      rw [hcursor]
      rfl
    have hheld := h.hold (get?_of_cursor? hraw) (.cursor (raw.move m s.engine.timeline)) rfl rfl
    exact hheld.set hn ⟨.cursor { cursor with position }, place.fate⟩ hentry rfl hposition

omit [LogStorage σ] in
theorem Accounted.add (h : s.Accounted isOpen places) (op : Operation) (b : Store.Batch) :
    (b.add op s).2.Accounted isOpen places := by
  rcases Batch.add_cases op b s with ⟨e, hadd⟩ | ⟨ops, hops, hadd⟩
  · rw [hadd]
    exact h
  · rw [hadd]
    exact h.hold (get?_of_batch? hops) (.batch (ops ++ [op])) rfl rfl

theorem Accounted.write (h : s.Accounted isOpen places) {n : Nat} {place : Place} (hn : places[n]? = some place)
    {b : Store.Batch} (hb : place.handle = .batch b) :
    (b.write s).2.2.Accounted isOpen (places.set n { place with handle := .batch (b.write s).2.1 }) := by
  obtain ⟨result, progress, engine, counters, hwrite, hprogress, hpins⟩ := Batch.write_eq b s
  have hsteady : (Handle.batch { b with progress }).Steady := by
    rcases hprogress with rfl | hne
    · obtain ⟨-, -, hsteady⟩ := h.listed n place hn
      rwa [hb] at hsteady
    · exact hne
  have hentry : (Handle.batch { b with progress }).entry = place.handle.entry := by
    rw [hb]
    rfl
  rw [hwrite]
  exact (h.engine hpins counters).set hn ⟨.batch { b with progress }, place.fate⟩ hentry rfl hsteady

theorem Accounted.closeChild (h : s.Accounted isOpen places) {n : Nat} {place : Place} (hn : places[n]? = some place)
    (hfate : place.fate ≠ .dropped) :
    (place.handle.close s).Accounted isOpen (places.set n { place with fate := .closed }) := by
  rw [Handle.close_eq, (h.listed n place hn).1, (h.listed n place hn).2.1]
  exact h.forget hn hfate

theorem Accounted.dropChild (h : s.Accounted isOpen places) {n : Nat} {place : Place} (hn : places[n]? = some place)
    (hfate : place.fate ≠ .dropped) :
    (place.handle.drop s).Accounted isOpen (places.set n { place with fate := .dropped }) := by
  rw [Handle.drop_eq, (h.listed n place hn).1, (h.listed n place hn).2.1]
  exact h.discard hn hfate

theorem Accounted.writeAndClose (h : s.Accounted isOpen places) {n : Nat} {place : Place} (hn : places[n]? = some place)
    (hfate : place.fate ≠ .dropped) {b : Store.Batch} (hb : place.handle = .batch b) :
    (b.writeAndClose s).2.Accounted isOpen (places.set n { place with fate := .dropped }) := by
  obtain ⟨result, progress, engine, counters, hwrite, -, hpins⟩ := Batch.write_eq b s
  have hdrop := (h.engine hpins counters).dropChild hn hfate
  rw [Batch.writeAndClose, hwrite]
  show ((Handle.batch b).drop _).Accounted isOpen _
  rwa [← hb]

/-! ## Closed children -/

section Closed

omit [LogStorage σ]

theorem cursor?_of_get? {token : TokenId} (h : s.tokens.get? token = none) : s.cursor? token = none := by
  rw [cursor?, h]

theorem batch?_of_get? {token : TokenId} (h : s.tokens.get? token = none) : s.batch? token = none := by
  rw [batch?, h]

theorem snapshot?_of_get? {token : TokenId} (h : s.tokens.get? token = none) : s.snapshot? token = none := by
  rw [snapshot?, h]

theorem Cursor.requirePositioned_of_closed {c : Store.Cursor} (h : s.cursor? c.token = none) (call : String) :
    c.requirePositioned s call = .error (.closed .cursor) := by
  rw [Cursor.requirePositioned, Cursor.state, h]
  rfl

end Closed

theorem Cursor.move_of_closed {c : Store.Cursor} (h : s.cursor? c.token = none) (m : Move) :
    c.move m s = (.error (.closed .cursor), c, s) := by
  rw [Cursor.move]
  cases m.step? with
  | none => rw [Option.elim_none, Cursor.step, h]
  | some call => rw [Option.elim_some, Cursor.requirePositioned_of_closed h]

omit [LogStorage σ] in
theorem Cursor.read_of_closed {α : Type} {c : Store.Cursor} (h : s.cursor? c.token = none) (call : String)
    (f : Timeline.Cursor → Connection σ → Option α) : c.read s call f = .error (.closed .cursor) := by
  rw [Cursor.read, Cursor.requirePositioned_of_closed h]
  rfl

omit [LogStorage σ] in
/-- What a token holds is gone when its child or the store is closed. -/
theorem Accounted.get?_eq_none (h : s.Accounted isOpen places) {n : Nat} {place : Place} (hn : places[n]? = some place)
    (hended : ¬ (isOpen = true ∧ place.fate = .inUse)) : s.tokens.get? place.handle.token = none := by
  have hget := h.get? hn
  rw [if_neg hended, Option.map_eq_none_iff] at hget
  rw [(h.listed n place hn).1, hget]

omit [LogStorage σ] in
theorem Accounted.get?_of_closed (h : s.Accounted false places) {n : Nat} {place : Place}
    (hn : places[n]? = some place) : s.tokens.get? place.handle.token = none :=
  h.get?_eq_none hn fun hlive => Bool.false_ne_true hlive.1

omit [LogStorage σ] in
theorem Accounted.children_of_closed (h : s.Accounted false places) : s.registry.children = [] := by
  rw [h.children, if_neg Bool.false_ne_true]

/-- Closing a child of a closed store changes nothing. -/
theorem Accounted.closeChild_of_closed (h : s.Accounted false places) {n : Nat} {place : Place}
    (hn : places[n]? = some place) : place.handle.close s = s := by
  have hrelease : s.release place.handle.token = s := by rw [Store.release, h.get?_of_closed hn]
  have hregistry : s.registry.unregister place.handle.id = s.registry := by
    rw [Registry.unregister, h.children_of_closed, List.filter_nil, ← h.children_of_closed]
  rw [Handle.close_eq, Store.forget, hrelease, hregistry]

end Store

end OrderedStore
