import OrderedStore.Proofs.Batches

/-!
# What batches hold

Whatever the engine does, a batch holds the operations that it has taken, until it is closed. Nothing but adding to it
puts an operation into a batch: what a store does with its engine and with its other children does not.

* `Store.Loses`: no batch holds anything else than before; `loses_call`, `loses_discard`, `loses_close`: changes of a
  store that are of this kind;
* `Store.Makes`: an attempt to make a child;
* `Client.Carries`: the batches of a client hold what the trace says; `carries_step`, `carries_run`: every call keeps
  this, and every run.
-/

namespace OrderedStore

open Client

namespace Store

variable {ε κ ς : Type} {s s' s'' : Store ε κ ς}

/-! ## Tokens -/

/-- There are the same tokens, and a batch that one of them holds was there before. -/
structure Loses (s s' : Store ε κ ς) : Prop where
  length : s'.tokens.slots.length = s.tokens.slots.length
  batch {token : TokenId} {ops : List Operation} :
    s'.tokens.get? token = some (.batch ops) → s.tokens.get? token = some (.batch ops)

theorem loses_of_tokens (h : s'.tokens = s.tokens) : Loses s s' :=
  ⟨congrArg (·.slots.length) h, fun hget => h ▸ hget⟩

theorem Loses.trans (h : Loses s s') (h' : Loses s' s'') : Loses s s'' :=
  ⟨h'.length.trans h.length, fun hget => h.batch (h'.batch hget)⟩

theorem Loses.count {α : Type} {r : Except StoreError α × Store ε κ ς} (h : Loses s r.2)
    (note : α → Counters → Counters) : Loses s (Store.count note r).2 := by
  unfold Store.count
  split
  · exact h.trans (loses_of_tokens rfl)
  · exact h

theorem loses_call {α : Type} (f : ε → Except EngineError α × ε) : Loses s (s.call f).2 := by
  have hasks := s.asks_call f
  generalize s.call f = called at hasks ⊢
  cases hasks with
  | closed | done | failed => exact loses_of_tokens rfl

/-- A token that holds no batch may be changed. -/
theorem loses_set {token : TokenId} {slot : Token (Held κ ς)} (hslot : ∀ ops, slot ≠ .live (.batch ops)) :
    Loses s { s with tokens := ⟨s.tokens.slots.set token slot⟩ } := by
  refine ⟨List.length_set .., fun {n ops} hget => ?_⟩
  rw [Tokens.get?_eq_some_iff] at hget ⊢
  obtain ⟨-, hchanged⟩ | hkept := getElem?_of_set hget
  · exact absurd hchanged.symm (hslot ops)
  · exact hkept

theorem loses_hold {token : TokenId} {held : Held κ ς} (hget : s.tokens.get? token = some held) {held' : Held κ ς}
    (hheld : ∀ ops, held' ≠ .batch ops) : Loses s (s.hold token held') := by
  have hset : Loses s { s with tokens := ⟨s.tokens.slots.set token (.live held')⟩ } :=
    loses_set fun ops hlive => hheld ops (Token.live.inj hlive)
  rwa [← slots_hold hget] at hset

variable [Engine ε κ ς]

theorem loses_release (token : TokenId) : Loses s (s.release token) := by
  have htokens : Loses s { s with tokens := s.tokens.release token } := by
    rw [Tokens.release]
    split
    · exact loses_set fun ops hlive => by cases hlive
    · exact loses_of_tokens rfl
  have hrelease := loses_of_tokens (s := { s with tokens := s.tokens.release token }) (tokens_release s token)
  exact htokens.trans hrelease

theorem loses_forget (token : TokenId) (id : Nat) : Loses s (s.forget token id) :=
  (loses_release token).trans (loses_of_tokens rfl)

theorem loses_discard (token : TokenId) (id : Nat) : Loses s (s.discard token id) :=
  (loses_forget token id).trans (loses_set fun ops hlive => by cases hlive)

theorem loses_close : Loses s s.close.2 := by
  have hreleased : Loses s s.releaseAll :=
    releaseMany_keeps (P := Loses s) (fun _ token h => h.trans (loses_release token)) _ (loses_of_tokens rfl)
  unfold Store.close
  split
  · exact loses_of_tokens rfl
  · dsimp only
    split <;> exact hreleased.trans (loses_of_tokens rfl)

theorem loses_get (key : Bytes) : Loses s (s.get key).2 := (loses_call (Engine.get key)).count _

theorem loses_put (key value : Bytes) : Loses s (s.put key value).2 := (loses_call (Engine.put key value)).count _

theorem loses_delete (key : Bytes) : Loses s (s.delete key).2 := (loses_call (Engine.delete key)).count _

theorem loses_property (name : String) : Loses s (s.property name).2 := loses_call _

theorem loses_move (m : Move) (c : Store.Cursor) : Loses s (c.move m s).2.2 := by
  unfold Cursor.move
  split
  · exact loses_of_tokens rfl
  · unfold Cursor.step
    split
    · exact loses_of_tokens rfl
    · rename_i raw hraw
      have hmoved : Loses s (s.hold c.token (.cursor (Engine.move m raw s.engine).1)) :=
        loses_hold (get?_of_cursor? hraw) fun ops hbatch => by cases hbatch
      exact hmoved.trans (loses_of_tokens rfl)

theorem loses_write (b : Store.Batch) : Loses s (b.write s).2.2 := by
  have hwrites := Batch.writes b s
  generalize b.write s = written at hwrites ⊢
  cases hwrites with
  | closed | again | storeClosed | engineClosed | applied | failed => exact loses_of_tokens rfl

theorem Cursor.token_move (m : Move) (c : Store.Cursor) (s : Store ε κ ς) : (c.move m s).2.1.token = c.token := by
  unfold Cursor.move
  split
  · rfl
  · unfold Cursor.step
    split <;> rfl

theorem Batch.token_write (b : Store.Batch) (s : Store ε κ ς) : (b.write s).2.1.token = b.token := by
  have hwrites := Batch.writes b s
  generalize b.write s = written at hwrites ⊢
  cases hwrites <;> rfl

/-! ## New children -/

/-- An attempt to make a child that is counted with `note`: it is refused, or adopts a child, and a batch holds nothing
yet. -/
inductive Makes (s : Store ε κ ς) (note : Counters → Counters) :
    Except StoreError Handle × Store ε κ ς → Prop where
  | refused {e : StoreError} {engine : ε} : Makes s note (.error e, { s with engine })
  | made {engine : ε} {handle : Handle} (kind : Resource) (held : Held κ ς)
      (htoken : handle.token = s.tokens.slots.length) (hempty : ∀ ops, held = .batch ops → ops = []) :
      Makes s note (.ok handle, (({ s with engine, counters := note s.counters } : Store ε κ ς).adopt kind held).2.2)

omit [Engine ε κ ς] in
theorem request_eq {α : Type} (s : Store ε κ ς) (f : ε → Except EngineError α × ε) :
    ∃ result engine, s.request f = (result, { s with engine }) := by
  have hasks := s.asks_request f
  generalize s.request f = requested at hasks ⊢
  cases hasks with
  | closed => exact ⟨_, s.engine, rfl⟩
  | done | failed => exact ⟨_, _, rfl⟩

theorem makes_cursor (s : Store ε κ ς) : Makes s Counters.countCursor (s.cursor.1.map .cursor, s.cursor.2) := by
  obtain ⟨result, engine, hrequest⟩ := s.request_eq Engine.openCursor
  rw [Store.cursor, hrequest]
  cases result with
  | error e => exact .refused
  | ok raw => exact .made .cursor (.cursor raw) rfl fun _ hheld => by cases hheld

theorem makes_snapshot (s : Store ε κ ς) :
    Makes s Counters.countSnapshot (s.snapshot.1.map .snapshot, s.snapshot.2) := by
  obtain ⟨result, engine, hrequest⟩ := s.request_eq Engine.openView
  rw [Store.snapshot, hrequest]
  cases result with
  | error e => exact .refused
  | ok view => exact .made .snapshot (.snapshot view) rfl fun _ hheld => by cases hheld

omit [Engine ε κ ς] in
theorem makes_writeBatch (s : Store ε κ ς) : Makes s id (s.writeBatch.1.map .batch, s.writeBatch.2) := by
  unfold Store.writeBatch
  split
  · exact .refused
  · refine .made .batch (.batch []) rfl fun ops hheld => ?_
    cases hheld
    rfl

theorem makes_cursorOf (n : Store.Snapshot) (s : Store ε κ ς) :
    Makes s Counters.countCursor ((n.cursor s).1.map .cursor, (n.cursor s).2) := by
  unfold Snapshot.cursor
  split
  · exact .refused
  · split
    · exact .refused
    · rename_i view hview
      exact .made .cursor (.cursor (Engine.cursorAt view s.engine).1) rfl fun _ hheld => by cases hheld

end Store

namespace Client

variable {ε κ ς : Type} {c c' : Client ε κ ς} {trace : List (Call × Client.Reply)}

/-! ## What the trace says -/

/-- The batches of a client hold what its trace says, each under its own number; those that are yet to be made have
taken nothing. -/
structure Carries (c : Client ε κ ς) (trace : List (Call × Client.Reply)) : Prop where
  tokens : c.places.map (·.handle.token) = List.range c.store.tokens.slots.length
  unmade {n : Nat} : c.store.tokens.slots.length ≤ n → accepted n trace = []
  holds {n : Nat} {ops : List Operation} : c.store.tokens.get? n = some (.batch ops) → ops = accepted n trace

theorem Carries.token_eq (h : Carries c trace) {n : Nat} {place : Place} (hn : c.places[n]? = some place) :
    place.handle.token = n := by
  have htoken : (c.places.map (·.handle.token))[n]? = some place.handle.token := by
    rw [List.getElem?_map, hn, Option.map_some]
  rw [h.tokens] at htoken
  exact (List.getElem?_eq_some_iff.mp htoken).2.symm.trans (List.getElem_range _)

/-- A change of the store that puts nothing into a batch. -/
theorem Carries.store (h : Carries c trace) {s : Store ε κ ς} (hloses : Store.Loses c.store s) :
    Carries { c with store := s } trace where
  tokens := by rw [hloses.length, h.tokens]
  unmade hn := h.unmade (hloses.length ▸ hn)
  holds hops := h.holds (hloses.batch hops)

/-- A change of the store and of one child, which keeps its token. -/
theorem Carries.set (h : Carries c trace) {s : Store ε κ ς} (hloses : Store.Loses c.store s) {n : Nat}
    {place place' : Place} (hn : c.places[n]? = some place) (htoken : place'.handle.token = place.handle.token) :
    Carries ⟨s, c.places.set n place'⟩ trace := by
  have htokens : (c.places.set n place').map (·.handle.token) = c.places.map (·.handle.token) :=
    map_set_of_getElem? (f := fun p : Place => p.handle.token) hn htoken
  have hstore := h.store hloses
  exact ⟨htokens.trans hstore.tokens, hstore.unmade, hstore.holds⟩

/-- A reply that says nothing of batches. -/
theorem Carries.concat (h : Carries c trace) {answered : Call × Client.Reply}
    (hsilent : ∀ n, accepted? n answered = none) : Carries c (trace ++ [answered]) where
  tokens := h.tokens
  unmade hn := (accepted_concat (hsilent _)).trans (h.unmade hn)
  holds hops := (h.holds hops).trans (accepted_concat (hsilent _)).symm

/-- A child is made. -/
theorem Carries.receive (h : Carries c trace) {note : Counters → Counters}
    {r : Except StoreError Handle × Store ε κ ς} (hmakes : c.store.Makes note r) : Carries (c.receive r).2 trace := by
  cases hmakes with
  | refused => exact h.store (Store.loses_of_tokens rfl)
  | @made engine handle kind held htoken hempty =>
    have hlength : (c.store.tokens.slots ++ [Token.live held]).length = c.store.tokens.slots.length + 1 :=
      List.length_append
    constructor
    · show (c.places ++ [Place.mk handle .inUse]).map (·.handle.token) =
        List.range (c.store.tokens.slots ++ [Token.live held]).length
      rw [hlength, List.range_succ, List.map_append, h.tokens, List.map_singleton, htoken]
    · intro n hn
      have hle : c.store.tokens.slots.length + 1 ≤ n := hlength.symm.trans_le hn
      exact h.unmade (Nat.le_of_succ_le hle)
    · intro n ops hops
      have hslot : (c.store.tokens.slots ++ [Token.live held])[n]? = some (.live (.batch ops)) :=
        Tokens.get?_eq_some_iff.mp hops
      rw [List.getElem?_append] at hslot
      split at hslot
      · exact h.holds (Tokens.get?_eq_some_iff.mpr hslot)
      · rename_i hge
        -- a new child is a batch only if it holds nothing
        have hheld : Token.live held = .live (.batch ops) := List.mem_singleton.mp (List.mem_of_getElem? hslot) |>.symm
        rw [hempty ops (Token.live.inj hheld), h.unmade (Nat.not_lt.mp hge)]

/-- An operation is added. -/
theorem Carries.add (h : Carries c trace) {n : Nat} {ops : List Operation}
    (hops : c.store.tokens.get? n = some (.batch ops)) (op : Operation) :
    Carries { c with store := c.store.hold n (.batch (ops ++ [op])) }
      (trace ++ [(.child n (.batch (.add op)), .ok .done)]) := by
  have hlength : (c.store.hold n (.batch (ops ++ [op]))).tokens.slots.length = c.store.tokens.slots.length := by
    rw [Store.slots_hold hops, List.length_set]
  have hother {k : Nat} (hk : n ≠ k) :
      accepted k (trace ++ [(.child n (.batch (.add op)), .ok .done)]) = accepted k trace :=
    accepted_concat (if_neg hk)
  constructor
  · exact h.tokens.trans (congrArg List.range hlength.symm)
  · intro k hk
    have hlt := (List.getElem?_eq_some_iff.mp (Tokens.get?_eq_some_iff.mp hops)).1
    have hk' : c.store.tokens.slots.length ≤ k := hlength ▸ hk
    rw [hother (Nat.ne_of_lt (Nat.lt_of_lt_of_le hlt hk')), h.unmade hk']
  · intro k ops' hops'
    by_cases hk : n = k
    · subst hk
      have hop : accepted? n (.child n (.batch (.add op)), .ok .done) = some op := if_pos rfl
      cases (Store.get?_hold hops (.batch (ops ++ [op]))).symm.trans hops'
      rw [accepted, List.filterMap_append, List.filterMap_cons_some hop, List.filterMap_nil, h.holds hops]
      rfl
    · rw [hother hk]
      refine h.holds (Tokens.get?_eq_some_iff.mpr ?_)
      have hslot := Tokens.get?_eq_some_iff.mp hops'
      rwa [Store.slots_hold hops, List.getElem?_set_ne hk] at hslot

variable [Engine ε κ ς]

/-! ## Calls -/

theorem carries_askCursor (h : Carries c trace) {n : Nat} {cursor : Store.Cursor} {fate : Fate}
    (hn : c.places[n]? = some ⟨.cursor cursor, fate⟩) (q : CursorCall) :
    Carries (c.askCursor n ⟨.cursor cursor, fate⟩ cursor q).2 trace := by
  cases q with
  | move m => exact h.set (Store.loses_move m cursor) hn (Store.Cursor.token_move m cursor c.store)
  | key | value | entry => exact h

theorem carries_askBatch (h : Carries c trace) {n : Nat} {b : Store.Batch} {fate : Fate}
    (hn : c.places[n]? = some ⟨.batch b, fate⟩) (q : BatchCall) :
    Carries (c.askBatch n ⟨.batch b, fate⟩ b q).2
      (trace ++ [(.child n (.batch q), (c.askBatch n ⟨.batch b, fate⟩ b q).1)]) := by
  cases q with
  | add op =>
    show Carries { c with store := (b.add op c.store).2 }
      (trace ++ [(.child n (.batch (.add op)), (b.add op c.store).1.map fun _ => .done)])
    rcases Store.Batch.add_cases op b c.store with ⟨e, hadd⟩ | ⟨ops, hops, hadd⟩
    · rw [hadd]
      exact h.concat fun _ => rfl
    · have hbatch : c.store.tokens.get? n = some (.batch ops) := h.token_eq hn ▸ Store.get?_of_batch? hops
      rw [hadd, show b.token = n from h.token_eq hn]
      exact h.add hbatch op
  | write =>
    refine Carries.concat ?_ fun _ => rfl
    exact h.set (Store.loses_write b) hn (Store.Batch.token_write b c.store)
  | writeAndClose =>
    have hloses : Store.Loses c.store (b.writeAndClose c.store).2 :=
      (Store.loses_write b).trans (Store.loses_discard _ _)
    refine Carries.concat ?_ fun _ => rfl
    exact h.set hloses hn rfl

theorem carries_askSnapshot (h : Carries c trace) (snapshot : Store.Snapshot) (q : SnapshotCall) :
    Carries (c.askSnapshot snapshot q).2 trace := by
  cases q with
  | get key =>
    have hloses : Store.Loses c.store (snapshot.get key c.store).2 := by
      rw [Store.Snapshot.get]
      split <;> exact Store.loses_of_tokens rfl
    exact h.store hloses
  | sequence => exact h
  | cursor => exact h.receive (Store.makes_cursorOf snapshot c.store)

theorem carries_ask (h : Carries c trace) {n : Nat} {place : Place} (hn : c.places[n]? = some place) (q : ChildCall) :
    Carries (c.ask n place q).2 (trace ++ [(.child n q, (c.ask n place q).1)]) := by
  unfold ask
  split
  · rename_i cursor q hcursor
    obtain ⟨handle, fate⟩ := place
    obtain rfl : handle = .cursor cursor := hcursor
    exact (carries_askCursor h hn q).concat fun _ => rfl
  · rename_i b q hb
    obtain ⟨handle, fate⟩ := place
    obtain rfl : handle = .batch b := hb
    exact carries_askBatch h hn q
  · exact (carries_askSnapshot h _ _).concat fun _ => rfl
  · rw [Handle.close_eq]
    refine Carries.concat ?_ fun _ => rfl
    exact h.set (Store.loses_forget _ _) hn rfl
  · rw [Handle.drop_eq]
    refine Carries.concat ?_ fun _ => rfl
    exact h.set (Store.loses_discard _ _) hn rfl
  · exact h.concat fun _ => (silent_of_noChild _).1

/-- Every call leaves the batches with what the trace says of them. -/
theorem carries_step (h : Carries c trace) (q : Call) : Carries (c.step q).2 (trace ++ [(q, (c.step q).1)]) := by
  cases q with
  | get key => exact (h.store (Store.loses_get key)).concat fun _ => rfl
  | put key value => exact (h.store (Store.loses_put key value)).concat fun _ => rfl
  | delete key => exact (h.store (Store.loses_delete key)).concat fun _ => rfl
  | property name => exact (h.store (Store.loses_property name)).concat fun _ => rfl
  | openCursor => exact (h.receive (Store.makes_cursor c.store)).concat fun _ => rfl
  | openBatch => exact (h.receive (Store.makes_writeBatch c.store)).concat fun _ => rfl
  | openSnapshot => exact (h.receive (Store.makes_snapshot c.store)).concat fun _ => rfl
  | child n q =>
    cases hn : c.places[n]? with
    | none =>
      rw [step_unmade hn]
      exact h.concat fun _ => (silent_of_noChild _).1
    | some place =>
      by_cases hfate : place.fate = .dropped
      · rw [step_dropped hn hfate]
        exact h.concat fun _ => (silent_of_noChild _).1
      · rw [step_child hn hfate]
        exact carries_ask h hn q
  | close | drop => exact (h.store Store.loses_close).concat fun _ => rfl

omit [Engine ε κ ς] in
/-- So does a change of the engine. -/
theorem Carries.change (h : Carries c trace) (f : ε → ε) : Carries { c with store := c.store.mapEngine f } trace :=
  h.store (Store.loses_of_tokens rfl)

/-- And so do runs. -/
theorem carries_run {δ : Type} (act : δ → ε → ε) (h : Carries c trace) (events : List (Event δ)) :
    Carries (c.run act events) (trace ++ c.trace act events) := by
  induction events generalizing c trace with
  | nil => exact (List.append_nil trace).symm ▸ h
  | cons event events ih =>
    cases event with
    | call q =>
      have hrun := ih (carries_step h q)
      rwa [List.append_assoc] at hrun
    | change d => exact ih (h.change (act d))

omit [Engine ε κ ς] in
/-- A client of a new store has no batches. -/
theorem carries_start (path : Option String) (options : Options) (engine : ε) :
    Carries (start (Store.ofEngine path options engine : Store ε κ ς)) [] where
  tokens := rfl
  unmade _ := rfl
  holds hops := by cases hops

end Client

end OrderedStore
