import OrderedStore.Proofs.Accounting
import OrderedStore.Proofs.Session

/-!
# What the children of a store keep

A store over a connection guards its readers if the timeline guards those whose tokens are live. Every call
spares the children that it does not ask: what their tokens hold afterwards they held before. It also keeps the
readers guarded, and then a child that is spared sees what it saw, unless a write is given a sequence again.

* `Store.Guarded`, `Store.Spares`: the invariant, and what a change leaves alone; `Store.Keeps`: both;
* `keeps_write`, `keeps_opens`, `keeps_release`, `keeps_hold`, `keeps_close`: one lemma for each change;
* `Client.keeps_step`: every call; `Client.places_step`: what a call does to the list of the children;
* `Client.WritesBelow`: runs in which sequences do not wrap around.
-/

namespace OrderedStore

open Client

namespace Store

variable {σ : Type} {s s' s'' : OnConnection σ} {below below' : Prop} {spared : TokenId → Prop}

/-- The timeline guards the readers whose tokens are live. -/
def Guarded (s : OnConnection σ) : Prop := s.engine.timeline.Guards (s.tokens.slots.map Token.seq?)

/-- What a token holds afterwards it held before, and a reader in it sees what it saw. -/
def Spares (s s' : OnConnection σ) (token : TokenId) : Prop :=
  ∀ held, s'.tokens.get? token = some held → s.tokens.get? token = some held ∧
    ∀ seq, held.seq? = some seq → s'.engine.timeline.versions.view seq = s.engine.timeline.versions.view seq

/-- A change that adds nothing to some tokens. If sequences stay `below` their bound, it keeps the readers guarded, and
those in these tokens see what they saw. -/
structure Keeps (below : Prop) (s s' : OnConnection σ) (spared : TokenId → Prop) : Prop where
  held : ∀ token held, spared token → s'.tokens.get? token = some held → s.tokens.get? token = some held
  guarded : below → s.Guarded → s'.Guarded
  view : below → s.Guarded → ∀ token held seq, spared token → s'.tokens.get? token = some held →
    held.seq? = some seq → s'.engine.timeline.versions.view seq = s.engine.timeline.versions.view seq

theorem Keeps.spares (h : Keeps below s s' spared) (hbelow : below) (hs : s.Guarded) {token : TokenId}
    (htoken : spared token) : Spares s s' token :=
  fun held hheld => ⟨h.held token held htoken hheld, fun seq => h.view hbelow hs token held seq htoken hheld⟩

theorem Keeps.trans (h : Keeps below s s' spared) (h' : Keeps below s' s'' spared) : Keeps below s s'' spared where
  held token held htoken hheld := h.held token held htoken (h'.held token held htoken hheld)
  guarded hbelow hs := h'.guarded hbelow (h.guarded hbelow hs)
  view hbelow hs token held seq htoken hheld hseq :=
    (h'.view hbelow (h.guarded hbelow hs) token held seq htoken hheld hseq).trans
      (h.view hbelow hs token held seq htoken (h'.held token held htoken hheld) hseq)

theorem Keeps.mono (h : Keeps below s s' spared) {spared' : TokenId → Prop}
    (hspared : ∀ token, spared' token → spared token) : Keeps below s s' spared' where
  held token held htoken := h.held token held (hspared token htoken)
  guarded := h.guarded
  view hbelow hs token held seq htoken := h.view hbelow hs token held seq (hspared token htoken)

theorem Keeps.of_imp (h : Keeps below s s' spared) (hbelow : below' → below) : Keeps below' s s' spared where
  held := h.held
  guarded hbelow' := h.guarded (hbelow hbelow')
  view hbelow' := h.view (hbelow hbelow')

/-- A change that has nothing to do with the timeline and the tokens. -/
theorem keeps_same (htokens : s'.tokens = s.tokens) (htimeline : s'.engine.timeline = s.engine.timeline) :
    Keeps below s s' spared where
  held token held _ hheld := htokens ▸ hheld
  guarded _ hs := by
    rw [Guarded, htokens, htimeline]
    exact hs
  view _ _ token held seq _ _ _ := by rw [htimeline]

theorem keeps_refl : Keeps below s s spared := keeps_same rfl rfl

theorem seq?_of_get? {token : TokenId} {held : Held Timeline.Cursor Timeline.View}
    (h : s.tokens.get? token = some held) : (s.tokens.slots.map Token.seq?)[token]? = some held.seq? := by
  rw [List.getElem?_map, Tokens.get?_eq_some_iff.mp h]
  rfl

theorem mem_seqs_of_get? {token : TokenId} {held : Held Timeline.Cursor Timeline.View}
    (h : s.tokens.get? token = some held) {seq : Sequence} (hseq : held.seq? = some seq) :
    seq ∈ (s.tokens.slots.map Token.seq?).reduceOption :=
  List.reduceOption_mem_iff.mpr (hseq ▸ List.mem_of_getElem? (seq?_of_get? h))

/-- A reader is not above the last commit. -/
theorem Guarded.seq_le (h : s.Guarded) {token : TokenId} {held : Held Timeline.Cursor Timeline.View}
    (hget : s.tokens.get? token = some held) {seq : Sequence} (hseq : held.seq? = some seq) :
    seq ≤ s.engine.timeline.sequence :=
  h.le seq (mem_seqs_of_get? hget hseq)

/-! ## Writing -/

theorem keeps_commit {r : Record} (hr : below → s.engine.timeline.sequence < r.seq) {c : Connection σ}
    (htimeline : c.timeline = s.engine.timeline.commit r) (counters : Counters) :
    Keeps below s { s with engine := c, counters := counters } spared where
  held _ _ _ := id
  guarded hbelow hs := by
    rw [Guarded, htimeline]
    exact Timeline.Guards.commit hs (hr hbelow)
  view hbelow hs token held seq _ hheld hseq := by
    rw [htimeline]
    exact Timeline.view_commit_of_guards hs (hr hbelow) (mem_seqs_of_get? hheld hseq)

variable [LogStorage σ]

/-- A write needs a sequence that has not been used. -/
theorem keeps_write (w : Write) (counters : Counters) :
    Keeps (s.engine.sequence.toNat < UInt64.size - 1) s
      { s with engine := (s.engine.write w).2, counters := counters } spared := by
  obtain ⟨result, c, hw⟩ : ∃ result c, s.engine.write w = (result, c) := ⟨_, _, rfl⟩
  rw [hw]
  obtain ⟨-, ⟨e, -, ht⟩ | ⟨-, -, ht⟩ | ⟨-, r, hr, ht⟩⟩ := Connection.timeline_write hw
  · exact keeps_same rfl ht
  · exact keeps_same rfl ht
  · exact keeps_commit (fun hbelow => (Write.record?_eq_some hr).1 ▸ Session.lt_succ_sequence hbelow) ht counters

omit [LogStorage σ] in
/-- A call that goes to the connection. -/
theorem Keeps.call {α : Type} {f : Connection σ → Except EngineError α × Connection σ}
    (h : ∀ counters, Keeps below s { s with engine := (f s.engine).2, counters := counters } spared) :
    Keeps below s (s.call f).2 spared := by
  have hasks := s.asks_call f
  generalize s.call f = called at hasks ⊢
  cases hasks with
  | closed => exact keeps_refl
  | done hengine | failed _ hengine =>
    rw [hengine] at h
    exact h _

omit [LogStorage σ] in
theorem Keeps.count {α : Type} {r : Except StoreError α × OnConnection σ} (h : Keeps below s r.2 spared)
    (note : α → Counters → Counters) : Keeps below s (Store.count note r).2 spared := by
  unfold Store.count
  split
  · exact h.trans (keeps_same rfl rfl)
  · exact h

/-! ## Readers come and go -/

theorem get?_append {α : Type} {slots : List (Token α)} {token : TokenId} (hlt : token < slots.length)
    (new : Token α) : Tokens.get? ⟨slots ++ [new]⟩ token = Tokens.get? ⟨slots⟩ token := by
  simp only [Tokens.get?, List.getElem?_append_left hlt]

theorem get?_adopt {ε κ ς : Type} (s : Store ε κ ς) (kind : Resource) (held : Held κ ς) :
    (s.adopt kind held).2.2.tokens.get? s.tokens.slots.length = some held := by
  rw [Tokens.get?_eq_some_iff]
  exact List.getElem?_concat_length

omit [LogStorage σ] in
/-- A new child spares those that were there. -/
theorem keeps_opens {r : Except StoreError Handle × OnConnection σ} (hr : s.Opens r) :
    Keeps below s r.2 (· < s.tokens.slots.length) := by
  cases hr with
  | refused e => exact keeps_refl
  | @opened engine counters _ new hopen htimeline hseq hentry hsteady =>
    have hversions : engine.timeline.versions = s.engine.timeline.versions := by
      rw [htimeline]
      cases new.seq? <;> rfl
    refine ⟨fun token held hlt hheld => (get?_append hlt (.live new)).symm.trans hheld, fun _ hs => ?_,
      fun _ _ token held seq _ _ _ => congrArg (VersionMap.view · seq) hversions⟩
    show engine.timeline.Guards ((s.tokens.slots ++ [Token.live new]).map Token.seq?)
    have hnew : Token.seq? (.live new) = new.seq? := rfl
    rw [htimeline, List.map_append, List.map_singleton, hnew]
    cases hheld : new.seq? with
    | some seq =>
      refine Timeline.Guards.pin hs ?_
      rcases hseq seq hheld with rfl | ⟨n, reader, hreader, hsame⟩
      · exact UInt64.le_refl _
      · exact hs.seq_le hreader hsame
    | none =>
      have hseqs : (s.tokens.slots.map Token.seq? ++ [none]).reduceOption =
          (s.tokens.slots.map Token.seq?).reduceOption := by
        rw [List.reduceOption_append]
        exact List.append_nil _
      exact ⟨hs.bounded, hseqs ▸ hs.pins, hseqs ▸ hs.le⟩

omit [LogStorage σ] in
theorem get?_release_eq_some {t : Tokens (Held Timeline.Cursor Timeline.View)} {id token : TokenId}
    {held : Held Timeline.Cursor Timeline.View} (h : (t.release id).get? token = some held) :
    t.get? token = some held := by
  have hslot := Tokens.get?_eq_some_iff.mp h
  rw [Tokens.getElem?_slots_release] at hslot
  split at hslot
  · obtain ⟨slot, -, hemptied⟩ := Option.map_eq_some_iff.mp hslot
    cases slot <;> cases hemptied
  · exact Tokens.get?_eq_some_iff.mpr hslot

/-- Releasing a token empties it, and unpins the reader in it. -/
theorem release_eq {token : TokenId} {held : Held Timeline.Cursor Timeline.View}
    (hget : s.tokens.get? token = some held) :
    s.release token = { s with tokens := s.tokens.release token,
                               engine := held.seq?.elim s.engine s.engine.dropReader } := by
  rw [release, hget]
  cases held <;> rfl

theorem keeps_release (token : TokenId) : Keeps below s (s.release token) spared := by
  cases hget : s.tokens.get? token with
  | none =>
    rw [Store.release, hget]
    exact keeps_refl
  | some held =>
    have hplace := seq?_of_get? hget
    have hslots : (s.tokens.release token).slots.map Token.seq? = (s.tokens.slots.map Token.seq?).set token none := by
      rw [Tokens.slots_release_of_get? hget, List.map_set]
      rfl
    rw [release_eq hget]
    cases hheld : held.seq? with
    | none =>
      rw [hheld] at hplace
      have hsame : (s.tokens.release token).slots.map Token.seq? = s.tokens.slots.map Token.seq? :=
        hslots.trans (set_of_getElem? hplace)
      exact ⟨fun _ _ _ => get?_release_eq_some, fun _ hs => by rw [Guarded, hsame]; exact hs, fun _ _ _ _ _ _ _ _ => rfl⟩
    | some seq =>
      rw [hheld] at hplace
      refine ⟨fun _ _ _ => get?_release_eq_some, fun _ hs => ?_, fun _ hs n held' seq' _ hheld' hseq' => ?_⟩
      · rw [Guarded, hslots]
        exact Timeline.Guards.unpin hs hplace
      · have hmem := mem_seqs_of_get? (s := { s with tokens := s.tokens.release token }) hheld' hseq'
        rw [hslots] at hmem
        exact Timeline.view_unpin_of_guards hs hplace hmem

theorem keeps_forget (token : TokenId) (id : Nat) : Keeps below s (s.forget token id) spared :=
  (keeps_release token).trans (keeps_same rfl rfl)

theorem keeps_discard (token : TokenId) (id : Nat) : Keeps below s (s.discard token id) spared := by
  have hempty : ∀ held, (s.forget token id).tokens.slots[token]? ≠ some (.live held) := by
    intro held hslot
    have hemptied : (s.release token).tokens.slots[token]? = some (.live held) := hslot
    rw [tokens_release, Tokens.getElem?_slots_release, if_pos rfl] at hemptied
    obtain ⟨slot, -, hlive⟩ := Option.map_eq_some_iff.mp hemptied
    cases slot <;> cases hlive
  have hsame : ((s.forget token id).tokens.discard token).slots.map Token.seq? =
      (s.forget token id).tokens.slots.map Token.seq? := by
    cases hslot : (s.forget token id).tokens.slots[token]? with
    | none =>
      rw [Tokens.discard, List.set_eq_of_length_le (List.getElem?_eq_none_iff.mp hslot)]
    | some slot =>
      refine map_set_of_getElem? hslot ?_
      cases slot with
      | live held => exact absurd hslot (hempty held)
      | released | gone => rfl
  refine (keeps_forget token id).trans ⟨fun n held _ hheld => ?_, fun _ hs => ?_, fun _ _ _ _ _ _ _ _ => rfl⟩
  · have hslot : ((s.forget token id).tokens.slots.set token .gone)[n]? = some (.live held) :=
      Tokens.get?_eq_some_iff.mp hheld
    rcases getElem?_of_set hslot with ⟨-, hgone⟩ | hslot
    · cases hgone
    · exact Tokens.get?_eq_some_iff.mpr hslot
  · show (s.forget token id).engine.timeline.Guards (((s.forget token id).tokens.discard token).slots.map Token.seq?)
    rw [hsame]
    exact hs

theorem slots_hold {ε κ ς : Type} {s : Store ε κ ς} {token : TokenId} {held : Held κ ς}
    (hget : s.tokens.get? token = some held) (held' : Held κ ς) :
    (s.hold token held').tokens.slots = s.tokens.slots.set token (.live held') := by
  rw [Store.hold, Tokens.set, if_pos (Tokens.isLive_eq_true_iff.mpr ⟨held, Tokens.get?_eq_some_iff.mp hget⟩)]

theorem get?_hold {ε κ ς : Type} {s : Store ε κ ς} {token : TokenId} {held : Held κ ς}
    (hget : s.tokens.get? token = some held) (held' : Held κ ς) :
    (s.hold token held').tokens.get? token = some held' := by
  have hlt := (List.getElem?_eq_some_iff.mp (Tokens.get?_eq_some_iff.mp hget)).1
  rw [Tokens.get?_eq_some_iff, slots_hold hget]
  exact List.getElem?_set_self hlt

omit [LogStorage σ] in
/-- What a token holds may change, if it stays at its sequence; the other tokens are spared. -/
theorem keeps_hold {token : TokenId} {held : Held Timeline.Cursor Timeline.View}
    (hget : s.tokens.get? token = some held) (held' : Held Timeline.Cursor Timeline.View)
    (hseq : held'.seq? = held.seq?) : Keeps below s (s.hold token held') (· ≠ token) where
  held n held'' hne hheld := by
    have hset := Tokens.get?_eq_some_iff.mp hheld
    rw [slots_hold hget, List.getElem?_set_ne (Ne.symm hne)] at hset
    exact Tokens.get?_eq_some_iff.mpr hset
  guarded _ hs := by
    have hslot := Tokens.get?_eq_some_iff.mp hget
    rw [Guarded, slots_hold hget, map_set_of_getElem? (f := Token.seq?) (b := .live held') hslot hseq]
    exact hs
  view _ _ _ _ _ _ _ _ := rfl

theorem keeps_close : Keeps below s s.close.2 spared := by
  cases hopen : s.isOpen with
  | false =>
    rw [Store.close, hopen]
    exact keeps_refl
  | true =>
    obtain ⟨counters, hclose⟩ := close_of_isOpen hopen
    have hreleased : Keeps below s s.releaseAll spared :=
      releaseMany_keeps (P := fun s' => Keeps below s s' spared) (fun _ token h => h.trans (keeps_release token)) _
        (keeps_same rfl rfl)
    rw [hclose]
    exact hreleased.trans (keeps_same rfl (Connection.timeline_close _))

/-- Writing a batch only writes to the connection. -/
theorem keeps_writeBatch (b : Store.Batch) :
    Keeps (s.engine.sequence.toNat < UInt64.size - 1) s (b.write s).2.2 spared := by
  have hwrote : ∀ {ops result engine}, s.engine.write (.apply ops) = (result, engine) → ∀ counters,
      Keeps (s.engine.sequence.toNat < UInt64.size - 1) s { s with engine := engine, counters := counters } spared := by
    intro ops result engine hengine counters
    have hkeeps : Keeps _ s _ spared := keeps_write (.apply ops) counters
    rwa [hengine] at hkeeps
  have hwrites := Batch.writes b s
  generalize b.write s = written at hwrites ⊢
  cases hwrites with
  | closed | again | storeClosed => exact keeps_refl
  | engineClosed _ _ _ hengine => exact hwrote hengine _
  | applied _ _ _ hengine => exact hwrote hengine _
  | failed _ _ _ hengine => exact hwrote hengine _

end Store

namespace Client

variable {σ : Type} {c : OnConnection σ} {isOpen : Bool}

/-! ## Calls -/

/-- The call moves child `n` or adds an operation to it. -/
def Call.alters (n : Nat) : Call → Bool
  | .child k (.cursor (.move _)) | .child k (.batch (.add _)) => k = n
  | _ => false

/-- The call writes, or has a batch written. -/
def Call.isWrite : Call → Bool
  | .put .. | .delete _ | .child _ (.batch .write) | .child _ (.batch .writeAndClose) => true
  | _ => false

theorem length_tokens (h : c.Accounted isOpen) : c.store.tokens.slots.length = c.places.length := by
  have hlength := congrArg List.length h.tokens
  rwa [List.length_map, List.length_map] at hlength

theorem keeps_receive (h : c.Accounted isOpen) {below : Prop}
    {r : Except StoreError Handle × Store.OnConnection σ} (hr : c.store.Opens r) :
    Store.Keeps below c.store (c.receive r).2.store (· < c.places.length) := by
  have hopens : Store.Keeps below _ _ _ := Store.keeps_opens hr
  rw [length_tokens h] at hopens
  obtain ⟨result, store⟩ := r
  cases result <;> exact hopens

variable [LogStorage σ]

theorem keeps_ask (h : c.Accounted isOpen) {n : Nat} {place : Place} (hn : c.places[n]? = some place) (q : ChildCall) :
    Store.Keeps ((Call.child n q).isWrite = true → c.store.engine.sequence.toNat < UInt64.size - 1) c.store
      (c.ask n place q).2.store fun k => k < c.places.length ∧ (Call.child n q).alters k = false := by
  have htoken : place.handle.token = n := (h.listed n place hn).1
  unfold ask
  split
  · rename_i cursor q hcursor
    rw [hcursor] at htoken
    cases q with
    | move m =>
      show Store.Keeps _ c.store (cursor.move m c.store).2.2 _
      rcases Store.Cursor.move_cases m cursor c.store with ⟨e, hmove⟩ | ⟨raw, position, hraw, -, hmove⟩
      · rw [hmove]
        exact Store.keeps_refl
      · rw [hmove]
        refine (Store.keeps_hold (Store.get?_of_cursor? hraw) (.cursor (raw.move m c.store.engine.timeline)) rfl).mono ?_
        rintro k ⟨-, hk⟩ rfl
        exact absurd htoken.symm (of_decide_eq_false hk)
    | key | value | entry => exact Store.keeps_refl
  · rename_i b q hb
    rw [hb] at htoken
    cases q with
    | add op =>
      show Store.Keeps _ c.store (b.add op c.store).2 _
      rcases Store.Batch.add_cases op b c.store with ⟨e, hadd⟩ | ⟨ops, hops, hadd⟩
      · rw [hadd]
        exact Store.keeps_refl
      · rw [hadd]
        refine (Store.keeps_hold (Store.get?_of_batch? hops) (.batch (ops ++ [op])) rfl).mono ?_
        rintro k ⟨-, hk⟩ rfl
        exact absurd htoken.symm (of_decide_eq_false hk)
    | write => exact (Store.keeps_writeBatch b).of_imp fun hbelow => hbelow rfl
    | writeAndClose =>
      have hwrite {spared} : Store.Keeps _ c.store (b.write c.store).2.2 spared := Store.keeps_writeBatch b
      exact (hwrite.of_imp fun hbelow => hbelow rfl).trans (Store.keeps_discard _ _)
  · rename_i snapshot q _
    cases q with
    | get key =>
      show Store.Keeps _ c.store (snapshot.get key c.store).2 _
      rw [Store.Snapshot.get]
      split <;> exact Store.keeps_refl
    | sequence => exact Store.keeps_refl
    | cursor => exact (keeps_receive h (Store.opens_cursorOf snapshot c.store)).mono fun k hk => hk.1
  · rw [Handle.close_eq]
    exact Store.keeps_forget _ _
  · rw [Handle.drop_eq]
    exact Store.keeps_discard _ _
  · exact Store.keeps_refl

/-- A call spares all children but the one that it moves or adds to. -/
theorem keeps_step (h : c.Accounted isOpen) (q : Call) :
    Store.Keeps (q.isWrite = true → c.store.engine.sequence.toNat < UInt64.size - 1) c.store (c.step q).2.store
      fun n => n < c.places.length ∧ q.alters n = false := by
  cases q with
  | get key =>
    have hcall {below spared} : Store.Keeps below c.store (c.store.call (Engine.get key)).2 spared :=
      .call fun _ => Store.keeps_same rfl rfl
    exact hcall.count fun value counters => counters.countRead (.ofNat (value.elim 0 List.length))
  | put key value =>
    have hcall {spared} : Store.Keeps _ c.store (c.store.call (Engine.put key value)).2 spared :=
      .call (Store.keeps_write (.put key value))
    exact (hcall.count fun _ counters => counters.countWrite (.ofNat (key.length + value.length))).of_imp
      fun hbelow => hbelow rfl
  | delete key =>
    have hcall {spared} : Store.Keeps _ c.store (c.store.call (Engine.delete key)).2 spared :=
      .call (Store.keeps_write (.delete key))
    exact (hcall.count fun _ counters => counters.countDelete).of_imp fun hbelow => hbelow rfl
  | property name =>
    show Store.Keeps _ c.store (c.store.property name).2 _
    exact .call fun _ => Store.keeps_same rfl rfl
  | openCursor => exact (keeps_receive h (Store.opens_cursor c.store)).mono fun n hn => hn.1
  | openBatch => exact (keeps_receive h (Store.opens_writeBatch c.store)).mono fun n hn => hn.1
  | openSnapshot => exact (keeps_receive h (Store.opens_snapshot c.store)).mono fun n hn => hn.1
  | child n q =>
    unfold step
    dsimp only
    split
    · exact Store.keeps_refl
    · rename_i place hn
      split
      · exact Store.keeps_refl
      · exact keeps_ask h hn q
  | close => exact Store.keeps_close
  | drop => exact Store.keeps_close

/-! ## The list of the children -/

/-- Only a call that makes a child is answered with one. -/
theorem opens_of_reply {q : Call} {m : Nat} (h : (c.step q).1 = .ok (.child m)) :
    q = .openCursor ∨ q = .openBatch ∨ q = .openSnapshot ∨
      ∃ n snapshot fate, q = .child n (.snapshot .cursor) ∧ c.places[n]? = some ⟨.snapshot snapshot, fate⟩ ∧
        fate ≠ .dropped := by
  have hmap : ∀ {α : Type} {result : Except StoreError α} {f : α → Outcome}, (∀ a, f a ≠ .child m) →
      result.map f ≠ .ok (.child m) := by
    intro α result f hf hresult
    cases result with
    | error e => cases hresult
    | ok a => exact hf a (Except.ok.inj hresult)
  cases q with
  | get | put | delete | property | close => exact absurd h (hmap fun _ => nofun)
  | drop => cases h
  | openCursor => exact .inl rfl
  | openBatch => exact .inr (.inl rfl)
  | openSnapshot => exact .inr (.inr (.inl rfl))
  | child n q =>
    cases hn : c.places[n]? with
    | none =>
      rw [step_unmade hn] at h
      cases h
    | some place =>
      by_cases hfate : place.fate = .dropped
      · rw [step_dropped hn hfate] at h
        cases h
      · rw [step_child hn hfate] at h
        obtain ⟨handle, fate⟩ := place
        cases handle with
        | cursor cursor =>
          rcases q with (_ | _ | _ | _) | _ | _ | _ | _
          iterate 4 exact absurd h (hmap fun _ => nofun)
          all_goals cases h
        | batch b =>
          rcases q with _ | (_ | _ | _) | _ | _ | _
          · cases h
          iterate 3 exact absurd h (hmap fun _ => nofun)
          all_goals cases h
        | snapshot snapshot =>
          rcases q with _ | _ | (_ | _ | _) | _ | _
          · cases h
          · cases h
          · exact absurd h (hmap fun _ => nofun)
          · exact absurd h (hmap fun _ => nofun)
          · exact .inr (.inr (.inr ⟨n, snapshot, fate, rfl, hn, hfate⟩))
          · cases h
          · cases h

/-- Such a call has an outcome of those that making a child has. -/
theorem exists_opens_of_reply {q : Call} {m : Nat} (h : (c.step q).1 = .ok (.child m)) :
    ∃ r, c.store.Opens r ∧ c.step q = c.receive r := by
  rcases opens_of_reply h with rfl | rfl | rfl | ⟨n, snapshot, fate, rfl, hn, hfate⟩
  · exact ⟨_, Store.opens_cursor c.store, rfl⟩
  · exact ⟨_, Store.opens_writeBatch c.store, rfl⟩
  · exact ⟨_, Store.opens_snapshot c.store, rfl⟩
  · exact ⟨_, Store.opens_cursorOf snapshot c.store, step_child hn hfate _⟩

theorem ask_close {ε κ ς : Type} [Engine ε κ ς] (c : Client ε κ ς) (n : Nat) (place : Place) : c.ask n place .close =
    (.ok .done, ⟨place.handle.close c.store, c.places.set n { place with fate := .closed }⟩) := by
  obtain ⟨handle, fate⟩ := place
  cases handle <;> rfl

theorem ask_drop {ε κ ς : Type} [Engine ε κ ς] (c : Client ε κ ς) (n : Nat) (place : Place) : c.ask n place .drop =
    (.ok .done, ⟨place.handle.drop c.store, c.places.set n { place with fate := .dropped }⟩) := by
  obtain ⟨handle, fate⟩ := place
  cases handle <;> rfl

omit [LogStorage σ] in
theorem receive_cases (c : OnConnection σ) (r : Except StoreError Handle × Store.OnConnection σ) :
    (∃ handle, r.1 = .ok handle ∧
      c.receive r = (.ok (.child c.places.length), ⟨r.2, c.places ++ [⟨handle, .inUse⟩]⟩)) ∨
    ∃ e, r.1 = .error e ∧ c.receive r = (.error e, { c with store := r.2 }) := by
  obtain ⟨result, store⟩ := r
  cases result with
  | ok handle => exact .inl ⟨handle, rfl, rfl⟩
  | error e => exact .inr ⟨e, rfl, rfl⟩

/-- A call adds a child to the list and is answered with its number, or changes at most the child that it asks. -/
theorem places_step (c : OnConnection σ) (q : Call) :
    (∃ handle, (c.step q).1 = .ok (.child c.places.length) ∧
      (c.step q).2.places = c.places ++ [⟨handle, .inUse⟩]) ∨
    (∀ m, (c.step q).1 ≠ .ok (.child m)) ∧ ((c.step q).2.places = c.places ∨
      ∃ n q' place place', q = .child n q' ∧ c.places[n]? = some place ∧
        (c.step q).2.places = c.places.set n place' ∧ place'.handle.kind = place.handle.kind) := by
  have hreceive : ∀ r, c.step q = c.receive r →
      (∃ handle, (c.step q).1 = .ok (.child c.places.length) ∧
        (c.step q).2.places = c.places ++ [⟨handle, .inUse⟩]) ∨
      (∀ m, (c.step q).1 ≠ .ok (.child m)) ∧ (c.step q).2.places = c.places := by
    intro r hr
    rcases c.receive_cases r with ⟨handle, -, hok⟩ | ⟨e, -, herror⟩
    · rw [hr, hok]
      exact .inl ⟨handle, rfl, rfl⟩
    · rw [hr, herror]
      exact .inr ⟨fun _ => nofun, rfl⟩
  by_cases hchild : ∃ m, (c.step q).1 = .ok (.child m)
  · obtain ⟨m, hm⟩ := hchild
    obtain ⟨r, -, hr⟩ := exists_opens_of_reply hm
    exact (hreceive r hr).imp_right fun h => absurd hm (h.1 m)
  · refine .inr ⟨fun m hm => hchild ⟨m, hm⟩, ?_⟩
    have hsame : ∀ r, c.step q = c.receive r → (c.step q).2.places = c.places := fun r hr =>
      (hreceive r hr).elim (fun ⟨_, hm, _⟩ => absurd ⟨_, hm⟩ hchild) And.right
    cases q with
    | get | put | delete | property | close | drop => exact .inl rfl
    | openCursor | openBatch | openSnapshot => exact .inl (hsame _ rfl)
    | child n q =>
      cases hn : c.places[n]? with
      | none =>
        rw [step_unmade hn]
        exact .inl rfl
      | some place =>
        by_cases hfate : place.fate = .dropped
        · rw [step_dropped hn hfate]
          exact .inl rfl
        · have hstep := step_child hn hfate q
          rw [hstep] at hsame ⊢
          obtain ⟨handle, fate⟩ := place
          cases handle with
          | cursor cursor =>
            rcases q with (_ | _ | _ | _) | _ | _ | _ | _
            · exact .inr ⟨n, _, _, _, rfl, hn, rfl, rfl⟩
            iterate 5 exact .inl rfl
            iterate 2 exact .inr ⟨n, _, _, _, rfl, hn, rfl, rfl⟩
          | batch b =>
            rcases q with _ | (_ | _ | _) | _ | _ | _
            iterate 2 exact .inl rfl
            iterate 2 exact .inr ⟨n, _, _, _, rfl, hn, rfl, rfl⟩
            · exact .inl rfl
            iterate 2 exact .inr ⟨n, _, _, _, rfl, hn, rfl, rfl⟩
          | snapshot snapshot =>
            rcases q with _ | _ | (_ | _ | _) | _ | _
            iterate 4 exact .inl rfl
            · exact .inl (hsame _ rfl)
            iterate 2 exact .inr ⟨n, _, _, _, rfl, hn, rfl, rfl⟩

/-- A call leaves the children alone that it does not ask. -/
theorem getElem?_places_step {q : Call} {k : Nat} (hk : k < c.places.length) (hq : ∀ q', q ≠ .child k q') :
    (c.step q).2.places[k]? = c.places[k]? := by
  rcases c.places_step q with ⟨handle, -, hplaces⟩ | ⟨-, hplaces | ⟨n, q', _, _, rfl, -, hplaces, -⟩⟩
  · rw [hplaces, List.getElem?_append_left hk]
  · rw [hplaces]
  · have hne : n ≠ k := fun heq => hq q' (heq ▸ rfl)
    rw [hplaces, List.getElem?_set_ne hne]

/-- A child stays what it is. -/
theorem kind_places_step {n : Nat} {place place' : Place} {q : Call} (hn : c.places[n]? = some place)
    (hn' : (c.step q).2.places[n]? = some place') : place'.handle.kind = place.handle.kind := by
  have hlt := (List.getElem?_eq_some_iff.mp hn).1
  rcases c.places_step q with ⟨handle, -, hplaces⟩ | ⟨-, hplaces | ⟨m, q', old, new, -, hold, hplaces, hkind⟩⟩
  · rw [hplaces, List.getElem?_append_left hlt, hn] at hn'
    cases hn'
    rfl
  · rw [hplaces, hn] at hn'
    cases hn'
    rfl
  · rw [hplaces] at hn'
    by_cases hm : m = n
    · subst hm
      rw [List.getElem?_set_self hlt] at hn'
      cases hn'
      cases hold.symm.trans hn
      exact hkind
    · rw [List.getElem?_set_ne hm, hn] at hn'
      cases hn'
      rfl

/-- What a call does not ask is live afterwards if it was, unless the call is the end of the store. -/
theorem get?_step_of_live (h : c.Accounted isOpen) {q : Call} (hends : q.ends = false) {k : Nat} {place : Place}
    (hk : c.places[k]? = some place) (hk' : (c.step q).2.places[k]? = some place)
    (hnone : (c.step q).2.store.tokens.get? k = none) : c.store.tokens.get? k = none := by
  have hbefore := Store.Accounted.get? h hk
  have hafter := Store.Accounted.get? (accounted_step h q) hk'
  rw [hnone, Option.map_none, hends, Bool.not_false, Bool.true_and, ← hbefore] at hafter
  exact Option.map_eq_none_iff.mp hafter.symm

/-! ## Runs -/

/-- The event asks for a write. -/
def Event.isWrite {δ : Type} : Event δ → Bool
  | call q => q.isWrite
  | change _ => false

/-- No write is asked for at the last sequence there is. -/
abbrev WritesBelow (c : OnConnection σ) (events : List (Event (σ → σ))) : Prop :=
  SequencesSuffice (next Connection.mapLog) Event.isWrite (·.store.engine.sequence) c events

/-- An event keeps the readers guarded. -/
theorem guarded_next (hg : c.store.Guarded) (h : c.Accounted isOpen)
    {event : Event (σ → σ)} (hseq : event.isWrite = true → c.store.engine.sequence.toNat < UInt64.size - 1) :
    (c.next Connection.mapLog event).store.Guarded := by
  cases event with
  | call q => exact (keeps_step h q).guarded hseq hg
  | change f => exact hg

/-- A store over a connection that has just been opened has no readers to guard. -/
theorem guarded_start {path : Option String} {options : EngineOptions} {log : σ} {connection : Connection σ}
    (hopen : Connection.openOn path options log = .ok connection) (storePath : Option String) (storeOptions : Options) :
    (start (Store.ofEngine storePath storeOptions connection) : OnConnection σ).store.Guarded := by
  obtain ⟨replay, log', -, -, -, rfl⟩ := Connection.openOn_eq_ok hopen
  exact Timeline.guards_ofRecords replay.records

end Client

end OrderedStore
