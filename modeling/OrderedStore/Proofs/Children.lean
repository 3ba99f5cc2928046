import OrderedStore.Proofs.Client
import OrderedStore.Proofs.Connection
import OrderedStore.Proofs.Pins

/-!
# The children of a store

A store over a connection accounts for its children if its tokens, its registry and the pins of the
connection are what the owners of the children have made of them. Taking a child in, closing and dropping
one, and closing the store keep the account.

* `Store.Pinned`, `Store.Accounted`: the pins are those of the live readers; all accounts together;
* `Accounted.adopt`, `Accounted.forget`, `Accounted.discard`, `Accounted.close`: one lemma for each change;
* `Accounted.isLive_iff`, `Accounted.children_perm`, `Accounted.size_pins`: what the account says of the
  children, the registry and the pins.
-/

namespace OrderedStore

open Client

/-! ## Lists -/

theorem set_of_getElem? {α : Type} {l : List α} {n : Nat} {a : α} (h : l[n]? = some a) : l.set n a = l := by
  obtain ⟨hlt, heq⟩ := List.getElem?_eq_some_iff.mp h
  rw [← heq, List.set_getElem_self]

theorem map_set_of_getElem? {α β : Type} {f : α → β} {l : List α} {n : Nat} {a b : α} (h : l[n]? = some a)
    (hf : f b = f a) : (l.set n b).map f = l.map f := by
  have hmap : (l.map f)[n]? = some (f b) := by rw [List.getElem?_map, h, Option.map_some, hf]
  rw [List.map_set, set_of_getElem? hmap]

theorem getElem?_of_set {α : Type} {l : List α} {n i : Nat} {a b : α} (h : (l.set n a)[i]? = some b) :
    i = n ∧ b = a ∨ l[i]? = some b := by
  rw [List.getElem?_set] at h
  split at h
  · rename_i heq
    split at h
    · exact .inl ⟨heq.symm, (Option.some.inj h).symm⟩
    · cases h
  · exact .inr h

/-- Filtering a number out of a list that is numbered by places empties the place of this number. -/
theorem filter_reduceOption {l : List (Option Child)} {k n : Nat}
    (hid : ∀ (i : Nat) (child : Child), l[i]? = some (some child) → child.id = k + i + 1) :
    l.reduceOption.filter (·.id ≠ k + n + 1) = (l.set n none).reduceOption := by
  induction l generalizing k n with
  | nil => rfl
  | cons entry l ih =>
    have hrest : ∀ (i : Nat) (child : Child), l[i]? = some (some child) → child.id = (k + 1) + i + 1 := by
      intro i child hchild
      have := hid (i + 1) child hchild
      omega
    cases n with
    | zero =>
      have hself : l.reduceOption.filter (·.id ≠ k + 0 + 1) = l.reduceOption := by
        refine List.filter_eq_self.mpr fun child hchild => decide_eq_true fun heq => ?_
        obtain ⟨i, hi⟩ := List.getElem?_of_mem (List.reduceOption_mem_iff.mp hchild)
        have := hrest i child hi
        omega
      rw [List.set_cons_zero, List.reduceOption_cons_of_none]
      cases entry with
      | none => rw [List.reduceOption_cons_of_none, hself]
      | some child =>
        have hchild : child.id = k + 0 + 1 := hid 0 child rfl
        rw [List.reduceOption_cons_of_some, List.filter_cons_of_neg (by simpa using hchild), hself]
    | succ n =>
      have htail : l.reduceOption.filter (·.id ≠ k + (n + 1) + 1) = (l.set n none).reduceOption := by
        have := ih hrest (n := n)
        rwa [show k + 1 + n + 1 = k + (n + 1) + 1 by omega] at this
      rw [List.set_cons_succ]
      cases entry with
      | none => rw [List.reduceOption_cons_of_none, List.reduceOption_cons_of_none, htail]
      | some child =>
        have hchild : child.id = k + 0 + 1 := hid 0 child rfl
        have hne : child.id ≠ k + (n + 1) + 1 := by omega
        rw [List.reduceOption_cons_of_some, List.reduceOption_cons_of_some,
          List.filter_cons_of_pos (by simpa using hne), htail]

/-! ## Tokens -/

/-- The same token with another thing in it. -/
def Token.map {α β : Type} (f : α → β) : Token α → Token β
  | live value => .live (f value)
  | released => .released
  | gone => .gone

/-- The token after its release. -/
def Token.emptied {α : Type} : Token α → Token α
  | live _ => .released
  | token => token

namespace Tokens

variable {α : Type} {t : Tokens α} {id : TokenId} {value : α}

theorem get?_eq_some_iff : t.get? id = some value ↔ t.slots[id]? = some (.live value) := by
  unfold get?
  split
  · rename_i v hslot
    rw [hslot, Option.some.injEq, Option.some.injEq, Token.live.injEq]
  · rename_i hslot
    exact ⟨fun h => (nomatch h), fun h => absurd h (hslot value)⟩

theorem isLive_eq_true_iff : t.isLive id = true ↔ ∃ value, t.slots[id]? = some (.live value) := by
  rw [isLive, Option.isSome_iff_exists]
  exact exists_congr fun value => get?_eq_some_iff

theorem slots_release_of_get? (h : t.get? id = some value) : (t.release id).slots = t.slots.set id .released := by
  rw [release, isLive, h, Option.isSome_some, if_pos rfl]

theorem release_of_get?_eq_none (h : t.get? id = none) : t.release id = t := by
  rw [release, isLive, h, Option.isSome_none, if_neg Bool.false_ne_true]

/-- A release empties one token, and a token that holds nothing stays as it is. -/
theorem getElem?_slots_release (t : Tokens α) (id j : TokenId) :
    (t.release id).slots[j]? = if j = id then t.slots[j]?.map Token.emptied else t.slots[j]? := by
  cases hget : t.get? id with
  | none =>
    rw [release_of_get?_eq_none hget]
    split
    · rename_i heq
      subst heq
      cases hslot : t.slots[j]? with
      | none => rfl
      | some token =>
        cases token with
        | live value =>
          rw [get?_eq_some_iff.mpr hslot] at hget
          cases hget
        | released => rfl
        | gone => rfl
    · rfl
  | some value =>
    rw [slots_release_of_get? hget, List.getElem?_set]
    split
    · rename_i heq
      subst heq
      have hslot := get?_eq_some_iff.mp hget
      have hlt := (List.getElem?_eq_some_iff.mp hslot).1
      rw [if_pos hlt, if_pos rfl, hslot]
      rfl
    · rename_i hne
      rw [if_neg (Ne.symm hne)]

end Tokens

/-- The kind of child that a token is for. -/
def Held.kind {κ ς : Type} : Held κ ς → Resource
  | cursor _ => .cursor
  | batch _ => .batch
  | snapshot _ => .snapshot

/-- The sequence at which the thing that a token holds is pinned. -/
def Held.seq? : Held Timeline.Cursor Timeline.View → Option Sequence
  | cursor raw => some raw.seq
  | batch _ => none
  | snapshot view => some view.seq

/-- The sequence at which a token keeps a pin. -/
def Token.seq? : Token (Held Timeline.Cursor Timeline.View) → Option Sequence
  | live held => held.seq?
  | _ => none

/-! ## Accounts -/

namespace Client

/-- What a child's token is when its store is open, and when it is closed. -/
def Place.token (isOpen : Bool) (p : Place) : Token Resource :=
  match p.fate with
  | .inUse => if isOpen then .live p.handle.kind else .released
  | .closed => .released
  | .dropped => .gone

/-- What the registry of an open store says of a child. -/
def Place.entry? (p : Place) : Option Child := if p.fate = .inUse then some p.handle.entry else none

theorem reduceOption_entries (places : List Place) :
    (places.map Place.entry?).reduceOption = (places.filter (·.fate = .inUse)).map (·.handle.entry) := by
  induction places with
  | nil => rfl
  | cons p places ih =>
    by_cases hfate : p.fate = .inUse
    · have hentry : p.entry? = some p.handle.entry := if_pos hfate
      rw [List.map_cons, hentry, List.reduceOption_cons_of_some, ih,
        List.filter_cons_of_pos (by simpa using hfate), List.map_cons]
    · have hentry : p.entry? = none := if_neg hfate
      rw [List.map_cons, hentry, List.reduceOption_cons_of_none, ih,
        List.filter_cons_of_neg (by simpa using hfate)]

/-- The child has not recorded itself that it is closed; this is told by its token. -/
def Handle.Steady : Handle → Prop
  | .cursor c => c.position ≠ .closed
  | .batch b => b.progress ≠ .closed
  | .snapshot _ => True

/-- The children have the tokens and the numbers of their places. -/
def Listed (places : List Place) : Prop :=
  ∀ n place, places[n]? = some place → place.handle.token = n ∧ place.handle.id = n + 1 ∧ place.handle.Steady

/-- The owner's copy of a child may change, but not in what tells the children apart. -/
theorem Listed.set {places : List Place} (h : Listed places) {n : Nat} {place place' : Place}
    (hn : places[n]? = some place) (hentry : place'.handle.entry = place.handle.entry)
    (hsteady : place'.handle.Steady) : Listed (places.set n place') := by
  intro i q hq
  rcases getElem?_of_set hq with ⟨rfl, rfl⟩ | hq
  · have htoken : q.handle.token = place.handle.token := congrArg Child.token hentry
    have hid : q.handle.id = place.handle.id := congrArg Child.id hentry
    obtain ⟨hplace, hnumber, -⟩ := h i place hn
    exact ⟨htoken.trans hplace, hid.trans hnumber, hsteady⟩
  · exact h i q hq

theorem Listed.append {places : List Place} (h : Listed places) {place : Place}
    (htoken : place.handle.token = places.length) (hid : place.handle.id = places.length + 1)
    (hsteady : place.handle.Steady) : Listed (places ++ [place]) := by
  intro n q hq
  rw [List.getElem?_append] at hq
  split at hq
  · exact h n q hq
  · rename_i hlt
    rw [List.getElem?_singleton] at hq
    split at hq
    · rename_i hzero
      have hn : n = places.length := by omega
      cases hq
      rw [hn]
      exact ⟨htoken, hid, hsteady⟩
    · cases hq

end Client

namespace Store

/-- A store over a connection. -/
abbrev OnConnection (σ : Type) := Store (Connection σ) Timeline.Cursor Timeline.View

variable {σ : Type} {s : OnConnection σ} {isOpen : Bool} {places : List Place}

/-- The pins of the connection are those of the readers whose tokens are live. -/
def Pinned (s : OnConnection σ) : Prop :=
  (s.tokens.slots.map Token.seq?).reduceOption.Perm s.engine.timeline.pins.pinned

/-- The store is open or closed as `isOpen` says, and its tokens, its registry and its pins are what the owners of its
children have made of them. -/
structure Accounted (s : OnConnection σ) (isOpen : Bool) (places : List Place) : Prop where
  status : s.isOpen = isOpen
  listed : Listed places
  tokens : s.tokens.slots.map (Token.map Held.kind) = places.map (Place.token isOpen)
  lastId : s.registry.lastId = places.length
  children : s.registry.children = if isOpen then (places.map Place.entry?).reduceOption.reverse else []
  pinned : s.Pinned

theorem accounted_ofEngine (path : Option String) (options : Options) {c : Connection σ}
    (h : c.timeline.pins = .empty) : Accounted (ofEngine path options c) true [] where
  status := rfl
  listed _ _ h := nomatch h
  tokens := rfl
  lastId := rfl
  children := rfl
  pinned := by
    show List.Perm [] c.timeline.pins.pinned
    rw [h]
    exact .refl _

/-- What the account is about stays as it is. -/
theorem Accounted.congr (h : s.Accounted isOpen places) {s' : OnConnection σ}
    (htokens : s'.tokens = s.tokens) (hregistry : s'.registry = s.registry) (hopen : s'.isOpen = s.isOpen)
    (hpins : s'.engine.timeline.pins = s.engine.timeline.pins) : s'.Accounted isOpen places where
  status := hopen.trans h.status
  listed := h.listed
  tokens := by rw [htokens, h.tokens]
  lastId := by rw [hregistry, h.lastId]
  children := by rw [hregistry, h.children]
  pinned := by
    rw [Pinned, htokens, hpins]
    exact h.pinned

/-- What a token holds is of the kind of its child, which is in use in an open store. -/
theorem Accounted.get? (h : s.Accounted isOpen places) {n : Nat} {place : Place} (hn : places[n]? = some place) :
    (s.tokens.get? n).map Held.kind =
      if isOpen = true ∧ place.fate = .inUse then some place.handle.kind else none := by
  have hslot : s.tokens.slots[n]?.map (Token.map Held.kind) = some (place.token isOpen) := by
    rw [← List.getElem?_map, h.tokens, List.getElem?_map, hn, Option.map_some]
  obtain ⟨token, htoken, hkind⟩ := Option.map_eq_some_iff.mp hslot
  rw [Tokens.get?, htoken]
  cases hfate : place.fate with
  | inUse =>
    cases isOpen with
    | true =>
      rw [Place.token, hfate] at hkind
      cases token with
      | live held =>
        rw [if_pos ⟨rfl, rfl⟩]
        exact congrArg some (Token.live.inj hkind)
      | released => cases hkind
      | gone => cases hkind
    | false =>
      rw [Place.token, hfate] at hkind
      rw [if_neg (by simp)]
      cases token with
      | live held => cases hkind
      | released => rfl
      | gone => rfl
  | closed | dropped =>
    rw [Place.token, hfate] at hkind
    rw [if_neg (by simp)]
    cases token with
    | live held => cases hkind
    | released => rfl
    | gone => rfl

/-! ### One child -/

/-- The owner's copy of a child has changed. -/
theorem Accounted.set (h : s.Accounted isOpen places) {n : Nat} {place : Place} (hn : places[n]? = some place)
    (place' : Place) (hentry : place'.handle.entry = place.handle.entry) (hfate : place'.fate = place.fate)
    (hsteady : place'.handle.Steady) : s.Accounted isOpen (places.set n place') where
  status := h.status
  listed := h.listed.set hn hentry hsteady
  tokens := by
    rw [h.tokens]
    refine (map_set_of_getElem? hn ?_).symm
    have hkind : place'.handle.kind = place.handle.kind := congrArg Child.kind hentry
    rw [Place.token, Place.token, hfate, hkind]
  lastId := by rw [h.lastId, List.length_set]
  children := by
    have hentries : (places.set n place').map Place.entry? = places.map Place.entry? := by
      refine map_set_of_getElem? hn ?_
      rw [Place.entry?, Place.entry?, hfate, hentry]
    rw [h.children, hentries]
  pinned := h.pinned

/-- A live token may hold another thing of the same kind at the same sequence. -/
theorem Accounted.hold (h : s.Accounted isOpen places) {token : TokenId} {held : Held Timeline.Cursor Timeline.View}
    (hget : s.tokens.get? token = some held) (held' : Held Timeline.Cursor Timeline.View)
    (hkind : held'.kind = held.kind) (hseq : held'.seq? = held.seq?) :
    (s.hold token held').Accounted isOpen places := by
  have hslot := Tokens.get?_eq_some_iff.mp hget
  have hslots : (s.tokens.set token held').slots = s.tokens.slots.set token (.live held') := by
    rw [Tokens.set, if_pos (Tokens.isLive_eq_true_iff.mpr ⟨held, hslot⟩)]
  exact {
    status := h.status
    listed := h.listed
    tokens := by
      refine Eq.trans ?_ h.tokens
      rw [Store.hold, hslots]
      exact map_set_of_getElem? hslot (congrArg Token.live hkind)
    lastId := h.lastId
    children := h.children
    pinned := by
      rw [Pinned, Store.hold, hslots, map_set_of_getElem? (f := Token.seq?) (b := .live held') hslot hseq]
      exact h.pinned }

/-- A new child of an open store; a reader has been pinned for it. -/
theorem Accounted.adopt (h : s.Accounted true places) {c : Connection σ} {counters : Counters}
    {held : Held Timeline.Cursor Timeline.View}
    (hpins : c.timeline.pins.pinned = held.seq?.toList ++ s.engine.timeline.pins.pinned) {handle : Handle}
    (hentry : handle.entry = ⟨s.registry.lastId + 1, held.kind, s.tokens.slots.length⟩) (hsteady : handle.Steady) :
    (({ s with engine := c, counters := counters } : OnConnection σ).adopt held.kind held).2.2.Accounted true
      (places ++ [⟨handle, .inUse⟩]) := by
  have hlength : s.tokens.slots.length = places.length := by
    have := congrArg List.length h.tokens
    rwa [List.length_map, List.length_map] at this
  have htoken : handle.token = s.tokens.slots.length := congrArg Child.token hentry
  have hid : handle.id = s.registry.lastId + 1 := congrArg Child.id hentry
  have hkind : handle.kind = held.kind := congrArg Child.kind hentry
  exact {
    status := h.status
    listed := h.listed.append (htoken.trans hlength) (hid.trans (congrArg (· + 1) h.lastId)) hsteady
    tokens := by
      have hnew : Place.token true ⟨handle, .inUse⟩ = .live held.kind := congrArg Token.live hkind
      show (s.tokens.slots ++ [Token.live held]).map _ = (places ++ [Place.mk handle .inUse]).map (Place.token true)
      rw [List.map_append, List.map_append, h.tokens, List.map_singleton, List.map_singleton, hnew]
      rfl
    lastId := by
      show s.registry.lastId + 1 = _
      rw [h.lastId, List.length_append]
      rfl
    children := by
      have hnew : Place.entry? ⟨handle, .inUse⟩ = some ⟨s.registry.lastId + 1, held.kind, s.tokens.slots.length⟩ := by
        rw [Place.entry?, if_pos rfl, hentry]
      show Child.mk (s.registry.lastId + 1) held.kind s.tokens.slots.length :: s.registry.children =
        if true then _ else _
      rw [h.children, if_pos rfl, if_pos rfl, List.map_append, List.map_singleton, List.reduceOption_append,
        hnew, List.reduceOption_singleton, Option.toList_some, List.reverse_append, List.reverse_singleton]
      rfl
    pinned := by
      show ((s.tokens.slots ++ [Token.live held]).map Token.seq?).reduceOption.Perm c.timeline.pins.pinned
      have hnew : Token.seq? (.live held) = held.seq? := rfl
      rw [List.map_append, List.map_singleton, List.reduceOption_append, hnew, hpins, List.reduceOption_singleton]
      exact (h.pinned.append_right _).trans List.perm_append_comm }

/-! ### Releasing -/

section Release

variable [LogStorage σ]

theorem tokens_release {ε κ ς : Type} [Engine ε κ ς] (s : Store ε κ ς) (token : TokenId) :
    (s.release token).tokens = s.tokens.release token := by
  unfold release
  split
  · rename_i hnone
    exact (Tokens.release_of_get?_eq_none hnone).symm
  · rfl
  · rfl
  · rfl

theorem registry_release (s : OnConnection σ) (token : TokenId) : (s.release token).registry = s.registry := by
  unfold release
  split <;> rfl

theorem isOpen_release (s : OnConnection σ) (token : TokenId) : (s.release token).isOpen = s.isOpen := by
  unfold release
  split <;> rfl

/-- A reader takes its pin with it when its token is released. -/
theorem Pinned.release (h : s.Pinned) (token : TokenId) : (s.release token).Pinned := by
  have hset : ∀ held, s.tokens.get? token = some held →
      ((s.tokens.release token).slots.map Token.seq?) = (s.tokens.slots.map Token.seq?).set token none := by
    intro held hget
    rw [Tokens.slots_release_of_get? hget, List.map_set]
    rfl
  have hseq : ∀ held, s.tokens.get? token = some held → (s.tokens.slots.map Token.seq?)[token]? = some held.seq? := by
    intro held hget
    rw [List.getElem?_map, Tokens.get?_eq_some_iff.mp hget]
    rfl
  unfold Store.release
  split
  · exact h
  · rename_i raw hget
    show List.Perm _ (s.engine.dropReader raw.seq).timeline.pins.pinned
    rw [hset _ hget, Connection.dropReader, Timeline.pins_unpin]
    exact Pins.perm_unpin h (hseq _ hget)
  · rename_i ops hget
    show List.Perm _ s.engine.timeline.pins.pinned
    rw [hset _ hget, set_of_getElem? (a := none) (hseq _ hget)]
    exact h
  · rename_i view hget
    show List.Perm _ (s.engine.dropReader view.seq).timeline.pins.pinned
    rw [hset _ hget, Connection.dropReader, Timeline.pins_unpin]
    exact Pins.perm_unpin h (hseq _ hget)

/-- A child is closed. -/
theorem Accounted.forget (h : s.Accounted isOpen places) {n : Nat} {place : Place} (hn : places[n]? = some place)
    (hfate : place.fate ≠ .dropped) :
    (s.forget n (n + 1)).Accounted isOpen (places.set n { place with fate := .closed }) where
  status := (isOpen_release s n).trans h.status
  listed := h.listed.set hn rfl (h.listed n place hn).2.2
  tokens := by
    show (s.release n).tokens.slots.map _ = (places.set n _).map (Place.token isOpen)
    have hnew : Place.token isOpen { place with fate := .closed } = .released := rfl
    rw [tokens_release, List.map_set, hnew, ← h.tokens]
    cases hget : s.tokens.get? n with
    | some held =>
      rw [Tokens.slots_release_of_get? hget, List.map_set]
      rfl
    | none =>
      rw [Tokens.release_of_get?_eq_none hget]
      refine (set_of_getElem? ?_).symm
      -- The token is released already, because the child or its store is closed.
      have hkind := h.get? hn
      rw [hget, Option.map_none] at hkind
      have htoken : place.token isOpen = .released := by
        rw [Place.token]
        cases hcase : place.fate with
        | inUse =>
          cases isOpen with
          | true =>
            rw [hcase, if_pos ⟨rfl, rfl⟩] at hkind
            cases hkind
          | false => rfl
        | closed => rfl
        | dropped => exact absurd hcase hfate
      rw [h.tokens, List.getElem?_map, hn, Option.map_some, htoken]
  lastId := by
    show (s.release n).registry.lastId = _
    rw [registry_release, h.lastId, List.length_set]
  children := by
    show (s.release n).registry.children.filter (·.id ≠ n + 1) = if isOpen then _ else _
    have hnew : Place.entry? { place with fate := .closed } = none := rfl
    rw [registry_release, h.children]
    cases isOpen with
    | false => rfl
    | true =>
      rw [if_pos rfl, if_pos rfl, List.filter_reverse, List.map_set, hnew]
      have hid : ∀ (i : Nat) (child : Child), (places.map Place.entry?)[i]? = some (some child) →
          child.id = 0 + i + 1 := by
        intro i child hchild
        rw [List.getElem?_map] at hchild
        obtain ⟨q, hq, hentry⟩ := Option.map_eq_some_iff.mp hchild
        rw [Place.entry?] at hentry
        split at hentry
        · cases hentry
          rw [Nat.zero_add]
          exact (h.listed i q hq).2.1
        · cases hentry
      have hfilter := filter_reduceOption (n := n) hid
      rw [Nat.zero_add] at hfilter
      rw [hfilter]
  pinned := h.pinned.release n

omit [LogStorage σ] in
/-- Nobody has a closed child any more. -/
theorem Accounted.giveUp (h : s.Accounted isOpen places) {n : Nat} {place : Place} (hn : places[n]? = some place)
    (hfate : place.fate = .closed) :
    ({ s with tokens := s.tokens.discard n } : OnConnection σ).Accounted isOpen
      (places.set n { place with fate := .dropped }) where
  status := h.status
  listed := h.listed.set hn rfl (h.listed n place hn).2.2
  tokens := by
    show (s.tokens.slots.set n .gone).map (Token.map Held.kind) = (places.set n _).map (Place.token isOpen)
    rw [List.map_set, List.map_set, h.tokens]
    rfl
  lastId := by rw [h.lastId, List.length_set]
  children := by
    have hentries : (places.set n { place with fate := .dropped }).map Place.entry? = places.map Place.entry? := by
      refine map_set_of_getElem? hn ?_
      rw [Place.entry?, Place.entry?, hfate]
      rfl
    rw [h.children, hentries]
  pinned := by
    have hslot : s.tokens.slots[n]?.map (Token.map Held.kind) = some .released := by
      rw [← List.getElem?_map, h.tokens, List.getElem?_map, hn, Option.map_some, Place.token, hfate]
    have hseq : (s.tokens.slots.map Token.seq?)[n]? = some none := by
      obtain ⟨token, htoken, hreleased⟩ := Option.map_eq_some_iff.mp hslot
      rw [List.getElem?_map, htoken, Option.map_some]
      cases token with
      | live held => cases hreleased
      | released => rfl
      | gone => rfl
    show List.Perm ((s.tokens.slots.set n .gone).map Token.seq?).reduceOption s.engine.timeline.pins.pinned
    rw [List.map_set, show Token.seq? .gone = none from rfl, set_of_getElem? hseq]
    exact h.pinned

/-- A child is dropped. -/
theorem Accounted.discard (h : s.Accounted isOpen places) {n : Nat} {place : Place} (hn : places[n]? = some place)
    (hfate : place.fate ≠ .dropped) :
    (s.discard n (n + 1)).Accounted isOpen (places.set n { place with fate := .dropped }) := by
  have hlt : n < places.length := (List.getElem?_eq_some_iff.mp hn).1
  have hclosed : (places.set n { place with fate := .closed })[n]? = some { place with fate := .closed } :=
    List.getElem?_set_self hlt
  have hdropped := (h.forget hn hfate).giveUp hclosed rfl
  rwa [List.set_set] at hdropped

/-! ### Closing the store -/

/-- The tokens of the children that are to be released are released, and the others stay. -/
theorem getElem?_slots_releaseMany (children : List Child) (s : OnConnection σ) (j : Nat) :
    (children.foldl (fun s child => s.release child.token) s).tokens.slots[j]? =
      if j ∈ children.map Child.token then s.tokens.slots[j]?.map Token.emptied else s.tokens.slots[j]? := by
  induction children generalizing s with
  | nil => rfl
  | cons child children ih =>
    have htwice : ∀ slot : Option (Token (Held Timeline.Cursor Timeline.View)),
        (slot.map Token.emptied).map Token.emptied = slot.map Token.emptied := by
      intro slot
      cases slot with
      | none => rfl
      | some token => cases token <;> rfl
    rw [List.foldl_cons, ih, tokens_release, Tokens.getElem?_slots_release]
    by_cases hj : j = child.token
    · simp only [hj, List.map_cons, List.mem_cons, true_or, if_true, htwice, ite_self]
    · simp only [List.map_cons, List.mem_cons, hj, false_or, if_false]

/-- What releasing one child keeps, releasing many keeps. -/
theorem releaseMany_keeps {ε κ ς : Type} [Engine ε κ ς] {P : Store ε κ ς → Prop}
    (hone : ∀ s token, P s → P (s.release token)) (children : List Child) {s : Store ε κ ς} (h : P s) :
    P (children.foldl (fun s child => s.release child.token) s) :=
  List.foldlRecOn (motive := P) _ _ h fun s hs child _ => hone s child.token hs

omit [LogStorage σ] in
/-- The registry of an open store has an entry for every live token. -/
theorem Accounted.mem_children (h : s.Accounted true places) {n : TokenId}
    {held : Held Timeline.Cursor Timeline.View} (hslot : s.tokens.slots[n]? = some (.live held)) :
    ∃ child ∈ s.registry.children, child.token = n := by
  have htoken : (places.map (Place.token true))[n]? = some (.live held.kind) := by
    rw [← h.tokens, List.getElem?_map, hslot]
    rfl
  rw [List.getElem?_map] at htoken
  obtain ⟨place, hplace, hlive⟩ := Option.map_eq_some_iff.mp htoken
  have hfate : place.fate = .inUse := by
    rw [Place.token] at hlive
    cases hcase : place.fate with
    | inUse => rfl
    | closed =>
      rw [hcase] at hlive
      cases hlive
    | dropped =>
      rw [hcase] at hlive
      cases hlive
  refine ⟨⟨place.handle.id, place.handle.kind, place.handle.token⟩, ?_, (h.listed n place hplace).1⟩
  rw [h.children, if_pos rfl, List.mem_reverse, List.reduceOption_mem_iff, List.mem_map]
  exact ⟨place, List.mem_of_getElem? hplace, if_pos hfate⟩

/-- Releasing all children empties every token, although it goes by the registry. -/
theorem Accounted.slots_releaseAll (h : s.Accounted true places) :
    s.releaseAll.tokens.slots = s.tokens.slots.map Token.emptied := by
  refine List.ext_getElem? fun j => ?_
  rw [List.getElem?_map]
  refine (getElem?_slots_releaseMany _ _ j).trans ?_
  split
  · rfl
  · rename_i hnot
    cases hslot : s.tokens.slots[j]? with
    | none => rfl
    | some token =>
      cases token with
      | live held =>
        obtain ⟨child, hchild, rfl⟩ := h.mem_children hslot
        have hheld : s.tokens.isHeld child.token = true := by rw [Tokens.isHeld, hslot]
        exact absurd (List.mem_map_of_mem (List.mem_filter.mpr ⟨hchild, hheld⟩)) hnot
      | released => rfl
      | gone => rfl

theorem close_of_isOpen (hopen : s.isOpen = true) :
    ∃ counters, s.close.2 =
      { s.releaseAll with engine := s.releaseAll.engine.close.2, isOpen := false, counters := counters } := by
  have hengine : Engine.close s.releaseAll.engine = s.releaseAll.engine.close := rfl
  obtain ⟨result, c, hclose⟩ : ∃ result c, s.releaseAll.engine.close = (result, c) := ⟨_, _, rfl⟩
  simp only [Store.close, hopen, Bool.not_true, if_neg Bool.false_ne_true, hengine, hclose]
  cases result with
  | ok => exact ⟨_, rfl⟩
  | error e => exact ⟨_, rfl⟩

/-- The store is closed. -/
theorem Accounted.close (h : s.Accounted isOpen places) : s.close.2.Accounted false places := by
  cases isOpen with
  | false =>
    rw [Store.close, h.status]
    exact h
  | true =>
    obtain ⟨counters, hclose⟩ := close_of_isOpen h.status
    have hregistry : s.releaseAll.registry = { s.registry with children := [] } :=
      releaseMany_keeps (P := fun s' => s'.registry = { s.registry with children := [] })
        (fun s' token h' => (registry_release s' token).trans h') _ rfl
    have hpinned : s.releaseAll.Pinned := releaseMany_keeps (P := Pinned) (fun _ token h' => h'.release token) _ h.pinned
    rw [hclose]
    exact {
      status := rfl
      listed := h.listed
      tokens := by
        show s.releaseAll.tokens.slots.map (Token.map Held.kind) = places.map (Place.token false)
        have hkind : ∀ token : Token (Held Timeline.Cursor Timeline.View),
            Token.map Held.kind token.emptied = (Token.map Held.kind token).emptied := by
          intro token
          cases token <;> rfl
        have hplace : ∀ place : Place, Place.token false place = (Place.token true place).emptied := by
          intro place
          unfold Place.token
          cases place.fate <;> rfl
        rw [h.slots_releaseAll, List.map_map]
        calc s.tokens.slots.map (Token.map Held.kind ∘ Token.emptied)
            = (s.tokens.slots.map (Token.map Held.kind)).map Token.emptied := by
              rw [List.map_map]
              exact List.map_congr_left fun token _ => hkind token
          _ = (places.map (Place.token true)).map Token.emptied := by rw [h.tokens]
          _ = places.map (Place.token false) := by
              rw [List.map_map]
              exact List.map_congr_left fun place _ => (hplace place).symm
      lastId := by
        show s.releaseAll.registry.lastId = _
        rw [hregistry, ← h.lastId]
      children := by
        show s.releaseAll.registry.children = _
        rw [hregistry]
        rfl
      pinned := by
        show List.Perm _ s.releaseAll.engine.close.2.timeline.pins.pinned
        rw [Connection.timeline_close]
        exact hpinned }

end Release

/-! ### What the account says -/

theorem isSome_cursor? {token : TokenId} :
    (s.cursor? token).isSome = true ↔ (s.tokens.get? token).map Held.kind = some .cursor := by
  unfold cursor?
  rcases s.tokens.get? token with _ | _ | _ | _ <;> simp [Held.kind]

theorem isSome_batch? {token : TokenId} :
    (s.batch? token).isSome = true ↔ (s.tokens.get? token).map Held.kind = some .batch := by
  unfold batch?
  rcases s.tokens.get? token with _ | _ | _ | _ <;> simp [Held.kind]

theorem isSome_snapshot? {token : TokenId} :
    (s.snapshot? token).isSome = true ↔ (s.tokens.get? token).map Held.kind = some .snapshot := by
  unfold snapshot?
  rcases s.tokens.get? token with _ | _ | _ | _ <;> simp [Held.kind]

/-- A child reports itself live if its token holds a thing of its kind. -/
theorem isLive_iff_of_steady {handle : Handle} (h : handle.Steady) :
    handle.isLive s = true ↔ (s.tokens.get? handle.token).map Held.kind = some handle.kind := by
  cases handle with
  | cursor c =>
    show decide (c.state s ≠ .closed) = true ↔ _
    rw [decide_eq_true_eq, Cursor.state]
    split
    · rename_i hsome
      exact ⟨fun _ => isSome_cursor?.mp hsome, fun _ => h⟩
    · rename_i hsome
      exact ⟨fun hne => absurd rfl hne, fun hheld => absurd (isSome_cursor?.mpr hheld) hsome⟩
  | batch b =>
    show decide (b.state s ≠ .closed) = true ↔ _
    rw [decide_eq_true_eq, Batch.state]
    split
    · rename_i hsome
      exact ⟨fun _ => isSome_batch?.mp hsome, fun _ => h⟩
    · rename_i hsome
      exact ⟨fun hne => absurd rfl hne, fun hheld => absurd (isSome_batch?.mpr hheld) hsome⟩
  | snapshot n => exact isSome_snapshot?

/-- The children of an open store that are in use report themselves live, and no others do. -/
theorem Accounted.isLive_iff (h : s.Accounted isOpen places) {place : Place} (hplace : place ∈ places) :
    place.handle.isLive s = true ↔ isOpen = true ∧ place.fate = .inUse := by
  obtain ⟨n, hn⟩ := List.getElem?_of_mem hplace
  obtain ⟨htoken, -, hsteady⟩ := h.listed n place hn
  rw [isLive_iff_of_steady hsteady, htoken, h.get? hn]
  split
  · rename_i hlive
    exact ⟨fun _ => hlive, fun _ => rfl⟩
  · rename_i hdead
    exact ⟨fun hnone => (nomatch hnone), fun hlive => absurd hlive hdead⟩

/-- The registry of an open store has one entry for every child that reports itself live. -/
theorem Accounted.children_perm (h : s.Accounted true places) :
    s.registry.children.Perm ((places.filter (·.handle.isLive s)).map (·.handle.entry)) := by
  have hlive : places.filter (·.handle.isLive s) = places.filter (·.fate = .inUse) := by
    refine List.filter_congr fun p hp => Bool.eq_iff_iff.mpr ?_
    rw [h.isLive_iff hp, decide_eq_true_eq]
    exact and_iff_right rfl
  rw [h.children, if_pos rfl, reduceOption_entries, hlive]
  exact List.reverse_perm _

/-- The token of every child in the registry of an open store is live. -/
theorem Accounted.isLive_token (h : s.Accounted true places) {child : Child}
    (hchild : child ∈ s.registry.children) : s.tokens.isLive child.token = true := by
  obtain ⟨place, hplace, rfl⟩ := List.mem_map.mp ((h.children_perm).subset hchild)
  obtain ⟨hmem, hlive⟩ := List.mem_filter.mp hplace
  obtain ⟨n, hn⟩ := List.getElem?_of_mem hmem
  obtain ⟨-, -, hsteady⟩ := h.listed n place hn
  obtain ⟨held, hget, -⟩ := Option.map_eq_some_iff.mp ((isLive_iff_of_steady hsteady).mp hlive)
  exact Option.isSome_iff_exists.mpr ⟨held, hget⟩

/-- The children are numbered from one. -/
theorem Accounted.ids (h : s.Accounted isOpen places) : places.map (·.handle.id) = List.range' 1 places.length := by
  refine List.ext_getElem (by rw [List.length_map, List.length_range']) fun n hn _ => ?_
  rw [List.length_map] at hn
  rw [List.getElem_map, List.getElem_range', (h.listed n _ (List.getElem?_eq_getElem hn)).2.1]
  omega

/-- No number is in a registry twice. -/
theorem Accounted.nodup_ids (h : s.Accounted true places) : (s.registry.children.map Child.id).Nodup := by
  have hids : ((places.filter (·.handle.isLive s)).map (·.handle.id)).Nodup := by
    refine List.Nodup.sublist (List.filter_sublist.map _) ?_
    rw [h.ids]
    exact List.nodup_range'
  have hperm := (h.children_perm).map Child.id
  rw [List.map_map] at hperm
  exact hperm.nodup_iff.mpr hids

/-- The registry of an open store counts the children of a kind that report themselves live. -/
theorem Accounted.live_eq_countP (h : s.Accounted true places) (kind : Resource) :
    s.registry.live kind = places.countP fun p => p.handle.kind = kind ∧ p.handle.isLive s = true := by
  rw [Registry.live, (h.children_perm).countP_eq, List.countP_map, List.countP_filter]
  refine List.countP_congr fun p _ => ?_
  rw [Function.comp_apply, Bool.and_eq_true, decide_eq_true_eq, decide_eq_true_eq]
  rfl
/-- Their tokens are live. -/
theorem Accounted.live_eq_tokens (h : s.Accounted true places) (kind : Resource) :
    s.registry.live kind = (s.tokens.slots.map (Token.map Held.kind)).countP (· = .live kind) := by
  rw [h.live_eq_countP, h.tokens, List.countP_map]
  refine List.countP_congr fun p hp => ?_
  rw [Function.comp_apply, decide_eq_true_eq, decide_eq_true_eq, h.isLive_iff hp, Place.token]
  cases p.fate <;> simp

/-- Of the tokens, those of cursors and snapshots keep a pin. -/
theorem length_reduceOption_seq? (slots : List (Token (Held Timeline.Cursor Timeline.View))) :
    (slots.map Token.seq?).reduceOption.length =
      (slots.map (Token.map Held.kind)).countP (· = .live .cursor) +
        (slots.map (Token.map Held.kind)).countP (· = .live .snapshot) := by
  induction slots with
  | nil => rfl
  | cons token slots ih =>
    rw [List.map_cons, List.map_cons, List.countP_cons, List.countP_cons]
    rcases token with (raw | ops | view) | _ | _
    · have hseq : Token.seq? (.live (.cursor raw)) = some raw.seq := rfl
      rw [hseq, List.reduceOption_cons_of_some, List.length_cons, ih]
      simp [Token.map, Held.kind]
      omega
    · have hseq : Token.seq? (.live (.batch ops)) = none := rfl
      rw [hseq, List.reduceOption_cons_of_none, ih]
      simp [Token.map, Held.kind]
    · have hseq : Token.seq? (.live (.snapshot view)) = some view.seq := rfl
      rw [hseq, List.reduceOption_cons_of_some, List.length_cons, ih]
      simp [Token.map, Held.kind]
      omega
    · have hseq : Token.seq? .released = none := rfl
      rw [hseq, List.reduceOption_cons_of_none, ih]
      simp [Token.map]
    · have hseq : Token.seq? .gone = none := rfl
      rw [hseq, List.reduceOption_cons_of_none, ih]
      simp [Token.map]

/-- The connection of an open store keeps one pin for each live cursor and each live snapshot. -/
theorem Accounted.size_pins (h : s.Accounted true places) :
    s.engine.timeline.pins.size = s.registry.live .cursor + s.registry.live .snapshot := by
  rw [h.live_eq_tokens, h.live_eq_tokens, ← length_reduceOption_seq?]
  exact h.pinned.length_eq.symm

/-- The connection of a closed store keeps no pin. -/
theorem Accounted.size_pins_of_closed (h : s.Accounted false places) : s.engine.timeline.pins.size = 0 := by
  have hnone : ∀ kind, (s.tokens.slots.map (Token.map Held.kind)).countP (· = .live kind) = 0 := by
    intro kind
    rw [h.tokens, List.countP_eq_zero]
    intro token htoken
    obtain ⟨p, -, rfl⟩ := List.mem_map.mp htoken
    rw [Place.token]
    cases p.fate <;> simp
  have hlength := h.pinned.length_eq
  rw [length_reduceOption_seq?, hnone, hnone] at hlength
  exact hlength.symm

end Store

end OrderedStore
