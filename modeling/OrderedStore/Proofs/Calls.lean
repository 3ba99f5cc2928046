import OrderedStore.Proofs.Handles

/-!
# Calls of the interface

What one call of the interface does is what the program does with the request that the call makes.

* `Interface.Agrees`: the reply is that of the program, and the objects are those of the program;
* `Represents.store_or_lacks`: what a handle stands for;
* `agrees_store`, `agrees_open`, `agrees_child`, `agrees_retired`: the requests by what becomes of the handle;
* `Interface.agrees_run`: every call.
-/

namespace OrderedStore

/-! ## One call -/

namespace Program

variable {p : Program} {m : Nat} {q : Client.Call} {name : Name}

theorem answer_store (p : Program) (name : Name) {q : Client.Call}
    (h : ∀ n, (p.ask name.store q).1 ≠ .ok (.child n)) :
    p.answer name (.store q) = (.ofCore (p.ask name.store q).1, (p.ask name.store q).2) := by
  rw [answer]
  split
  · rename_i hask
    exact absurd (congrArg Prod.fst hask) (h _)
  · rename_i hask
    rw [hask]

theorem answer_store_child (p : Program) (name : Name) {q : Client.Call} {n : Nat}
    (h : (p.ask name.store q).1 = .ok (.child n)) :
    p.answer name (.store q) = (p.ask name.store q).2.issue ⟨made q, name.store, n⟩ := by
  rw [answer]
  split
  · rename_i hask
    rw [hask] at h ⊢
    cases h
    rfl
  · rename_i hother hask
    rw [hask] at h
    exact (hother n h).elim

/-- There is nothing to ask for the request. -/
def Idle (p : Program) : Interface.Request → Prop
  | .enroll _ => False
  | .ask handle kind _ => p.find? handle kind = none

end Program

namespace Interface

variable {i : Interface} {p : Program} {handle : Handle} {kind : Resource}

/-- The reply to a call, by what it has come to. -/
def replyOf : Except CallError Reply → Reply
  | .ok reply => reply
  | .error e => ⟨e.status, none⟩

/-- What a call has come to is what the program does with the request. If there is nothing to ask, nothing changes. -/
structure Agrees (i : Interface) (p : Program) (request : Request) (x : Except CallError Reply × Interface) : Prop where
  reply : replyOf x.1 = (p.serve request).1
  represents : x.2.Represents (p.serve request).2
  idle : p.Idle request → x.2 = i

theorem Represents.lacks (h : i.Represents p) (hnone : p.find? handle kind = none) : i.Lacks handle kind := by
  intro target htarget hkind
  cases hname : p.name? handle with
  | none => cases (h.free handle hname).symm.trans htarget
  | some name =>
    obtain ⟨target', htarget', hnames⟩ := h.live handle name hname
    cases htarget.symm.trans htarget'
    have hfound : p.find? handle kind = some name :=
      Option.filter_eq_some_iff.mpr ⟨hname, decide_eq_true (hnames.kind.symm.trans hkind)⟩
    cases hnone.symm.trans hfound

/-- The store of a client is that of its number. -/
theorem Represents.store (h : i.Represents p) {m : Nat} {client : DetachedClient}
    (hclient : p.clients[m]? = some client) : i.stores[m]? = some client.store := by
  rw [h.stores, List.getElem?_map, hclient]
  rfl

/-- What a handle stands for, if it is a store. -/
theorem Represents.store_or_lacks (h : i.Represents p) (handle : Handle) :
    (p.find? handle .store = none ∧ i.Lacks handle .store) ∨
      ∃ m client, p.find? handle .store = some ⟨.store, m, 0⟩ ∧ p.clients[m]? = some client ∧
        i.target? handle = some (.store m) := by
  cases hfind : p.find? handle .store with
  | none => exact .inl ⟨rfl, h.lacks hfind⟩
  | some name =>
    obtain ⟨hname, hkind⟩ := Program.find?_eq_some hfind
    obtain ⟨_, htarget, hnames⟩ := h.live handle name hname
    cases hnames with
    | cursor | batch => cases hkind
    | @store m client hclient => exact .inr ⟨m, client, rfl, hclient, htarget⟩

/-- What a handle stands for, if it is a cursor. -/
theorem Represents.cursor_or_lacks (h : i.Represents p) (handle : Handle) :
    (p.find? handle .cursor = none ∧ i.Lacks handle .cursor) ∨
      ∃ m n client cursor fate, p.find? handle .cursor = some ⟨.cursor, m, n⟩ ∧ p.clients[m]? = some client ∧
        i.target? handle = some (.cursor m cursor) ∧ client.places[n]? = some ⟨.cursor cursor, fate⟩ ∧
        fate ≠ .dropped := by
  cases hfind : p.find? handle .cursor with
  | none => exact .inl ⟨rfl, h.lacks hfind⟩
  | some name =>
    obtain ⟨hname, hkind⟩ := Program.find?_eq_some hfind
    obtain ⟨_, htarget, hnames⟩ := h.live handle name hname
    cases hnames with
    | store | batch => cases hkind
    | @cursor m n client cursor fate hclient hplace hfate =>
      exact .inr ⟨m, n, client, cursor, fate, rfl, hclient, htarget, hplace, hfate⟩

/-- What a handle stands for, if it is a batch. -/
theorem Represents.batch_or_lacks (h : i.Represents p) (handle : Handle) :
    (p.find? handle .batch = none ∧ i.Lacks handle .batch) ∨
      ∃ m n client batch fate, p.find? handle .batch = some ⟨.batch, m, n⟩ ∧ p.clients[m]? = some client ∧
        i.target? handle = some (.batch m batch) ∧ client.places[n]? = some ⟨.batch batch, fate⟩ ∧
        fate ≠ .dropped := by
  cases hfind : p.find? handle .batch with
  | none => exact .inl ⟨rfl, h.lacks hfind⟩
  | some name =>
    obtain ⟨hname, hkind⟩ := Program.find?_eq_some hfind
    obtain ⟨_, htarget, hnames⟩ := h.live handle name hname
    cases hnames with
    | store | cursor => cases hkind
    | @batch m n client batch fate hclient hplace hfate =>
      exact .inr ⟨m, n, client, batch, fate, rfl, hclient, htarget, hplace, hfate⟩

theorem agrees_of_lacks (h : i.Represents p) (hnone : p.find? handle kind = none) {q : Question}
    {result : Except CallError Reply} (hreply : replyOf result = q.stale) :
    Agrees i p (.ask handle kind q) (result, i) := by
  have hserve : p.serve (.ask handle kind q) = (q.stale, p) := by rw [Program.serve, hnone]
  rw [← hreply] at hserve
  exact ⟨(congrArg Prod.fst hserve).symm, hserve ▸ h, fun _ => rfl⟩

theorem agrees_of_find? {name : Name} (hname : p.find? handle kind = some name) {q : Question}
    {x : Except CallError Reply × Interface} (hreply : replyOf x.1 = (p.answer name q).1)
    (hrep : x.2.Represents (if q.retires then (p.answer name q).2.retire handle else (p.answer name q).2)) :
    Agrees i p (.ask handle kind q) x := by
  have hserve : p.serve (.ask handle kind q) =
      ((p.answer name q).1, if q.retires then (p.answer name q).2.retire handle else (p.answer name q).2) := by
    rw [Program.serve, hname]
  refine ⟨?_, ?_, fun hidle => ?_⟩
  · rw [hserve]
    exact hreply
  · rw [hserve]
    exact hrep
  · cases hname.symm.trans hidle

section Stores

variable {α : Type} {q : Client.Call} {op : AttachedStore → Except StoreError α × AttachedStore}

/-- A store is asked. -/
theorem Represents.asked_store (h : i.Represents p) {m : Nat} {client : DetachedClient} {s : AttachedStore}
    (hfind : p.find? handle .store = some ⟨.store, m, 0⟩) (hclient : p.clients[m]? = some client)
    (htarget : i.target? handle = some (.store m)) (hchild : ∀ n q', q ≠ .child n q')
    (hs : ((client.attach p.media).step q).2.store = s) : (i.withStore m s).Represents (p.ask m q).2 :=
  h.asked (Program.find?_eq_some hfind).1 hclient (Name.allows_of_ne _ hchild) hs rfl rfl rfl (fun _ _ => rfl)
    ⟨.store m, htarget, Program.Names.ask (.store hclient) hclient fun _ _ _ => rfl⟩

/-- A call of a store that makes no child. -/
theorem agrees_store (h : i.Represents p) (handle : Handle) {out : α → Client.Outcome} {f : α → Action Reply}
    (hstep : ∀ c : Client.OnConnection Medium, c.step q = ((op c.store).1.map out, { c with store := (op c.store).2 }))
    (hout : ∀ a n, out a ≠ .child n) (hf : ∀ a i, (f a).run i = (.ok (.ofCore (.ok (out a))), i))
    (hchild : ∀ n q', q ≠ .child n q') (hkeeps : (Question.store q).retires = false)
    (hstale : (Question.store q).stale = ⟨.closed, none⟩) :
    Agrees i p (.ask handle .store (.store q))
      ((storeAt handle >>= fun m => onStore m op >>= fun result => check result >>= f).run i) := by
  rcases h.store_or_lacks handle with ⟨hfind, hlacks⟩ | ⟨m, client, hfind, hclient, htarget⟩
  · rw [run_bind, run_storeAt_of_lacks hlacks]
    exact agrees_of_lacks h hfind hstale.symm
  · obtain ⟨result, s, hop⟩ : ∃ result s, op (client.store.attach p.media) = (result, s) := ⟨_, _, rfl⟩
    have hcore : (client.attach p.media).step q = (result.map out, ⟨s, client.places⟩) := by
      rw [hstep]
      exact congrArg (fun r : _ × AttachedStore =>
        (r.1.map out, (⟨r.2, client.places⟩ : Client.OnConnection Medium))) hop
    have hask : (p.ask m q).1 = result.map out := by rw [Program.ask_eq hclient, hcore]
    have hrep : (i.withStore m s).Represents (p.ask m q).2 :=
      h.asked_store hfind hclient htarget hchild (congrArg (·.2.store) hcore)
    have hanswer := p.answer_store ⟨.store, m, 0⟩ (q := q) fun n hn => by
      rw [hask] at hn
      cases result with
      | error e => cases hn
      | ok a => exact hout a n (Except.ok.inj hn)
    have hagrees : ∀ reply, replyOf reply = .ofCore (result.map out) →
        Agrees i p (.ask handle .store (.store q)) (reply, i.withStore m s) := by
      intro reply hreply
      refine agrees_of_find? hfind ?_ ?_
      · rw [hanswer, hask]
        exact hreply
      · rw [hkeeps, hanswer]
        exact hrep
    rw [run_bind, run_storeAt htarget]
    dsimp only
    rw [run_bind, run_onStore (h.store hclient), h.media, hop]
    dsimp only
    rw [run_bind, run_check]
    cases result with
    | error e => exact hagrees _ rfl
    | ok a =>
      show Agrees i p _ ((f a).run (i.withStore m s))
      rw [hf]
      exact hagrees _ rfl

/-- A call of a store that answers nothing but that it is done. -/
theorem agrees_done (h : i.Represents p) (handle : Handle)
    (hstep : ∀ c : Client.OnConnection Medium,
      c.step q = ((op c.store).1.map fun _ => .done, { c with store := (op c.store).2 }))
    (hchild : ∀ n q', q ≠ .child n q') (hkeeps : (Question.store q).retires = false)
    (hstale : (Question.store q).stale = ⟨.closed, none⟩) :
    Agrees i p (.ask handle .store (.store q))
      ((storeAt handle >>= fun m => onStore m op >>= fun result => check result >>= fun _ =>
        (pure ⟨.ok, none⟩ : Action Reply)).run i) :=
  agrees_store h handle hstep (by simp) (fun _ _ => rfl) hchild hkeeps hstale

/-- A call of a store that makes a child. -/
theorem agrees_open (h : i.Represents p) (hlen : p.names.length < UInt64.size) (handle : Handle)
    (wrap : α → Client.Handle) {target : Nat → α → Target}
    (hstep : ∀ c : Client.OnConnection Medium, c.step q = c.receive ((op c.store).1.map wrap, (op c.store).2))
    (hnames : ∀ {p : Program} {m n : Nat} {client : DetachedClient} {a : α}, p.clients[m]? = some client →
      client.places[n]? = some ⟨wrap a, .inUse⟩ → p.Names ⟨Program.made q, m, n⟩ (target m a))
    (hmade : Program.made q ≠ .store) (hchild : ∀ n q', q ≠ .child n q')
    (hkeeps : (Question.store q).retires = false) (hstale : (Question.store q).stale = ⟨.closed, none⟩) :
    Agrees i p (.ask handle .store (.store q))
      ((storeAt handle >>= fun m => onStore m op >>= fun result => check result >>= fun a =>
        Interface.issue (target m a)).run i) := by
  rcases h.store_or_lacks handle with ⟨hfind, hlacks⟩ | ⟨m, client, hfind, hclient, htarget⟩
  · rw [run_bind, run_storeAt_of_lacks hlacks]
    exact agrees_of_lacks h hfind hstale.symm
  · obtain ⟨result, s, hop⟩ : ∃ result s, op (client.store.attach p.media) = (result, s) := ⟨_, _, rfl⟩
    have hcore : (client.attach p.media).step q = (client.attach p.media).receive (result.map wrap, s) := by
      rw [hstep, show op (client.attach p.media).store = (result, s) from hop]
    have hstore : ((client.attach p.media).step q).2.store = s := by
      rw [hcore]
      cases result <;> rfl
    have hrep : (i.withStore m s).Represents (p.ask m q).2 :=
      h.asked_store hfind hclient htarget hchild hstore
    rw [run_bind, run_storeAt htarget]
    dsimp only
    rw [run_bind, run_onStore (h.store hclient), h.media, hop]
    dsimp only
    rw [run_bind, run_check]
    cases result with
    | error e =>
      have hask : (p.ask m q).1 = .error e := by
        rw [Program.ask_eq hclient, hcore]
        rfl
      have hanswer := p.answer_store ⟨.store, m, 0⟩ (q := q) fun n hn => by
        rw [hask] at hn
        cases hn
      refine agrees_of_find? hfind ?_ ?_
      · rw [hanswer, hask]
        rfl
      · rw [hkeeps, hanswer]
        exact hrep
    | ok a =>
      have hask : (p.ask m q).1 = .ok (.child client.places.length) := by
        rw [Program.ask_eq hclient, hcore]
        rfl
      have hanswer := p.answer_store_child ⟨.store, m, 0⟩ hask
      have hnew : ∀ handle', (p.ask m q).2.name? handle' ≠ some ⟨Program.made q, m, client.places.length⟩ := by
        intro handle' hname'
        rw [Program.name?_ask] at hname'
        obtain ⟨_, -, hold⟩ := h.live handle' _ hname'
        exact Nat.lt_irrefl _ (hold.child_lt hclient hmade)
      have hplaced : (p.ask m q).2.Names ⟨Program.made q, m, client.places.length⟩ (target m a) := by
        rw [Program.ask_eq hclient, hcore]
        exact hnames (List.getElem?_set_self (List.getElem?_eq_some_iff.mp hclient).1) List.getElem?_concat_length
      have hlen' : (p.ask m q).2.names.length < UInt64.size := by
        rw [Program.ask_eq hclient]
        exact hlen
      obtain ⟨hhandle, hissued⟩ := hrep.issue hlen' hnew hplaced
      show Agrees i p _ ((Interface.issue (target m a)).run (i.withStore m s))
      rw [run_issue, hhandle]
      refine agrees_of_find? hfind ?_ ?_
      · rw [hanswer]
        rfl
      · rw [hkeeps, hanswer]
        exact hissued

end Stores

/-- Something that is only looked at. -/
theorem agrees_look (h : i.Represents p) {name : Name} (hfind : p.find? handle kind = some name) {q : Question}
    {reply : Reply} (hanswer : p.answer name q = (reply, p)) (hkeeps : q.retires = false)
    {result : Except CallError Reply} (hreply : replyOf result = reply) :
    Agrees i p (.ask handle kind q) (result, i) := by
  refine agrees_of_find? hfind ?_ ?_
  · rw [hanswer]
    exact hreply
  · rw [hkeeps, hanswer]
    exact h

theorem agrees_counters (h : i.Represents p) (handle : Handle) :
    Agrees i p (.ask handle .store .counters)
      ((storeAt handle >>= fun m =>
        onStore m (fun s =>
            ((if s.isOpen then .ok s.counters else .error (.closed .store) : Except StoreError Counters), s))
          >>= fun result => check result >>= fun counters => pure ⟨.ok, some (.counters counters)⟩).run i) := by
  rcases h.store_or_lacks handle with ⟨hfind, hlacks⟩ | ⟨m, client, hfind, hclient, htarget⟩
  · rw [run_bind, run_storeAt_of_lacks hlacks]
    exact agrees_of_lacks h hfind rfl
  · have hs := h.store hclient
    have hanswer : p.answer ⟨.store, m, 0⟩ .counters = (p.counters m, p) := rfl
    have hcounters : p.counters m =
        if client.store.isOpen then ⟨.ok, some (.counters client.store.counters)⟩ else ⟨.closed, none⟩ := by
      rw [Program.counters, hclient]
    rw [run_bind, run_storeAt htarget]
    dsimp only
    rw [run_bind, run_onStore hs, withStore_attach hs rfl]
    dsimp only
    rw [run_bind, run_check]
    cases hopen : client.store.isOpen with
    | true =>
      have hattached : (client.store.attach i.media).isOpen = true := hopen
      rw [hattached, if_pos rfl]
      refine agrees_look h hfind hanswer rfl ?_
      rw [hcounters, hopen]
      rfl
    | false =>
      have hattached : (client.store.attach i.media).isOpen = false := hopen
      rw [hattached, if_neg Bool.false_ne_true]
      refine agrees_look h hfind hanswer rfl ?_
      rw [hcounters, hopen]
      rfl

/-- The end of a store takes its handle out of use, whatever it leads to. -/
theorem agrees_close (h : i.Represents p) (handle : Handle) :
    Agrees i p (.ask handle .store (.store .close)) ((Interface.run (.close handle)).run i) := by
  rcases h.store_or_lacks handle with ⟨hfind, hlacks⟩ | ⟨m, client, hfind, hclient, htarget⟩
  · have hrun : (Interface.run (.close handle)).run i = (.ok ⟨.ok, none⟩, i) := by
      simp only [Interface.run, run_bind, run_get]
      split
      · rename_i htarget
        exact absurd rfl (hlacks _ htarget)
      · rfl
    rw [hrun]
    exact agrees_of_lacks h hfind rfl
  · obtain ⟨result, s, hop⟩ : ∃ result s, (client.store.attach p.media).close = (result, s) := ⟨_, _, rfl⟩
    have hcore : (client.attach p.media).step .close = (result.map fun _ => .done, ⟨s, client.places⟩) :=
      congrArg (fun r : _ × AttachedStore =>
        (r.1.map fun _ => Client.Outcome.done, (⟨r.2, client.places⟩ : Client.OnConnection Medium))) hop
    have hask : (p.ask m .close).1 = result.map fun _ => .done := by rw [Program.ask_eq hclient, hcore]
    have hanswer := p.answer_store ⟨.store, m, 0⟩ (q := .close) fun n hn => by
      rw [hask] at hn
      cases result <;> cases hn
    have hrep : ((i.without handle).withStore m s).Represents ((p.ask m .close).2.retire handle) :=
      h.retired (Program.find?_eq_some hfind).1 hclient (Name.allows_of_ne _ (by simp)) (congrArg (·.2.store) hcore)
    have hs : (i.without handle).stores[m]? = some client.store := h.store hclient
    have hmedia : (i.without handle).media = p.media := h.media
    have hagrees : ∀ reply, replyOf reply = .ofCore (result.map fun _ => .done) →
        Agrees i p (.ask handle .store (.store .close)) (reply, (i.without handle).withStore m s) := by
      intro reply hreply
      refine agrees_of_find? hfind ?_ ?_
      · rw [hanswer, hask]
        exact hreply
      · rw [hanswer]
        exact hrep
    simp only [Interface.run, run_bind, run_get, htarget, run_retire, run_onStore hs, hmedia, hop, run_check]
    cases result with
    | error e => exact hagrees _ rfl
    | ok _ => exact hagrees _ rfl

section Children

variable {name : Name} {client : DetachedClient} {q : Client.ChildCall} {reply : Client.Reply} {s : AttachedStore}
  {places : List Client.Place} {result : Except CallError Reply}

/-- A child is asked, and its handle is that of the child as it is then. -/
theorem agrees_child (h : i.Represents p) (hfind : p.find? handle kind = some name)
    (hclient : p.clients[name.store]? = some client) (hkind : name.kind ≠ .store)
    (hcore : (client.attach p.media).step (.child name.child q) = (reply, ⟨s, places⟩))
    (hkeeps : (Question.child q).retires = false) (hreply : replyOf result = .ofCore reply) {i' : Interface}
    (hmedia : i'.media = s.media) (hstores : i'.stores = i.stores.set name.store s.detach)
    (hlast : i'.lastHandle = i.lastHandle)
    (hothers : ∀ handle', handle' ≠ handle → i'.target? handle' = i.target? handle')
    (hself : ∃ target, i'.target? handle = some target ∧
      ∀ p' : Program, p'.clients[name.store]? = some ⟨s.detach, places⟩ → p'.Names name target) :
    Agrees i p (.ask handle kind (.child q)) (result, i') := by
  obtain ⟨hname, -⟩ := Program.find?_eq_some hfind
  obtain ⟨target, htarget, hnames⟩ := hself
  have hask : (p.ask name.store (.child name.child q)).1 = reply := by rw [Program.ask_eq hclient, hcore]
  have hclient' : (p.ask name.store (.child name.child q)).2.clients[name.store]? = some ⟨s.detach, places⟩ := by
    rw [Program.ask_eq hclient, hcore]
    exact List.getElem?_set_self (List.getElem?_eq_some_iff.mp hclient).1
  have hrep : i'.Represents (p.ask name.store (.child name.child q)).2 :=
    h.asked hname hclient (Name.allows_child hkind q) (congrArg (·.2.store) hcore) hmedia hstores hlast hothers
      ⟨target, htarget, hnames _ hclient'⟩
  refine agrees_of_find? hfind ?_ ?_
  · exact hreply.trans (congrArg Reply.ofCore hask.symm)
  · rw [hkeeps]
    exact hrep

/-- A child is asked, and its handle is taken out of use. -/
theorem agrees_retired (h : i.Represents p) (hfind : p.find? handle kind = some name)
    (hclient : p.clients[name.store]? = some client) (hkind : name.kind ≠ .store)
    (hcore : (client.attach p.media).step (.child name.child q) = (reply, ⟨s, places⟩))
    (hretires : (Question.child q).retires = true) (hreply : replyOf result = .ofCore reply) :
    Agrees i p (.ask handle kind (.child q)) (result, (i.without handle).withStore name.store s) := by
  obtain ⟨hname, -⟩ := Program.find?_eq_some hfind
  have hask : (p.ask name.store (.child name.child q)).1 = reply := by rw [Program.ask_eq hclient, hcore]
  refine agrees_of_find? hfind ?_ ?_
  · exact hreply.trans (congrArg Reply.ofCore hask.symm)
  · rw [hretires]
    exact h.retired hname hclient (Name.allows_child hkind q) (congrArg (·.2.store) hcore)

end Children

/-! ### Cursors -/

theorem agrees_move (h : i.Represents p) (handle : Handle) (m : Move) :
    Agrees i p (.ask handle .cursor (.child (.cursor (.move m)))) ((moveCursor handle m).run i) := by
  rcases h.cursor_or_lacks handle with
    ⟨hfind, hlacks⟩ | ⟨k, n, client, cursor, fate, hfind, hclient, htarget, hplace, hfate⟩
  · rw [moveCursor, run_bind, run_cursorAt_of_lacks hlacks]
    exact agrees_of_lacks h hfind rfl
  · obtain ⟨result, cursor', s, hmove⟩ : ∃ result cursor' s,
        cursor.move m (client.store.attach p.media) = (result, cursor', s) := ⟨_, _, _, rfl⟩
    have hcore : (client.attach p.media).step (.child n (.cursor (.move m))) =
        (result.map fun _ => .done, ⟨s, client.places.set n ⟨.cursor cursor', fate⟩⟩) := by
      rw [Client.step_child (c := client.attach p.media) hplace hfate]
      exact congrArg (fun r : _ × Store.Cursor × AttachedStore => (r.1.map fun _ => Client.Outcome.done,
        (⟨r.2.2, client.places.set n ⟨.cursor r.2.1, fate⟩⟩ : Client.OnConnection Medium))) hmove
    have hagrees : ∀ reply, replyOf reply = .ofCore (result.map fun _ => .done) →
        Agrees i p (.ask handle .cursor (.child (.cursor (.move m))))
          (reply, (i.withStore k s).withTarget handle (.cursor k cursor')) := by
      intro reply hreply
      refine agrees_child h hfind hclient (by simp) hcore rfl hreply (by rfl) (by rfl) (by rfl)
        (fun handle' hother => ?_) ⟨.cursor k cursor', ?_, fun p' hclient' => ?_⟩
      · exact (target?_withTarget ..).trans (if_neg hother)
      · rw [target?_withTarget, if_pos rfl]
        exact congrArg (Option.map _) htarget
      · exact .cursor hclient' (List.getElem?_set_self (List.getElem?_eq_some_iff.mp hplace).1) hfate
    simp only [moveCursor, run_bind, run_cursorAt htarget, run_onStore (h.store hclient), h.media, hmove, run_retarget,
      run_check]
    cases result with
    | error e => exact hagrees _ rfl
    | ok _ => exact hagrees _ rfl

theorem agrees_read (h : i.Represents p) (handle : Handle) {q : Client.CursorCall}
    {question : Store.Cursor → AttachedStore → Except StoreError Bytes}
    (hstep : ∀ (c : Client.OnConnection Medium) n place cursor,
      c.askCursor n place cursor q = ((question cursor c.store).map .bytes, c)) :
    Agrees i p (.ask handle .cursor (.child (.cursor q))) ((readCursor handle question).run i) := by
  rcases h.cursor_or_lacks handle with
    ⟨hfind, hlacks⟩ | ⟨k, n, client, cursor, fate, hfind, hclient, htarget, hplace, hfate⟩
  · rw [readCursor, run_bind, run_cursorAt_of_lacks hlacks]
    exact agrees_of_lacks h hfind rfl
  · have hs := h.store hclient
    obtain ⟨result, hresult⟩ : ∃ result, question cursor (client.store.attach p.media) = result := ⟨_, rfl⟩
    have hcore : (client.attach p.media).step (.child n (.cursor q)) =
        (result.map .bytes, client.attach p.media) := by
      rw [Client.step_child (c := client.attach p.media) hplace hfate, ← hresult]
      exact hstep ..
    have hagrees : ∀ reply, replyOf reply = .ofCore (result.map .bytes) →
        Agrees i p (.ask handle .cursor (.child (.cursor q))) (reply, i) := by
      intro reply hreply
      refine agrees_child h hfind hclient (by simp) hcore rfl hreply h.media (set_of_getElem? hs).symm rfl
        (fun _ _ => rfl) ⟨.cursor k cursor, htarget, fun p' hclient' => .cursor hclient' hplace hfate⟩
    simp only [readCursor, run_bind, run_cursorAt htarget, run_onStore hs, h.media, withStore_attach hs h.media,
      hresult, run_check]
    cases result with
    | error e => exact hagrees _ rfl
    | ok _ => exact hagrees _ rfl

theorem agrees_isValid (h : i.Represents p) (handle : Handle) :
    Agrees i p (.ask handle .cursor .isValid) ((Interface.run (.cursorValid true handle)).run i) := by
  rcases h.cursor_or_lacks handle with
    ⟨hfind, hlacks⟩ | ⟨k, n, client, cursor, fate, hfind, hclient, htarget, hplace, hfate⟩
  · have hrun : (Interface.run (.cursorValid true handle)).run i = (.ok ⟨.ok, some (.flag false)⟩, i) := by
      simp only [Interface.run, run_bind, run_needOut_true, run_get]
      split
      · rename_i htarget
        exact absurd rfl (hlacks _ htarget)
      · rfl
    rw [hrun]
    exact agrees_of_lacks h hfind rfl
  · have hs := h.store hclient
    have hvalid : p.isValid k n = cursor.isValid (client.store.attach p.media) := by
      simp only [Program.isValid, hclient, hplace]
    have hrun : (Interface.run (.cursorValid true handle)).run i =
        (.ok ⟨.ok, some (.flag (cursor.isValid (client.store.attach p.media)))⟩, i) := by
      simp only [Interface.run, run_bind, run_needOut_true, run_get, htarget, run_onStore hs, h.media,
        withStore_attach hs h.media, run_pure]
    rw [hrun, ← hvalid]
    exact agrees_look h hfind rfl rfl rfl

theorem agrees_cursorClose (h : i.Represents p) (handle : Handle) :
    Agrees i p (.ask handle .cursor (.child .drop)) ((Interface.run (.cursorClose handle)).run i) := by
  rcases h.cursor_or_lacks handle with
    ⟨hfind, hlacks⟩ | ⟨k, n, client, cursor, fate, hfind, hclient, htarget, hplace, hfate⟩
  · have hrun : (Interface.run (.cursorClose handle)).run i = (.ok ⟨.ok, none⟩, i) := by
      simp only [Interface.run, run_bind, run_get]
      split
      · rename_i htarget
        exact absurd rfl (hlacks _ htarget)
      · rfl
    rw [hrun]
    exact agrees_of_lacks h hfind rfl
  · have hs : (i.without handle).stores[k]? = some client.store := h.store hclient
    have hmedia : (i.without handle).media = p.media := h.media
    have hcore : (client.attach p.media).step (.child n .drop) = (.ok .done,
        ⟨cursor.drop (client.store.attach p.media), client.places.set n ⟨.cursor cursor, .dropped⟩⟩) := by
      rw [Client.step_child (c := client.attach p.media) hplace hfate]
      rfl
    simp only [Interface.run, run_bind, run_get, htarget, run_retire, run_onStore hs, hmedia]
    exact agrees_retired h hfind hclient (by simp) hcore rfl rfl

/-! ### Batches -/

theorem agrees_add (h : i.Represents p) (handle : Handle) (op : Operation) :
    Agrees i p (.ask handle .batch (.child (.batch (.add op)))) ((addToBatch handle op).run i) := by
  rcases h.batch_or_lacks handle with
    ⟨hfind, hlacks⟩ | ⟨k, n, client, b, fate, hfind, hclient, htarget, hplace, hfate⟩
  · rw [addToBatch, run_bind, run_batchAt_of_lacks hlacks]
    exact agrees_of_lacks h hfind rfl
  · obtain ⟨result, s, hadd⟩ : ∃ result s, b.add op (client.store.attach p.media) = (result, s) := ⟨_, _, rfl⟩
    have hcore : (client.attach p.media).step (.child n (.batch (.add op))) =
        (result.map fun _ => .done, ⟨s, client.places⟩) := by
      rw [Client.step_child (c := client.attach p.media) hplace hfate]
      exact congrArg (fun r : _ × AttachedStore =>
        (r.1.map fun _ => Client.Outcome.done, (⟨r.2, client.places⟩ : Client.OnConnection Medium))) hadd
    have hagrees : ∀ reply, replyOf reply = .ofCore (result.map fun _ => .done) →
        Agrees i p (.ask handle .batch (.child (.batch (.add op)))) (reply, i.withStore k s) := by
      intro reply hreply
      exact agrees_child h hfind hclient (by simp) hcore rfl hreply (by rfl) (by rfl) (by rfl) (fun _ _ => rfl)
        ⟨.batch k b, htarget, fun p' hclient' => .batch hclient' hplace hfate⟩
    simp only [addToBatch, run_bind, run_batchAt htarget, run_onStore (h.store hclient), h.media, hadd, run_check]
    cases result with
    | error e => exact hagrees _ rfl
    | ok _ => exact hagrees _ rfl

theorem agrees_write (h : i.Represents p) (handle : Handle) :
    Agrees i p (.ask handle .batch (.child (.batch .write))) ((Interface.writeBatch handle).run i) := by
  rcases h.batch_or_lacks handle with
    ⟨hfind, hlacks⟩ | ⟨k, n, client, b, fate, hfind, hclient, htarget, hplace, hfate⟩
  · rw [Interface.writeBatch, run_bind, run_batchAt_of_lacks hlacks]
    exact agrees_of_lacks h hfind rfl
  · obtain ⟨result, b', s, hwrite⟩ : ∃ result b' s, b.write (client.store.attach p.media) = (result, b', s) :=
      ⟨_, _, _, rfl⟩
    have hcore : (client.attach p.media).step (.child n (.batch .write)) =
        (result.map .applied, ⟨s, client.places.set n ⟨.batch b', fate⟩⟩) := by
      rw [Client.step_child (c := client.attach p.media) hplace hfate]
      exact congrArg (fun r : _ × Store.Batch × AttachedStore => (r.1.map Client.Outcome.applied,
        (⟨r.2.2, client.places.set n ⟨.batch r.2.1, fate⟩⟩ : Client.OnConnection Medium))) hwrite
    have hagrees : ∀ reply, replyOf reply = .ofCore (result.map .applied) →
        Agrees i p (.ask handle .batch (.child (.batch .write)))
          (reply, (i.withStore k s).withTarget handle (.batch k b')) := by
      intro reply hreply
      refine agrees_child h hfind hclient (by simp) hcore rfl hreply (by rfl) (by rfl) (by rfl)
        (fun handle' hother => ?_) ⟨.batch k b', ?_, fun p' hclient' => ?_⟩
      · exact (target?_withTarget ..).trans (if_neg hother)
      · rw [target?_withTarget, if_pos rfl]
        exact congrArg (Option.map _) htarget
      · exact .batch hclient' (List.getElem?_set_self (List.getElem?_eq_some_iff.mp hplace).1) hfate
    simp only [Interface.writeBatch, run_bind, run_batchAt htarget, run_onStore (h.store hclient), h.media, hwrite,
      run_retarget, run_check]
    cases result with
    | error e => exact hagrees _ rfl
    | ok _ => exact hagrees _ rfl

theorem agrees_writeAndClose (h : i.Represents p) (handle : Handle) :
    Agrees i p (.ask handle .batch (.child (.batch .writeAndClose)))
      ((Interface.run (.batchWriteAndClose true handle)).run i) := by
  rcases h.batch_or_lacks handle with
    ⟨hfind, hlacks⟩ | ⟨k, n, client, b, fate, hfind, hclient, htarget, hplace, hfate⟩
  · simp only [Interface.run, run_bind, run_needOut_true, run_batchAt_of_lacks hlacks]
    exact agrees_of_lacks h hfind rfl
  · have hs : (i.without handle).stores[k]? = some client.store := h.store hclient
    have hmedia : (i.without handle).media = p.media := h.media
    obtain ⟨result, s, hwrite⟩ : ∃ result s, b.writeAndClose (client.store.attach p.media) = (result, s) :=
      ⟨_, _, rfl⟩
    have hcore : (client.attach p.media).step (.child n (.batch .writeAndClose)) =
        (result.map .applied, ⟨s, client.places.set n ⟨.batch b, .dropped⟩⟩) := by
      rw [Client.step_child (c := client.attach p.media) hplace hfate]
      exact congrArg (fun r : _ × AttachedStore => (r.1.map Client.Outcome.applied,
        (⟨r.2, client.places.set n ⟨.batch b, .dropped⟩⟩ : Client.OnConnection Medium))) hwrite
    have hagrees : ∀ reply, replyOf reply = .ofCore (result.map .applied) →
        Agrees i p (.ask handle .batch (.child (.batch .writeAndClose)))
          (reply, (i.without handle).withStore k s) := by
      intro reply hreply
      exact agrees_retired h hfind hclient (by simp) hcore rfl hreply
    simp only [Interface.run, run_bind, run_needOut_true, run_batchAt htarget, run_retire, run_onStore hs, hmedia,
      hwrite, run_check]
    cases result with
    | error e => exact hagrees _ rfl
    | ok _ => exact hagrees _ rfl

theorem agrees_batchClose (h : i.Represents p) (handle : Handle) :
    Agrees i p (.ask handle .batch (.child .drop)) ((Interface.run (.batchClose handle)).run i) := by
  rcases h.batch_or_lacks handle with
    ⟨hfind, hlacks⟩ | ⟨k, n, client, b, fate, hfind, hclient, htarget, hplace, hfate⟩
  · have hrun : (Interface.run (.batchClose handle)).run i = (.ok ⟨.ok, none⟩, i) := by
      simp only [Interface.run, run_bind, run_get]
      split
      · rename_i htarget
        exact absurd rfl (hlacks _ htarget)
      · rfl
    rw [hrun]
    exact agrees_of_lacks h hfind rfl
  · have hs : (i.without handle).stores[k]? = some client.store := h.store hclient
    have hmedia : (i.without handle).media = p.media := h.media
    have hcore : (client.attach p.media).step (.child n .drop) = (.ok .done,
        ⟨b.drop (client.store.attach p.media), client.places.set n ⟨.batch b, .dropped⟩⟩) := by
      rw [Client.step_child (c := client.attach p.media) hplace hfate]
      rfl
    simp only [Interface.run, run_bind, run_get, htarget, run_retire, run_onStore hs, hmedia]
    exact agrees_retired h hfind hclient (by simp) hcore rfl rfl

/-! ### New stores -/

theorem agrees_enroll (h : i.Represents p) (hlen : p.names.length < UInt64.size)
    (opening : Media → Except StoreError DetachedStore × Media) :
    Agrees i p (.enroll opening) ((enroll opening).run i) := by
  obtain ⟨result, media, hopening⟩ : ∃ result media, opening p.media = (result, media) := ⟨_, _, rfl⟩
  cases result with
  | error e =>
    have hrun : (enroll opening).run i = (.error (.store e), { i with media }) := by
      simp only [enroll, run_bind, run_get, h.media, hopening, run_set, run_check]
      rfl
    have hserve : p.serve (.enroll opening) = (⟨.ofStoreError e, none⟩, { p with media }) := by
      simp only [Program.serve, hopening]
    rw [hrun]
    refine ⟨?_, ?_, False.elim⟩
    · rw [hserve]
      rfl
    · rw [hserve]
      exact ⟨rfl, h.stores, h.lastHandle, fun handle name hname => (h.live handle name hname).imp fun _ hlive =>
        ⟨hlive.1, hlive.2.congr rfl⟩, h.free, h.unique⟩
  | ok store =>
    let i₁ : Interface := { i with media, stores := i.stores ++ [store] }
    let p₁ : Program := { p with media, clients := p.clients ++ [Client.start store] }
    have hrun : (enroll opening).run i =
        (.ok ⟨.ok, some (.handle (i.lastHandle + 1))⟩, i₁.withHandle (.store i.stores.length)) := by
      simp only [enroll, run_bind, run_get, h.media, hopening, run_set, run_check, Except.mapError, run_modify,
        run_issue]
      rfl
    have hserve : p.serve (.enroll opening) = p₁.issue ⟨.store, p.clients.length, 0⟩ := by
      simp only [Program.serve, hopening, p₁]
    have hclients : ∀ (m : Nat) (client : DetachedClient), p.clients[m]? = some client → p₁.clients[m]? = some client :=
      fun m client hclient =>
      (List.getElem?_append_left (List.getElem?_eq_some_iff.mp hclient).1).trans hclient
    have hrep : i₁.Represents p₁ := by
      refine ⟨rfl, ?_, h.lastHandle, fun handle name hname => (h.live handle name hname).imp fun _ hlive =>
        ⟨hlive.1, hlive.2.mono hclients⟩, h.free, h.unique⟩
      show i.stores ++ [store] = (p.clients ++ [Client.start store]).map Client.store
      rw [List.map_append, h.stores]
      rfl
    have hlength : i.stores.length = p.clients.length := by rw [h.stores, List.length_map]
    have hnew : ∀ handle, p₁.name? handle ≠ some ⟨.store, p.clients.length, 0⟩ := by
      intro handle hname
      obtain ⟨_, -, hnames⟩ := h.live handle _ hname
      cases hnames with
      | store hclient => exact Nat.lt_irrefl _ (List.getElem?_eq_some_iff.mp hclient).1
    have hplaced : p₁.Names ⟨.store, p.clients.length, 0⟩ (.store i.stores.length) := by
      rw [hlength]
      exact .store List.getElem?_concat_length
    obtain ⟨hhandle, hissued⟩ := hrep.issue hlen hnew hplaced
    rw [hrun]
    refine ⟨?_, ?_, False.elim⟩
    · rw [hserve, show i.lastHandle + 1 = _ from hhandle]
      rfl
    · rw [hserve]
      exact hissued

/-! ### All calls -/

/-- A call whose arguments cannot be used does nothing; any other one does what its request asks for. -/
theorem agrees_run (h : i.Represents p) (hlen : p.names.length < UInt64.size) (c : Call) :
    (∃ e, c.request = .error e ∧ (run c).run i = (.error e, i)) ∨
      ∃ request, c.request = .ok request ∧ Agrees i p request ((run c).run i) := by
  cases c with
  | openPath out path options =>
    cases out with
    | false => exact .inl ⟨_, rfl, rfl⟩
    | true =>
      cases path with
      | none => exact .inl ⟨_, rfl, rfl⟩
      | some bytes =>
        cases htext : Bytes.toText? (bytes.takeWhile (· ≠ 0)) with
        | none =>
          refine .inl ⟨.invalidUtf8 "path", ?_, ?_⟩
          · simp only [Call.request, htext]
            rfl
          · simp only [run, run_needOut_bind, htext]
            rfl
        | some path =>
          refine .inr ⟨.enroll (Store.openDirectory path (raiseOptions options)), ?_, ?_⟩
          · simp only [Call.request, htext]
            rfl
          · simp only [run, run_needOut_bind, htext]
            exact agrees_enroll h hlen _
  | openMemory out options =>
    cases out with
    | false => exact .inl ⟨_, rfl, rfl⟩
    | true => exact .inr ⟨_, rfl, agrees_enroll h hlen _⟩
  | close handle => exact .inr ⟨_, rfl, agrees_close h handle⟩
  | get out handle key =>
    cases out with
    | false => exact .inl ⟨_, rfl, rfl⟩
    | true =>
      simp only [run, run_needOut_bind, run_input_bind, Call.request]
      cases key.read "key" with
      | error e => exact .inl ⟨e, rfl, rfl⟩
      | ok key =>
        refine .inr ⟨_, rfl, agrees_store h handle (fun _ => rfl) (by simp) (fun value _ => ?_)
          (by simp) rfl rfl⟩
        cases value <;> rfl
  | put handle key value =>
    simp only [run, run_input_bind, Call.request]
    cases key.read "key" with
    | error e => exact .inl ⟨e, rfl, rfl⟩
    | ok key =>
      cases value.read "value" with
      | error e => exact .inl ⟨e, rfl, rfl⟩
      | ok value => exact .inr ⟨_, rfl, agrees_done h handle (fun _ => rfl) (by simp) rfl rfl⟩
  | delete handle key =>
    simp only [run, run_input_bind, Call.request]
    cases key.read "key" with
    | error e => exact .inl ⟨e, rfl, rfl⟩
    | ok key => exact .inr ⟨_, rfl, agrees_done h handle (fun _ => rfl) (by simp) rfl rfl⟩
  | stats out handle =>
    cases out with
    | false => exact .inl ⟨_, rfl, rfl⟩
    | true => exact .inr ⟨_, rfl, agrees_counters h handle⟩
  | cursorNew out handle =>
    cases out with
    | false => exact .inl ⟨_, rfl, rfl⟩
    | true =>
      exact .inr ⟨_, rfl, agrees_open h hlen handle .cursor (fun _ => rfl)
        (fun hclient hplace => .cursor hclient hplace (by simp)) (by decide) (by simp) rfl rfl⟩
  | cursorFirst handle => exact .inr ⟨_, rfl, agrees_move h handle .first⟩
  | cursorLast handle => exact .inr ⟨_, rfl, agrees_move h handle .last⟩
  | cursorSeek handle target =>
    simp only [run, run_input_bind, Call.request]
    cases target.read "target" with
    | error e => exact .inl ⟨e, rfl, rfl⟩
    | ok target => exact .inr ⟨_, rfl, agrees_move h handle (.seek target)⟩
  | cursorNext handle => exact .inr ⟨_, rfl, agrees_move h handle .next⟩
  | cursorPrev handle => exact .inr ⟨_, rfl, agrees_move h handle .prev⟩
  | cursorValid out handle =>
    cases out with
    | false => exact .inl ⟨_, rfl, rfl⟩
    | true => exact .inr ⟨_, rfl, agrees_isValid h handle⟩
  | cursorKey out handle =>
    cases out with
    | false => exact .inl ⟨_, rfl, rfl⟩
    | true => exact .inr ⟨_, rfl, agrees_read h handle fun _ _ _ _ => rfl⟩
  | cursorValue out handle =>
    cases out with
    | false => exact .inl ⟨_, rfl, rfl⟩
    | true => exact .inr ⟨_, rfl, agrees_read h handle fun _ _ _ _ => rfl⟩
  | cursorClose handle => exact .inr ⟨_, rfl, agrees_cursorClose h handle⟩
  | batchNew out handle =>
    cases out with
    | false => exact .inl ⟨_, rfl, rfl⟩
    | true =>
      exact .inr ⟨_, rfl, agrees_open h hlen handle .batch (fun _ => rfl)
        (fun hclient hplace => .batch hclient hplace (by simp)) (by decide) (by simp) rfl rfl⟩
  | batchPut handle key value =>
    simp only [run, run_input_bind, Call.request]
    cases key.read "key" with
    | error e => exact .inl ⟨e, rfl, rfl⟩
    | ok key =>
      cases value.read "value" with
      | error e => exact .inl ⟨e, rfl, rfl⟩
      | ok value => exact .inr ⟨_, rfl, agrees_add h handle (.put key value)⟩
  | batchDelete handle key =>
    simp only [run, run_input_bind, Call.request]
    cases key.read "key" with
    | error e => exact .inl ⟨e, rfl, rfl⟩
    | ok key => exact .inr ⟨_, rfl, agrees_add h handle (.delete key)⟩
  | batchWrite out handle =>
    cases out with
    | false => exact .inl ⟨_, rfl, rfl⟩
    | true => exact .inr ⟨_, rfl, agrees_write h handle⟩
  | batchWriteAndClose out handle =>
    cases out with
    | false => exact .inl ⟨_, rfl, rfl⟩
    | true => exact .inr ⟨_, rfl, agrees_writeAndClose h handle⟩
  | batchClose handle => exact .inr ⟨_, rfl, agrees_batchClose h handle⟩

end Interface

end OrderedStore
