import OrderedStore.Proofs.Guarding
import OrderedStore.Proofs.Program

/-!
# The objects behind the handles

The objects behind the handles of an interface are those that a program holds.

* `run_bind`, `run_onStore`, `run_issue`: the parts of a call;
* `target?_withHandle`, `target?_withTarget`, `target?_without`: the table of handles;
* `Program.Names`, `Interface.Represents`: the objects behind the handles are those of the program;
* `Represents.issue`, `Represents.asked`, `Represents.retired`: a handle is given out; the object behind one is asked,
  and stays in use or does not.
-/

namespace OrderedStore

namespace Interface

variable {α β : Type} {i : Interface}

/-! ## Parts of calls -/

theorem run_bind (a : Action α) (f : α → Action β) (i : Interface) :
    (a >>= f).run i = match a.run i with
      | (.ok x, i) => (f x).run i
      | (.error e, i) => (.error e, i) := by
  have hstate : ∀ (x : StateM Interface (Except CallError α))
      (g : Except CallError α → StateM Interface (Except CallError β)), (x >>= g) i = g (x i).1 (x i).2 :=
    fun _ _ => rfl
  rw [ExceptT.run_bind, hstate]
  rcases a.run i with ⟨_ | _, i'⟩ <;> rfl

theorem run_pure (x : α) (i : Interface) : (pure x : Action α).run i = (.ok x, i) := rfl

theorem run_get (i : Interface) : (get : Action Interface).run i = (.ok i, i) := rfl

theorem run_set (i i' : Interface) : (set i' : Action Unit).run i = (.ok (), i') := rfl

theorem run_modify (f : Interface → Interface) (i : Interface) : (modify f : Action Unit).run i = (.ok (), f i) := rfl

theorem run_liftExcept (x : Except CallError α) (i : Interface) : (liftExcept x : Action α).run i = (x, i) := by
  cases x <;> rfl

theorem run_needOut_true (name : String) (i : Interface) : (needOut true name).run i = (.ok (), i) := rfl

theorem run_input (name : String) (argument : Argument) (i : Interface) :
    (input name argument).run i = (argument.read name, i) :=
  run_liftExcept _ i

/-- The first thing that a call does with an argument is to read it. -/
theorem run_input_bind (name : String) (argument : Argument) (f : Bytes → Action α) (i : Interface) :
    (input name argument >>= f).run i = match argument.read name with
      | .ok bytes => (f bytes).run i
      | .error e => (.error e, i) := by
  rw [run_bind, run_input]
  cases argument.read name <;> rfl

theorem run_needOut_bind (name : String) (f : Unit → Action α) (i : Interface) :
    (needOut true name >>= f).run i = (f ()).run i :=
  rfl

theorem run_check (result : Except StoreError α) (i : Interface) :
    (check result).run i = (result.mapError .store, i) :=
  run_liftExcept _ i

/-- The interface after an operation of store `m`. -/
def withStore (i : Interface) (m : Nat) (s : AttachedStore) : Interface :=
  { i with media := s.media, stores := i.stores.set m s.detach }

theorem run_onStore {m : Nat} {s : DetachedStore} (hs : i.stores[m]? = some s)
    (op : AttachedStore → α × AttachedStore) :
    (onStore m op).run i = (.ok (op (s.attach i.media)).1, i.withStore m (op (s.attach i.media)).2) := by
  simp only [onStore, run_bind, run_get, hs]
  rfl

/-- An operation that changes nothing. -/
theorem withStore_attach {m : Nat} {s : DetachedStore} (hs : i.stores[m]? = some s) {media : Media}
    (hmedia : i.media = media) : i.withStore m (s.attach media) = i := by
  have hsame : i.stores.set m (s.attach media).detach = i.stores := set_of_getElem? hs
  rw [withStore, hsame, show (s.attach media).media = i.media from hmedia.symm]

/-! ## The table of handles -/

/-- The table after a handle has been given to an object. -/
def withHandle (i : Interface) (target : Target) : Interface :=
  { i with lastHandle := i.lastHandle + 1, handles := (i.lastHandle + 1, target) :: i.handles }

/-- The table after the object behind a handle has changed. -/
def withTarget (i : Interface) (handle : Handle) (target : Target) : Interface :=
  { i with handles := i.handles.map fun e => if e.1 = handle then (handle, target) else e }

/-- The table after a handle has been taken out of use. -/
def without (i : Interface) (handle : Handle) : Interface :=
  { i with handles := i.handles.filter (·.1 ≠ handle) }

theorem run_issue (target : Target) (i : Interface) :
    (issue target).run i = (.ok ⟨.ok, some (.handle (i.lastHandle + 1))⟩, i.withHandle target) := by
  simp only [issue, run_bind, run_get, run_modify, run_pure]
  rfl

theorem run_retarget (handle : Handle) (target : Target) (i : Interface) :
    (retarget handle target).run i = (.ok (), i.withTarget handle target) :=
  run_modify _ i

theorem run_retire (handle : Handle) (i : Interface) : (retire handle).run i = (.ok (), i.without handle) :=
  run_modify _ i

theorem target?_withHandle (target : Target) (i : Interface) (handle : Handle) :
    (i.withHandle target).target? handle = if handle = i.lastHandle + 1 then some target else i.target? handle := by
  show (((i.lastHandle + 1, target) :: i.handles).find? (·.1 = handle)).map (·.2) = _
  by_cases hnew : handle = i.lastHandle + 1
  · simp only [List.find?_cons, decide_eq_true hnew.symm, if_pos hnew, Option.map_some]
  · simp only [List.find?_cons, decide_eq_false (Ne.symm hnew), if_neg hnew]
    rfl

theorem target?_withTarget (handle handle' : Handle) (target : Target) (i : Interface) :
    (i.withTarget handle target).target? handle' =
      if handle' = handle then (i.target? handle').map fun _ => target else i.target? handle' := by
  have hkey : ((fun e : Handle × Target => decide (e.1 = handle')) ∘
      fun e : Handle × Target => if e.1 = handle then (handle, target) else e) = fun e => decide (e.1 = handle') := by
    funext e
    show decide ((if e.1 = handle then (handle, target) else e).1 = handle') = decide (e.1 = handle')
    split
    · rename_i heq
      rw [heq]
    · rfl
  simp only [target?, withTarget, List.find?_map, hkey]
  cases hfind : i.handles.find? fun e => decide (e.1 = handle') with
  | none => simp
  | some e =>
    have he : e.1 = handle' := by simpa using List.find?_some hfind
    simp only [Option.map_some, he]
    split <;> rfl

theorem target?_without (handle handle' : Handle) (i : Interface) :
    (i.without handle).target? handle' = if handle' = handle then none else i.target? handle' := by
  simp only [target?, without, List.find?_filter]
  split
  · rename_i hself
    rw [List.find?_eq_none.mpr (by simp [hself]), Option.map_none]
  · rename_i hother
    congr 2
    funext e
    rw [Bool.eq_iff_iff]
    simp only [decide_eq_true_eq, ne_eq]
    exact ⟨And.right, fun he => ⟨fun hself => hother (he.symm.trans hself), he⟩⟩

end Interface

/-- The kind of an object. -/
def Target.kind : Target → Resource
  | store _ => .store
  | cursor _ _ => .cursor
  | batch _ _ => .batch

namespace Interface

variable {i : Interface} {handle : Handle}

/-- The handle is not that of an object of the kind. -/
def Lacks (i : Interface) (handle : Handle) (kind : Resource) : Prop :=
  ∀ target, i.target? handle = some target → target.kind ≠ kind

theorem run_storeAt {m : Nat} (h : i.target? handle = some (.store m)) : (storeAt handle).run i = (.ok m, i) := by
  simp only [storeAt, run_bind, run_get, h]
  rfl

theorem run_cursorAt {m : Nat} {c : Store.Cursor} (h : i.target? handle = some (.cursor m c)) :
    (cursorAt handle).run i = (.ok (m, c), i) := by
  simp only [cursorAt, run_bind, run_get, h]
  rfl

theorem run_batchAt {m : Nat} {b : Store.Batch} (h : i.target? handle = some (.batch m b)) :
    (batchAt handle).run i = (.ok (m, b), i) := by
  simp only [batchAt, run_bind, run_get, h]
  rfl

theorem run_storeAt_of_lacks (h : i.Lacks handle .store) :
    (storeAt handle).run i = (.error (.store (.closed .store)), i) := by
  simp only [storeAt, run_bind, run_get]
  split
  · rename_i htarget
    exact absurd rfl (h _ htarget)
  · rfl

theorem run_cursorAt_of_lacks (h : i.Lacks handle .cursor) :
    (cursorAt handle).run i = (.error (.store (.closed .cursor)), i) := by
  simp only [cursorAt, run_bind, run_get]
  split
  · rename_i htarget
    exact absurd rfl (h _ htarget)
  · rfl

theorem run_batchAt_of_lacks (h : i.Lacks handle .batch) :
    (batchAt handle).run i = (.error (.store (.closed .batch)), i) := by
  simp only [batchAt, run_bind, run_get]
  split
  · rename_i htarget
    exact absurd rfl (h _ htarget)
  · rfl

end Interface

/-! ## The objects behind the handles -/

namespace Program

variable {p p' : Program} {name : Name} {target : Target} {m : Nat} {client : DetachedClient}

/-- The name is that of an object that the program holds and has not dropped. -/
inductive Names (p : Program) : Name → Target → Prop
  | store {m : Nat} {client : DetachedClient} (hclient : p.clients[m]? = some client) :
      Names p ⟨.store, m, 0⟩ (.store m)
  | cursor {m n : Nat} {client : DetachedClient} {cursor : Store.Cursor} {fate : Client.Fate}
      (hclient : p.clients[m]? = some client) (hplace : client.places[n]? = some ⟨.cursor cursor, fate⟩)
      (hfate : fate ≠ .dropped) : Names p ⟨.cursor, m, n⟩ (.cursor m cursor)
  | batch {m n : Nat} {client : DetachedClient} {batch : Store.Batch} {fate : Client.Fate}
      (hclient : p.clients[m]? = some client) (hplace : client.places[n]? = some ⟨.batch batch, fate⟩)
      (hfate : fate ≠ .dropped) : Names p ⟨.batch, m, n⟩ (.batch m batch)

theorem Names.kind (h : p.Names name target) : target.kind = name.kind := by
  cases h <;> rfl

theorem Names.mono (h : p.Names name target)
    (hclients : ∀ (m : Nat) (client : DetachedClient), p.clients[m]? = some client → p'.clients[m]? = some client) :
    p'.Names name target := by
  cases h with
  | store hclient => exact .store (hclients _ _ hclient)
  | cursor hclient hplace hfate => exact .cursor (hclients _ _ hclient) hplace hfate
  | batch hclient hplace hfate => exact .batch (hclients _ _ hclient) hplace hfate

theorem Names.congr (h : p.Names name target) (hclients : p'.clients = p.clients) : p'.Names name target :=
  h.mono fun _ _ hclient => hclients ▸ hclient

/-- A child has been made. -/
theorem Names.child_lt (h : p.Names name target) (hclient : p.clients[name.store]? = some client)
    (hkind : name.kind ≠ .store) : name.child < client.places.length := by
  cases h with
  | store => exact absurd rfl hkind
  | cursor hclient' hplace | batch hclient' hplace =>
    cases hclient.symm.trans hclient'
    exact (List.getElem?_eq_some_iff.mp hplace).1

/-- Two names of one child are the same. -/
theorem Names.name_eq {name' : Name} {target' : Target} (h : p.Names name target) (h' : p.Names name' target')
    (hkind : name.kind ≠ .store) (hkind' : name'.kind ≠ .store) (hstore : name.store = name'.store)
    (hchild : name.child = name'.child) : name = name' := by
  cases h with
  | store => exact absurd rfl hkind
  | cursor hclient hplace =>
    cases h' with
    | store => exact absurd rfl hkind'
    | cursor => simp_all
    | batch hclient' hplace' =>
      simp only at hstore hchild
      subst hstore hchild
      cases hclient.symm.trans hclient'
      cases hplace.symm.trans hplace'
  | batch hclient hplace =>
    cases h' with
    | store => exact absurd rfl hkind'
    | batch => simp_all
    | cursor hclient' hplace' =>
      simp only at hstore hchild
      subst hstore hchild
      cases hclient.symm.trans hclient'
      cases hplace.symm.trans hplace'

/-! ### Asking a client -/

theorem ask_eq (hclient : p.clients[m]? = some client) (q : Client.Call) :
    p.ask m q = (((client.attach p.media).step q).1,
      { p with media := ((client.attach p.media).step q).2.store.media
               clients := p.clients.set m ((client.attach p.media).step q).2.detach }) := by
  rw [ask, hclient]

theorem name?_ask (p : Program) (m : Nat) (q : Client.Call) (handle : Handle) :
    (p.ask m q).2.name? handle = p.name? handle := by
  rw [ask]
  split <;> rfl

/-- Names of stores, and of the children that are not asked, stay. -/
theorem Names.ask (h : p.Names name target) (hclient : p.clients[m]? = some client) {q : Client.Call}
    (hq : ∀ q', q = .child name.child q' → name.store = m → name.kind = .store) : (p.ask m q).2.Names name target := by
  have hlt : m < p.clients.length := (List.getElem?_eq_some_iff.mp hclient).1
  have hplaces : ∀ {n : Nat} {place : Client.Place}, (∀ q', q ≠ .child n q') → client.places[n]? = some place →
      ((client.attach p.media).step q).2.detach.places[n]? = some place := fun hne hplace =>
    (Client.getElem?_places_step (c := client.attach p.media) (List.getElem?_eq_some_iff.mp hplace).1 hne).trans hplace
  rw [ask_eq hclient]
  cases h with
  | @store m' client' hclient' =>
    by_cases hm : m = m'
    · subst hm
      exact .store (List.getElem?_set_self hlt)
    · exact .store ((List.getElem?_set_ne hm).trans hclient')
  | @cursor m' n client' cursor fate hclient' hplace hfate =>
    by_cases hm : m = m'
    · subst hm
      cases hclient.symm.trans hclient'
      exact .cursor (List.getElem?_set_self hlt) (hplaces (fun q' heq => nomatch hq q' heq rfl) hplace) hfate
    · exact .cursor ((List.getElem?_set_ne hm).trans hclient') hplace hfate
  | @batch m' n client' batch fate hclient' hplace hfate =>
    by_cases hm : m = m'
    · subst hm
      cases hclient.symm.trans hclient'
      exact .batch (List.getElem?_set_self hlt) (hplaces (fun q' heq => nomatch hq q' heq rfl) hplace) hfate
    · exact .batch ((List.getElem?_set_ne hm).trans hclient') hplace hfate

/-! ### Handles -/

theorem name?_retire (p : Program) (handle handle' : Handle) :
    (p.retire handle).name? handle' = if handle' = handle then none else p.name? handle' := by
  rw [name?, name?, retire, List.getElem?_set]
  by_cases hself : handle' = handle
  · subst hself
    rw [if_pos rfl, if_pos rfl]
    split <;> rfl
  · rw [if_neg hself, if_neg fun heq => hself (UInt64.toNat_inj.mp heq).symm]

theorem name?_issue (p : Program) (name : Name) (handle : Handle) :
    (p.issue name).2.name? handle = if handle.toNat = p.names.length then some name else p.name? handle := by
  rw [name?, name?, issue, List.getElem?_append]
  by_cases hnew : handle.toNat = p.names.length
  · rw [if_pos hnew, if_neg (by omega), hnew, Nat.sub_self]
    rfl
  · rw [if_neg hnew]
    by_cases hlt : handle.toNat < p.names.length
    · rw [if_pos hlt]
    · rw [if_neg hlt, List.getElem?_eq_none (by simp; omega), List.getElem?_eq_none (by omega)]

theorem find?_eq_some {handle : Handle} {kind : Resource} (h : p.find? handle kind = some name) :
    p.name? handle = some name ∧ name.kind = kind := by
  obtain ⟨hname, hkind⟩ := Option.filter_eq_some_iff.mp h
  exact ⟨hname, of_decide_eq_true hkind⟩

end Program

namespace Interface

variable {i i' : Interface} {p : Program}

/-- The interface and the program have the same media and the same stores, and each handle in use is that of the object
whose name it was issued for. -/
structure Represents (i : Interface) (p : Program) : Prop where
  media : i.media = p.media
  stores : i.stores = p.clients.map Client.store
  lastHandle : i.lastHandle.toNat + 1 = p.names.length
  live : ∀ handle name, p.name? handle = some name → ∃ target, i.target? handle = some target ∧ p.Names name target
  free : ∀ handle, p.name? handle = none → i.target? handle = none
  unique : ∀ handle handle' name, p.name? handle = some name → p.name? handle' = some name → handle = handle'

/-- The text of the last error has nothing to do with it. -/
theorem Represents.withError (h : i.Represents p) (text : Option String) :
    Represents { i with lastError := text } p :=
  ⟨h.media, h.stores, h.lastHandle, h.live, h.free, h.unique⟩

end Interface

/-- The call is not one of a child, or one of the child that has the name. -/
def Name.Allows (name : Name) (q : Client.Call) : Prop :=
  ∀ n q', q = .child n q' → n = name.child ∧ name.kind ≠ .store

theorem Name.allows_child {name : Name} (hkind : name.kind ≠ .store) (q : Client.ChildCall) :
    name.Allows (.child name.child q) := by
  intro n q' heq
  cases heq
  exact ⟨rfl, hkind⟩

theorem Name.allows_of_ne (name : Name) {q : Client.Call} (hchild : ∀ n q', q ≠ .child n q') : name.Allows q :=
  fun n q' heq => absurd heq (hchild n q')

namespace Interface

variable {i i' : Interface} {p : Program}

section Asked

variable {handle : Handle} {name : Name} {client : DetachedClient} {q : Client.Call} {s : AttachedStore}

/-- Asking one object leaves the others behind their handles. -/
theorem Represents.others (h : i.Represents p) (hname : p.name? handle = some name)
    (hclient : p.clients[name.store]? = some client) (hq : name.Allows q)
    {handle' : Handle} (hother : handle' ≠ handle) {name' : Name} (hname' : p.name? handle' = some name') :
    ∃ target, i.target? handle' = some target ∧ (p.ask name.store q).2.Names name' target := by
  obtain ⟨target, htarget, hnames⟩ := h.live handle' name' hname'
  obtain ⟨_, -, hasked⟩ := h.live handle name hname
  refine ⟨target, htarget, hnames.ask hclient fun q' heq hstore => ?_⟩
  -- The child that is asked has one name, and that name one handle.
  obtain ⟨hchild, hkind⟩ := hq _ _ heq
  by_contra hkind'
  obtain rfl := hnames.name_eq hasked hkind' hkind hstore hchild
  exact hother (h.unique _ _ _ hname' hname)

/-- An object is asked. Its handle is that of the object as it is then, or is taken out of use. -/
theorem Represents.update (h : i.Represents p) (hname : p.name? handle = some name)
    (hclient : p.clients[name.store]? = some client) (hq : name.Allows q)
    (hs : ((client.attach p.media).step q).2.store = s) (hmedia : i'.media = s.media)
    (hstores : i'.stores = i.stores.set name.store s.detach) (hlast : i'.lastHandle = i.lastHandle)
    (hothers : ∀ handle', handle' ≠ handle → i'.target? handle' = i.target? handle') {p' : Program}
    (hmedia' : p'.media = (p.ask name.store q).2.media) (hclients : p'.clients = (p.ask name.store q).2.clients)
    (hlength : p'.names.length = p.names.length)
    (hnames : ∀ handle', handle' ≠ handle → p'.name? handle' = p.name? handle')
    (hself : (p'.name? handle = some name ∧ ∃ target, i'.target? handle = some target ∧
      (p.ask name.store q).2.Names name target) ∨ p'.name? handle = none ∧ i'.target? handle = none) :
    i'.Represents p' := by
  have hold : ∀ handle' name', handle' ≠ handle → p'.name? handle' = some name' → p.name? handle' = some name' :=
    fun handle' name' hother hname' => hnames handle' hother ▸ hname'
  have hnamed : ∀ name', p'.name? handle = some name' → name' = name := by
    intro name' hname'
    rcases hself with ⟨hsome, -⟩ | ⟨hnone, -⟩
    · exact Option.some.inj (hname'.symm.trans hsome)
    · cases hnone.symm.trans hname'
  constructor
  case media => rw [hmedia, ← hs, hmedia', Program.ask_eq hclient]
  case stores =>
    rw [hstores, ← hs, hclients, Program.ask_eq hclient, h.stores, List.map_set]
    rfl
  case lastHandle => rw [hlast, h.lastHandle, hlength]
  case live =>
    intro handle' name' hname'
    by_cases hsame : handle' = handle
    · subst hsame
      obtain rfl := hnamed name' hname'
      rcases hself with ⟨-, target, htarget, hnames'⟩ | ⟨hnone, -⟩
      · exact ⟨target, htarget, hnames'.congr hclients⟩
      · cases hnone.symm.trans hname'
    · obtain ⟨target, htarget, hnames'⟩ := h.others hname hclient hq hsame (hold handle' name' hsame hname')
      exact ⟨target, (hothers handle' hsame).trans htarget, hnames'.congr hclients⟩
  case free =>
    intro handle' hnone
    by_cases hsame : handle' = handle
    · subst hsame
      rcases hself with ⟨hsome, -⟩ | ⟨-, hgone⟩
      · cases hnone.symm.trans hsome
      · exact hgone
    · rw [hothers handle' hsame]
      exact h.free handle' ((hnames handle' hsame).symm.trans hnone)
  case unique =>
    have hlive : ∀ handle' name', p'.name? handle' = some name' → p.name? handle' = some name' := by
      intro handle' name' hname'
      by_cases hsame : handle' = handle
      · subst hsame
        rw [hnamed name' hname']
        exact hname
      · exact hold handle' name' hsame hname'
    exact fun handle₁ handle₂ name' h₁ h₂ => h.unique handle₁ handle₂ name' (hlive _ _ h₁) (hlive _ _ h₂)

/-- An object is asked and stays in use. -/
theorem Represents.asked (h : i.Represents p) (hname : p.name? handle = some name)
    (hclient : p.clients[name.store]? = some client) (hq : name.Allows q)
    (hs : ((client.attach p.media).step q).2.store = s) (hmedia : i'.media = s.media)
    (hstores : i'.stores = i.stores.set name.store s.detach) (hlast : i'.lastHandle = i.lastHandle)
    (hothers : ∀ handle', handle' ≠ handle → i'.target? handle' = i.target? handle')
    (hself : ∃ target, i'.target? handle = some target ∧ (p.ask name.store q).2.Names name target) :
    i'.Represents (p.ask name.store q).2 :=
  h.update hname hclient hq hs hmedia hstores hlast hothers rfl rfl (by rw [Program.ask_eq hclient])
    (fun _ _ => Program.name?_ask ..) (.inl ⟨(Program.name?_ask ..).trans hname, hself⟩)

/-- An object is asked and its handle is taken out of use. -/
theorem Represents.retired (h : i.Represents p) (hname : p.name? handle = some name)
    (hclient : p.clients[name.store]? = some client) (hq : name.Allows q)
    (hs : ((client.attach p.media).step q).2.store = s) :
    ((i.without handle).withStore name.store s).Represents ((p.ask name.store q).2.retire handle) := by
  have htargets : ∀ handle', ((i.without handle).withStore name.store s).target? handle' =
      if handle' = handle then none else i.target? handle' := fun handle' => target?_without handle handle' i
  refine h.update hname hclient hq hs (by rfl) (by rfl) (by rfl)
    (fun handle' hother => (htargets handle').trans (if_neg hother)) (by rfl) (by rfl) ?_
    (fun handle' hother => ?_) (.inr ⟨?_, (htargets handle).trans (if_pos rfl)⟩)
  · rw [Program.retire, List.length_set, Program.ask_eq hclient]
  · rw [Program.name?_retire, if_neg hother, Program.name?_ask]
  · rw [Program.name?_retire, if_pos rfl]

end Asked

/-- A new object gets the next handle. -/
theorem Represents.issue (h : i.Represents p) (hlen : p.names.length < UInt64.size) {name : Name} {target : Target}
    (hnew : ∀ handle, p.name? handle ≠ some name) (hnames : p.Names name target) :
    i.lastHandle + 1 = .ofNat p.names.length ∧ (i.withHandle target).Represents (p.issue name).2 := by
  have hnext : (i.lastHandle + 1).toNat = p.names.length := by
    rw [UInt64.toNat_add, ← h.lastHandle]
    exact Nat.mod_eq_of_lt (h.lastHandle ▸ hlen)
  have hiff : ∀ handle : Handle, handle.toNat = p.names.length ↔ handle = i.lastHandle + 1 := fun handle =>
    hnext ▸ UInt64.toNat_inj
  refine ⟨UInt64.toNat_inj.mp (hnext.trans (UInt64.toNat_ofNat_of_lt hlen).symm), ?_⟩
  constructor
  case media => exact h.media
  case stores => exact h.stores
  case lastHandle =>
    show (i.lastHandle + 1).toNat + 1 = (p.names ++ [some name]).length
    rw [hnext, List.length_append]
    rfl
  case live =>
    intro handle name' hname'
    rw [Program.name?_issue] at hname'
    rw [target?_withHandle]
    by_cases hself : handle = i.lastHandle + 1
    · rw [if_pos ((hiff handle).mpr hself)] at hname'
      cases hname'
      exact ⟨target, if_pos hself, hnames.congr rfl⟩
    · rw [if_neg fun heq => hself ((hiff handle).mp heq)] at hname'
      obtain ⟨target', htarget', hnames'⟩ := h.live handle name' hname'
      exact ⟨target', (if_neg hself).trans htarget', hnames'.congr rfl⟩
  case free =>
    intro handle hnone
    rw [Program.name?_issue] at hnone
    split at hnone
    · cases hnone
    · rename_i hother
      rw [target?_withHandle, if_neg fun heq => hother ((hiff handle).mpr heq)]
      exact h.free handle hnone
  case unique =>
    intro handle₁ handle₂ name' h₁ h₂
    rw [Program.name?_issue] at h₁ h₂
    split at h₁
    · rename_i hself
      cases h₁
      split at h₂
      · rename_i hself'
        exact UInt64.toNat_inj.mp (hself.trans hself'.symm)
      · exact absurd h₂ (hnew handle₂)
    · split at h₂
      · cases h₂
        exact absurd h₁ (hnew handle₁)
      · exact h.unique handle₁ handle₂ name' h₁ h₂

end Interface

end OrderedStore
