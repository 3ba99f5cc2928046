import OrderedStore.Proofs.Calls

/-!
# The interface does what a program does

The call interface and a program that holds its objects itself are asked the same. They reply the same, and the objects
behind the handles stay those that the program holds.

* `Interface.Refines`: one call, by its arguments and by what its handle stands for;
* `Program.call_issues`, `Program.name?_call`: the handles that calls give out and take out of use;
* `Interface.calls_refine_core`: whole runs.
-/

namespace OrderedStore

/-! ## Handles that calls give out -/

theorem Status.ofStoreError_ne_nullPointer (e : StoreError) : ofStoreError e ≠ nullPointer := by
  unfold ofStoreError
  split <;> simp

theorem Reply.status_ofCore (reply : Client.Reply) : (Reply.ofCore reply).status ≠ .nullPointer := by
  unfold ofCore
  split
  · exact Status.ofStoreError_ne_nullPointer _
  all_goals simp

theorem Reply.handle?_ofCore (reply : Client.Reply) : (Reply.ofCore reply).handle? = none := by
  unfold ofCore
  split <;> rfl

namespace Program

variable {p : Program} {handle : Handle}

theorem names_ask (p : Program) (m : Nat) (q : Client.Call) : (p.ask m q).2.names = p.names := by
  rw [ask]
  split <;> rfl

/-- An object gives out the next handle, or none. -/
theorem answer_names (p : Program) (name : Name) (q : Interface.Question) :
    ((p.answer name q).1.handle? = some (.ofNat p.names.length) ∧
        ∃ name', (p.answer name q).2.names = p.names ++ [some name']) ∨
      (p.answer name q).1.handle? = none ∧ (p.answer name q).2.names = p.names := by
  cases q with
  | store q =>
    have hnames := p.names_ask name.store q
    rw [answer]
    split
    · rename_i n p' hask
      rw [hask] at hnames
      refine .inl ⟨?_, ⟨made q, name.store, n⟩, congrArg (· ++ [_]) hnames⟩
      rw [← hnames]
      rfl
    · rename_i hask
      rw [hask] at hnames
      exact .inr ⟨Reply.handle?_ofCore _, hnames⟩
  | child q => exact .inr ⟨Reply.handle?_ofCore _, p.names_ask name.store (.child name.child q)⟩
  | counters =>
    refine .inr ⟨?_, rfl⟩
    show (p.counters name.store).handle? = none
    unfold counters
    split
    · split <;> rfl
    · rfl
  | isValid => exact .inr ⟨rfl, rfl⟩

/-- A request gives out the next handle, or none. -/
theorem serve_issues (p : Program) (request : Interface.Request) :
    ((p.serve request).1.handle? = some (.ofNat p.names.length) ∧
        (p.serve request).2.names.length = p.names.length + 1) ∨
      (p.serve request).1.handle? = none ∧ (p.serve request).2.names.length = p.names.length := by
  cases request with
  | enroll opening =>
    rw [serve]
    split
    · exact .inr ⟨rfl, rfl⟩
    · exact .inl ⟨rfl, List.length_append⟩
  | ask handle kind q =>
    rw [serve]
    split
    · refine .inr ⟨?_, rfl⟩
      unfold Interface.Question.stale
      split <;> rfl
    · rename_i name _
      have hlength : ∀ p' : Program, (if q.retires then p'.retire handle else p').names.length = p'.names.length := by
        intro p'
        split
        · exact List.length_set
        · rfl
      rcases p.answer_names name q with ⟨hhandle, name', hnames⟩ | ⟨hhandle, hnames⟩
      · refine .inl ⟨hhandle, (hlength _).trans ?_⟩
        rw [hnames, List.length_append]
        rfl
      · exact .inr ⟨hhandle, (hlength _).trans (congrArg List.length hnames)⟩

/-- Only an argument can be refused for a missing address. -/
theorem status_serve (p : Program) (request : Interface.Request) : (p.serve request).1.status ≠ .nullPointer := by
  cases request with
  | enroll opening =>
    rw [serve]
    split
    · exact Status.ofStoreError_ne_nullPointer _
    · simp [issue]
  | ask handle kind q =>
    rw [serve]
    split
    · unfold Interface.Question.stale
      split <;> simp
    · rename_i name _
      show (p.answer name q).1.status ≠ .nullPointer
      cases q with
      | store q =>
        rw [answer]
        split
        · simp [issue]
        · exact Reply.status_ofCore _
      | child q => exact Reply.status_ofCore _
      | counters =>
        show (p.counters name.store).status ≠ .nullPointer
        unfold counters
        split
        · split <;> simp
        · simp
      | isValid => simp [answer]

theorem call_of_request {c : Call} {request : Interface.Request} (hrequest : c.request = .ok request) :
    p.call c = p.serve request := by
  rw [call, hrequest]

theorem call_of_error {c : Call} {e : CallError} (hrequest : c.request = .error e) :
    p.call c = (⟨e.status, none⟩, p) := by
  rw [call, hrequest]

/-- A call gives out the next handle, or none. -/
theorem call_issues (p : Program) (c : Call) :
    ((p.call c).1.handle? = some (.ofNat p.names.length) ∧ (p.call c).2.names.length = p.names.length + 1) ∨
      (p.call c).1.handle? = none ∧ (p.call c).2.names.length = p.names.length := by
  cases hrequest : c.request with
  | error e =>
    rw [call_of_error hrequest]
    exact .inr ⟨rfl, rfl⟩
  | ok request =>
    rw [call_of_request hrequest]
    exact p.serve_issues request

/-- A call that closes a handle takes it out of use. -/
theorem name?_call_of_retires {c : Call} {kind : Resource} {q : Interface.Question} {name : Name}
    (hrequest : c.request = .ok (.ask handle kind q)) (hfind : p.find? handle kind = some name)
    (hretires : q.retires = true) : (p.call c).2.name? handle = none := by
  have hserve : p.serve (.ask handle kind q) = ((p.answer name q).1, (p.answer name q).2.retire handle) := by
    rw [serve, hfind]
    simp only [hretires, if_pos]
  rw [call_of_request hrequest, hserve]
  exact (name?_retire ..).trans (if_pos rfl)

end Program

/-! ## Calls -/

namespace Interface

variable {i : Interface} {p : Program}

/-- The call changes nothing but the text of the last error. -/
def Untouched (i : Interface) (c : Call) : Prop := (i.call c).2 = { i with lastError := (i.call c).2.lastError }

/-- A call of the interface, compared with a program that holds the objects. -/
structure Refines (i : Interface) (p : Program) (c : Call) : Prop where
  reply : (i.call c).1 = (p.call c).1
  represents : (i.call c).2.Represents (p.call c).2
  /-- An argument cannot be used, which is seen before what the handle stands for. -/
  refused : ∀ e, c.request = .error e → (i.call c).1 = ⟨e.status, none⟩ ∧ i.Untouched c
  /-- A place or an address is missing. -/
  null : (i.call c).1.status = .nullPointer → i.Untouched c
  /-- The handle stands for nothing of the kind. -/
  stale : ∀ handle kind q, c.request = .ok (.ask handle kind q) → p.find? handle kind = none →
    (i.call c).1 = q.stale ∧ i.Untouched c
  /-- The object behind the handle is asked. A handle that is closed is out of use, whatever the object replies. -/
  live : ∀ handle kind q name, c.request = .ok (.ask handle kind q) → p.find? handle kind = some name →
    (i.call c).1 = (p.answer name q).1 ∧
      (q.retires = true → (i.call c).2.target? handle = none ∧ (p.call c).2.name? handle = none)

/-- A call keeps what its parts have come to, but for the text of the last error. -/
theorem call_eq (i : Interface) (c : Call) : ∃ text, i.call c =
    (replyOf ((run c).run i.clearLastError).1, { ((run c).run i.clearLastError).2 with lastError := text }) := by
  rw [call]
  rcases (run c).run i.clearLastError with ⟨e | reply, i'⟩
  · exact ⟨_, rfl⟩
  · exact ⟨i'.lastError, rfl⟩

theorem untouched_of_run {c : Call} (hrun : ((run c).run i.clearLastError).2 = i.clearLastError) : i.Untouched c := by
  obtain ⟨text, hcall⟩ := call_eq i c
  rw [Untouched, hcall, hrun]
  rfl

theorem Represents.call (h : i.Represents p) (hlen : p.names.length < UInt64.size) (c : Call) : i.Refines p c := by
  have h₀ : i.clearLastError.Represents p := h.withError none
  obtain ⟨text, hcall⟩ := call_eq i c
  rcases agrees_run h₀ hlen c with ⟨e, hrequest, hrun⟩ | ⟨request, hrequest, hagrees⟩
  · have huntouched : i.Untouched c := untouched_of_run (congrArg Prod.snd hrun)
    have hreply : (i.call c).1 = ⟨e.status, none⟩ := by
      rw [hcall, hrun]
      rfl
    have hp : p.call c = (⟨e.status, none⟩, p) := Program.call_of_error hrequest
    refine ⟨?_, ?_, fun e' he' => ?_, fun _ => huntouched, fun _ _ _ hask => ?_, fun _ _ _ _ hask => ?_⟩
    · rw [hreply, hp]
    · rw [hp, huntouched]
      exact h.withError _
    · cases hrequest.symm.trans he'
      exact ⟨hreply, huntouched⟩
    · cases hrequest.symm.trans hask
    · cases hrequest.symm.trans hask
  · have hp : p.call c = p.serve request := Program.call_of_request hrequest
    have hreply : (i.call c).1 = (p.serve request).1 := by
      rw [hcall]
      exact hagrees.reply
    have hrep : (i.call c).2.Represents (p.serve request).2 := by
      rw [hcall]
      exact hagrees.represents.withError text
    refine ⟨hp ▸ hreply, hp ▸ hrep, fun e he => ?_, fun hnull => ?_, fun handle kind q hask hnone => ?_,
      fun handle kind q name hask hname => ?_⟩
    · cases hrequest.symm.trans he
    · exact absurd (hreply ▸ hnull) (p.status_serve request)
    · cases hrequest.symm.trans hask
      have hserve : p.serve (.ask handle kind q) = (q.stale, p) := by rw [Program.serve, hnone]
      exact ⟨hreply.trans (congrArg Prod.fst hserve), untouched_of_run (hagrees.idle hnone)⟩
    · cases hrequest.symm.trans hask
      refine ⟨?_, fun hretires => ?_⟩
      · rw [hreply, Program.serve, hname]
      · have hgone : (p.call c).2.name? handle = none := Program.name?_call_of_retires hrequest hname hretires
        exact ⟨hrep.free handle (hp ▸ hgone), hgone⟩

/-! ## Runs -/

theorem Represents.change (h : i.Represents p) (f : Media → Media) :
    Represents { i with media := f i.media } { p with media := f p.media } :=
  ⟨congrArg f h.media, h.stores, h.lastHandle,
    fun handle name hname => (h.live handle name hname).imp fun _ hlive => ⟨hlive.1, hlive.2.congr rfl⟩, h.free,
    h.unique⟩

/-- A run gives out the handles that come next, one after the other. -/
theorem Represents.after (h : i.Represents p) (events : List Event)
    (hfew : p.names.length + (issued (i.replies events)).length < UInt64.size) :
    i.replies events = p.replies events ∧ (i.after events).Represents (p.after events) ∧
      (p.after events).names.length = p.names.length + (issued (i.replies events)).length ∧
      issued (i.replies events) =
        (List.range' p.names.length (issued (i.replies events)).length).map UInt64.ofNat := by
  induction events generalizing i p with
  | nil => exact ⟨rfl, h, rfl, rfl⟩
  | cons event events ih =>
    cases event with
    | clear => exact ih (h.withError none) hfew
    | change f => exact ih (h.change f) hfew
    | call c =>
      have hrefines : i.Refines p c := h.call (by omega) c
      have hreplies : i.replies (.call c :: events) = (p.call c).1 :: (i.call c).2.replies events := by
        rw [← hrefines.reply]
        rfl
      rw [hreplies] at hfew ⊢
      rcases p.call_issues c with ⟨hhandle, hlength⟩ | ⟨hhandle, hlength⟩
      · have hissued : issued ((p.call c).1 :: (i.call c).2.replies events) =
            .ofNat p.names.length :: issued ((i.call c).2.replies events) := List.filterMap_cons_some hhandle
        rw [hissued, List.length_cons] at hfew ⊢
        obtain ⟨hreplies, hrep, hnames, hrange⟩ := ih hrefines.represents (by omega)
        refine ⟨congrArg _ hreplies, hrep, by rw [Program.after, List.foldl_cons]; exact hnames.trans (by omega), ?_⟩
        rw [List.range'_succ, List.map_cons, ← hlength, ← hrange]
      · have hissued : issued ((p.call c).1 :: (i.call c).2.replies events) =
            issued ((i.call c).2.replies events) := List.filterMap_cons_none hhandle
        rw [hissued] at hfew ⊢
        obtain ⟨hreplies, hrep, hnames, hrange⟩ := ih hrefines.represents (by omega)
        rw [hlength] at hnames hrange
        exact ⟨congrArg _ hreplies, hrep, hnames, hrange⟩

section Row

variable {n : Nat}

end Row

end Interface

end OrderedStore
