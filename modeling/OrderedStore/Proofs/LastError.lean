import OrderedStore.Proofs.Engine
import OrderedStore.Proofs.Handles
import OrderedStore.Proofs.Legibility
import Mathlib.Data.List.TakeWhile

/-!
# The last error is that of the last call

A call forgets the error of the call before it, and leaves the message of its own error, which can always be kept. A
call without an error has a status that no error has.

* `Engine.Answers`, `Connection.answers`: engines whose errors can be shown;
* `Store.Tells`: what is asked of a store and of its children on such an engine;
* `Interface.Ends`: how a part of a call ends; `Ends.bind`: one part after the other; `ends_run`: every call;
* `Interface.last_error_of_last_call`: the last error after any run.
-/

namespace OrderedStore

/-! ## Engines -/

/-- Every call of an engine keeps `P`, and says legibly why it fails. -/
structure Engine.Answers {ε κ ς : Type} [Engine ε κ ς] (P : ε → Prop) : Prop extends Engine.Keeps P where
  gets (key : Bytes) {engine : ε} : P engine → Legible EngineError.message (Engine.get key engine).1
  puts (key value : Bytes) {engine : ε} : P engine → Legible EngineError.message (Engine.put key value engine).1
  deletes (key : Bytes) {engine : ε} : P engine → Legible EngineError.message (Engine.delete key engine).1
  applies (ops : List Operation) {engine : ε} : P engine → Legible EngineError.message (Engine.apply ops engine).1
  opensCursor {engine : ε} : P engine → Legible EngineError.message (Engine.openCursor engine).1
  closes {engine : ε} : P engine → Shows EngineError.message P (Engine.close engine)

/-- A connection on a log whose errors can be shown. -/
theorem Connection.answers {σ : Type} [LogStorage σ] {P : σ → Prop} (h : LogStorage.Answers P) :
    Engine.Answers fun c : Connection σ => P c.log where
  get _ _ hs := hs
  put key value _ hs := (h.write (.put key value) hs).state
  delete key _ hs := (h.write (.delete key) hs).state
  apply ops _ hs := (h.write (.apply ops) hs).state
  property _ _ hs := hs
  openCursor {c} hs := by
    show P c.openCursor.2.log
    unfold openCursor
    split <;> exact hs
  openView {c} hs := by
    show P c.openView.2.log
    unfold openView
    split <;> exact hs
  move _ _ _ hs := hs
  dropCursor _ _ hs := hs
  getAt _ _ _ hs := hs
  cursorAt _ _ hs := hs
  dropView _ _ hs := hs
  gets key c _ := by
    show Legible _ (c.get key)
    unfold Connection.get ifOpen
    split
    · exact legible_ok _
    · exact legible_error (by decide)
  puts key value _ hs := (h.write (.put key value) hs).legible
  deletes key _ hs := (h.write (.delete key) hs).legible
  applies ops _ hs := (h.write (.apply ops) hs).legible
  opensCursor {c} _ := by
    show Legible _ c.openCursor.1
    unfold openCursor
    split
    · exact legible_ok _
    · exact legible_error (by decide)
  closes hs := h.close hs

/-! ## Stores -/

namespace Store

variable {ε κ ς : Type} {P : ε → Prop} {s : Store ε κ ς}

/-- What an operation of a store ends with, if its engine answers legibly and keeps `P`. -/
def Tells {α : Type} (P : ε → Prop) (r : Except StoreError α × Store ε κ ς) : Prop :=
  Shows StoreError.message (fun s : Store ε κ ς => P s.engine) r

theorem Asks.tells {α : Type} {f : ε → Except EngineError α × ε} {counters : Counters}
    {r : Except StoreError α × Store ε κ ς} (hr : s.Asks f counters r) (hs : P s.engine)
    (hlegible : Legible EngineError.message (f s.engine).1) (hkeeps : P (f s.engine).2) : Tells P r := by
  cases hr with
  | closed => exact shows_error (StoreError.zeroFree_closed .store) hs
  | done hengine =>
    rw [hengine] at hkeeps
    exact shows_ok _ hkeeps
  | failed _ hengine =>
    rw [hengine] at hlegible hkeeps
    exact shows_error (StoreError.zeroFree_ofEngine (hlegible _ rfl)) hkeeps

theorem Tells.count {α : Type} {r : Except StoreError α × Store ε κ ς} (h : Tells P r)
    (note : α → Counters → Counters) : Tells P (Store.count note r) := by
  unfold Store.count
  split
  · exact shows_ok _ h.state
  · exact h

theorem tells_writeBatch (hs : P s.engine) : Tells P s.writeBatch := by
  unfold Store.writeBatch
  split
  · exact shows_error (StoreError.zeroFree_closed .store) hs
  · exact shows_ok _ hs

theorem tells_add (hs : P s.engine) (op : Operation) (b : Store.Batch) : Tells P (b.add op s) := by
  unfold Batch.add
  split
  · exact shows_error (StoreError.zeroFree_closed .batch) hs
  · split
    · exact shows_ok _ hs
    · exact shows_error (by decide) hs

section Cursors

variable {c : Store.Cursor} {call : String}

theorem legible_requirePositioned (hcall : Text.ZeroFree call) :
    Legible StoreError.message (c.requirePositioned s call) := by
  unfold Cursor.requirePositioned
  split
  · exact legible_ok _
  · exact legible_error (StoreError.zeroFree_closed .cursor)
  · exact legible_error (StoreError.zeroFree_invalidCursorState hcall _)

theorem legible_read {α : Type} (hcall : Text.ZeroFree call) (f : κ → ε → Option α) :
    Legible StoreError.message (c.read s call f) := by
  refine (legible_requirePositioned hcall).bind fun _ => ?_
  split
  · exact legible_error (StoreError.zeroFree_closed .cursor)
  · split
    · exact legible_error (StoreError.zeroFree_invalidCursorState hcall _)
    · exact legible_ok _

theorem legible_move [Engine ε κ ς] (m : Move) : Legible StoreError.message (c.move m s).1 := by
  have hguard : Legible StoreError.message (m.step?.elim (.ok ()) (c.requirePositioned s)) := by
    cases m with
    | next | prev => exact legible_requirePositioned (by decide)
    | _ => exact legible_ok ()
  unfold Cursor.move
  split
  · rename_i e hrefused
    exact legible_error (hguard e hrefused)
  · unfold Cursor.step
    split
    · exact legible_error (StoreError.zeroFree_closed .cursor)
    · exact legible_ok ()

end Cursors

variable [Engine ε κ ς] (hP : Engine.Answers P)

include hP

theorem tells_get (hs : P s.engine) (key : Bytes) : Tells P (s.get key) :=
  ((s.asks_call _).tells hs (hP.gets key hs) (hP.get key hs)).count _

theorem tells_put (hs : P s.engine) (key value : Bytes) : Tells P (s.put key value) :=
  ((s.asks_call _).tells hs (hP.puts key value hs) (hP.put key value hs)).count _

theorem tells_delete (hs : P s.engine) (key : Bytes) : Tells P (s.delete key) :=
  ((s.asks_call _).tells hs (hP.deletes key hs) (hP.delete key hs)).count _

theorem tells_cursor (hs : P s.engine) : Tells P s.cursor := by
  have hrequest : Tells P (s.request Engine.openCursor) :=
    (s.asks_request _).tells hs (hP.opensCursor hs) (hP.openCursor hs)
  unfold Store.cursor
  split
  · rename_i hfailed
    rw [hfailed] at hrequest
    exact shows_error (hrequest.legible _ rfl) hrequest.state
  · rename_i hdone
    rw [hdone] at hrequest
    exact shows_ok _ hrequest.state

theorem tells_close (hs : P s.engine) : Tells P s.close := by
  have hrelease : P s.releaseAll.engine :=
    releaseMany_keeps (P := fun s : Store ε κ ς => P s.engine)
      (fun s token => (stays_release hP.toKeeps token).engine) _ hs
  have hclose := hP.closes hrelease
  unfold Store.close
  split
  · exact shows_ok () hs
  · dsimp only
    split
    · rename_i hdone
      rw [hdone] at hclose
      exact shows_ok () hclose.state
    · rename_i e engine hfailed
      rw [hfailed] at hclose
      exact shows_error (Text.ZeroFree.append (by decide) (hclose.legible e rfl)) hclose.state

theorem legible_write (hs : P s.engine) (b : Store.Batch) : Legible StoreError.message (b.write s).1 := by
  have happly : ∀ {ops e engine}, Engine.apply ops s.engine = (.error e, engine) → Text.ZeroFree e.message :=
    fun hengine => hP.applies _ hs _ (congrArg Prod.fst hengine)
  have hwrites := Batch.writes b s
  generalize b.write s = written at hwrites
  cases hwrites with
  | closed => exact legible_error (StoreError.zeroFree_closed .batch)
  | storeClosed | engineClosed => exact legible_error (StoreError.zeroFree_closed .store)
  | again | applied => exact legible_ok _
  | failed _ _ _ hengine => exact legible_error (Text.ZeroFree.append (by decide) (happly hengine))

theorem tells_writeAndClose (hs : P s.engine) (b : Store.Batch) : Tells P (b.writeAndClose s) :=
  ⟨legible_write hP hs b, ((stays_write hP.toKeeps b).trans (stays_discard hP.toKeeps _ _)).engine hs⟩

end Store

/-! ## Calls -/

/-- A status without an error behind it. -/
def Status.Quiet (status : Status) : Prop := status = .ok ∨ status = .notFound

/-- The reply to a call without an error. -/
def Reply.Quiet (reply : Reply) : Prop := reply.status.Quiet

/-- No error is reported as a success, or as a missing key. -/
theorem CallError.not_quiet (e : CallError) : ¬ e.status.Quiet := by
  cases e with
  | nullPointer | invalidUtf8 => rintro (h | h) <;> cases h
  | store e =>
    show ¬ (Status.ofStoreError e).Quiet
    unfold Status.ofStoreError
    split <;> rintro (h | h) <;> cases h

namespace Interface

variable {α β : Type} {post : α → Prop} {handle : Handle}

/-- An interface in the middle of a call: the last error has been forgotten, and the errors of the media can be
shown. -/
structure Midway (i : Interface) : Prop where
  lastError : i.lastError = none
  media : i.media.Legible

/-- What a part of a call comes to, and the interface behind it: a result that satisfies `post`, or an error whose
message can be kept. -/
inductive Outcome (post : α → Prop) : Except CallError α × Interface → Prop where
  | ok {x : α} {i : Interface} (hx : post x) (hi : i.Midway) : Outcome post (.ok x, i)
  | error {e : CallError} {i : Interface} (he : Text.ZeroFree e.message) (hi : i.Midway) : Outcome post (.error e, i)

/-- How a part of a call ends. -/
def Ends (a : Action α) (post : α → Prop) : Prop := ∀ i : Interface, i.Midway → Outcome post (a.run i)

theorem Ends.bind {a : Action α} {f : α → Action β} {post' : β → Prop} (ha : Ends a post)
    (hf : ∀ x, post x → Ends (f x) post') : Ends (a >>= f) post' := by
  intro i hi
  have hend := ha i hi
  rw [run_bind]
  generalize a.run i = r at hend ⊢
  cases hend with
  | ok hx hi => exact hf _ hx _ hi
  | error he hi => exact .error he hi

theorem ends_pure {x : α} (hx : post x) : Ends (pure x) post := fun _ hi => .ok hx hi

theorem ends_done {output : Option Output} : Ends (pure ⟨.ok, output⟩) Reply.Quiet := ends_pure (.inl rfl)

theorem ends_throw {e : CallError} (he : Text.ZeroFree e.message) : Ends (throw e : Action α) post :=
  fun _ hi => .error he hi

theorem ends_get : Ends get fun _ => True := fun _ hi => .ok trivial hi

theorem Midway.congr {i i' : Interface} (hi : i.Midway) (herror : i'.lastError = i.lastError)
    (hmedia : i'.media = i.media) : i'.Midway :=
  ⟨herror.trans hi.lastError, hmedia.symm ▸ hi.media⟩

theorem ends_modify {f : Interface → Interface} (herror : ∀ i, (f i).lastError = i.lastError)
    (hmedia : ∀ i, (f i).media = i.media) : Ends (modify f) fun _ => True :=
  fun i hi => .ok trivial (hi.congr (herror i) (hmedia i))

theorem ends_liftExcept {x : Except CallError α} (hx : Legible CallError.message x) :
    Ends (liftExcept x) fun _ => True := by
  cases x with
  | ok x => exact ends_pure trivial
  | error e => exact ends_throw (hx e rfl)

theorem ends_check {result : Except StoreError α} (h : Legible StoreError.message result) :
    Ends (check result) fun _ => True := by
  refine ends_liftExcept ?_
  cases result with
  | error e => exact legible_error (h e rfl)
  | ok x => exact legible_ok x

theorem ends_needOut (out : Bool) {name : String} (hname : Text.ZeroFree name) :
    Ends (needOut out name) fun _ => True := by
  cases out with
  | true => exact ends_pure trivial
  | false => exact ends_throw (Text.ZeroFree.append (by decide) hname)

theorem ends_input {name : String} (hname : Text.ZeroFree name) (argument : Argument) :
    Ends (input name argument) fun _ => True := by
  refine ends_liftExcept ?_
  unfold Argument.read
  split
  · exact legible_ok _
  · exact legible_error (Text.ZeroFree.append (by decide) hname)
  · exact legible_ok _

theorem ends_storeAt (handle : Handle) : Ends (storeAt handle) fun _ => True := by
  refine ends_get.bind fun i _ => ?_
  split
  · exact ends_pure trivial
  · exact ends_throw (StoreError.zeroFree_closed .store)

theorem ends_cursorAt (handle : Handle) : Ends (cursorAt handle) fun _ => True := by
  refine ends_get.bind fun i _ => ?_
  split
  · exact ends_pure trivial
  · exact ends_throw (StoreError.zeroFree_closed .cursor)

theorem ends_batchAt (handle : Handle) : Ends (batchAt handle) fun _ => True := by
  refine ends_get.bind fun i _ => ?_
  split
  · exact ends_pure trivial
  · exact ends_throw (StoreError.zeroFree_closed .batch)

theorem ends_issue (target : Target) : Ends (issue target) Reply.Quiet := fun i hi => by
  rw [run_issue]
  exact .ok (.inl rfl) (hi.congr rfl rfl)

theorem ends_retarget (handle : Handle) (target : Target) : Ends (retarget handle target) fun _ => True :=
  ends_modify (fun _ => rfl) fun _ => rfl

theorem ends_retire (handle : Handle) : Ends (retire handle) fun _ => True := ends_modify (fun _ => rfl) fun _ => rfl

/-- An operation on a store that keeps the media as they should be. -/
theorem ends_onStore {n : Nat} {op : AttachedStore → α × AttachedStore}
    (hop : ∀ s : AttachedStore, s.media.Legible → post (op s).1 ∧ (op s).2.media.Legible) :
    Ends (onStore n op) post := by
  intro i hi
  cases hs : i.stores[n]? with
  | some s =>
    obtain ⟨hresult, hmedia⟩ := hop (s.attach i.media) hi.media
    rw [run_onStore hs]
    exact .ok hresult ⟨hi.lastError, hmedia⟩
  | none =>
    have hrun : (onStore n op).run i = (.error (.store (.closed .store)), i) := by
      simp only [onStore, run_bind, run_get, hs]
      rfl
    rw [hrun]
    exact .error (StoreError.zeroFree_closed .store) hi

theorem ends_onStore_of_keeps {n : Nat} {op : AttachedStore → α × AttachedStore}
    (hop : ∀ s : AttachedStore, s.media.Legible → (op s).2.media.Legible) : Ends (onStore n op) fun _ => True :=
  ends_onStore fun s hs => ⟨trivial, hop s hs⟩

/-- What an operation on a store comes to is checked. -/
theorem ends_checked {n : Nat} {op : AttachedStore → Except StoreError α × AttachedStore}
    (hop : ∀ s : AttachedStore, s.media.Legible →
      Store.Tells (fun c : Connection Medium => c.log.media.Legible) (op s)) {f : α → Action β} {post' : β → Prop}
    (hf : ∀ x, Ends (f x) post') : Ends (onStore n op >>= fun result => check result >>= f) post' :=
  (ends_onStore fun s hs => ⟨(hop s hs).legible, (hop s hs).state⟩).bind
    fun _ hresult => (ends_check hresult).bind fun x _ => hf x

/-- An operation that also changes a child, which is put back behind its handle before the result is checked. -/
theorem ends_retargeted {γ : Type} {n : Nat} {op : AttachedStore → (Except StoreError α × γ) × AttachedStore}
    (hop : ∀ s : AttachedStore, s.media.Legible → Legible StoreError.message (op s).1.1 ∧ (op s).2.media.Legible)
    {target : γ → Target} {f : α → Action β} {post' : β → Prop} (hf : ∀ x, Ends (f x) post') :
    Ends (onStore n op >>= fun (result, child) => retarget handle (target child) >>= fun _ => check result >>= f)
      post' := by
  have hstore : Ends (onStore n op) fun r => Legible StoreError.message r.1 := ends_onStore hop
  exact hstore.bind fun (_, child) hresult => (ends_retarget handle (target child)).bind fun _ _ =>
    (ends_check hresult).bind fun x _ => hf x

/-! ### Calls by what they are for -/

theorem answers : Engine.Answers fun c : Connection Medium => c.log.media.Legible := Connection.answers Medium.answers

theorem ends_enroll {opening : Media → Except StoreError DetachedStore × Media}
    (hopening : ∀ media : Media, media.Legible → Shows StoreError.message Media.Legible (opening media)) :
    Ends (enroll opening) Reply.Quiet := by
  intro i hi
  have hshows := hopening i.media hi.media
  simp only [enroll, run_bind, run_get, run_set, run_check, run_modify]
  generalize opening i.media = r at hshows
  obtain ⟨e | s, media⟩ := r
  · exact .error (hshows.legible e rfl) ⟨hi.lastError, hshows.state⟩
  · exact ends_issue _ _ ⟨hi.lastError, hshows.state⟩

theorem ends_moveCursor (handle : Handle) (m : Move) : Ends (moveCursor handle m) Reply.Quiet := by
  refine (ends_cursorAt handle).bind fun (n, c) _ => ends_retargeted (fun s hs => ?_) fun _ => ends_done
  exact ⟨Store.legible_move m, (Store.stays_move answers.toKeeps m c).engine hs⟩

theorem ends_readCursor (handle : Handle) {question : Store.Cursor → AttachedStore → Except StoreError Bytes}
    (hquestion : ∀ c s, Legible StoreError.message (question c s)) :
    Ends (readCursor handle question) Reply.Quiet :=
  (ends_cursorAt handle).bind fun (_, c) _ =>
    ends_checked (fun s hs => ⟨hquestion c s, hs⟩) fun _ => ends_done

theorem ends_addToBatch (handle : Handle) (op : Operation) : Ends (addToBatch handle op) Reply.Quiet :=
  (ends_batchAt handle).bind fun (_, b) _ =>
    ends_checked (fun _ hs => Store.tells_add hs op b) fun _ => ends_done

theorem ends_writeBatch (handle : Handle) : Ends (writeBatch handle) Reply.Quiet := by
  refine (ends_batchAt handle).bind fun (n, b) _ => ends_retargeted (fun s hs => ?_) fun _ => ends_done
  exact ⟨Store.legible_write answers hs b, (Store.stays_write answers.toKeeps b).engine hs⟩

/-- A child is given up with its handle. -/
theorem ends_discard (handle : Handle) (n : Nat) (token : TokenId) (id : Nat) :
    Ends (retire handle >>= fun _ => onStore n (fun s => ((), s.discard token id)) >>= fun _ => pure ⟨.ok, none⟩)
      Reply.Quiet := by
  refine (ends_retire handle).bind fun _ _ => (ends_onStore_of_keeps fun s hs => ?_).bind fun _ _ => ends_done
  exact (Store.stays_discard answers.toKeeps token id).engine hs

theorem Ends.out {out : Bool} {name : String} {f : Unit → Action Reply} (hf : Ends (f ()) Reply.Quiet)
    (hname : Text.ZeroFree name := by decide) : Ends (needOut out name >>= f) Reply.Quiet :=
  (ends_needOut out hname).bind fun _ _ => hf

theorem ends_input_bind {name : String} {argument : Argument} {f : Bytes → Action Reply}
    (hf : ∀ bytes, Ends (f bytes) Reply.Quiet) (hname : Text.ZeroFree name := by decide) :
    Ends (input name argument >>= f) Reply.Quiet :=
  (ends_input hname argument).bind fun bytes _ => hf bytes

/-- Every call ends with a status that no error has, or with an error whose message can be kept. -/
theorem ends_run (c : Call) : Ends (run c) Reply.Quiet := by
  cases c with
  | openPath out path options =>
    refine Ends.out ?_
    split
    · exact ends_throw (by decide)
    · rename_i bytes
      split
      · exact ends_throw (by decide)
      · rename_i path htext
        -- the only text of a caller that a message can show, and it ends before its first zero
        have hpath : Text.ZeroFree path := Text.zeroFree_of_toText? htext fun hmem => by
          simpa using List.mem_takeWhile_imp hmem
        exact ends_enroll fun _ hmedia => Store.shows_openDirectory hmedia hpath _
  | openMemory out options => exact Ends.out (ends_enroll fun _ hmedia => Store.shows_openMemory hmedia _)
  | close handle =>
    refine ends_get.bind fun i _ => ?_
    split
    · refine (ends_retire handle).bind fun _ _ => ?_
      exact ends_checked (fun _ hs => Store.tells_close answers hs) fun _ => ends_done
    · exact ends_done
  | get out handle key =>
    refine Ends.out (ends_input_bind fun key => (ends_storeAt handle).bind fun n _ => ?_)
    refine ends_checked (fun _ hs => Store.tells_get answers hs key) fun value => ?_
    cases value with
    | some value => exact ends_done
    | none => exact ends_pure (.inr rfl)
  | put handle key value =>
    refine ends_input_bind fun key => ends_input_bind fun value => (ends_storeAt handle).bind fun n _ => ?_
    exact ends_checked (fun _ hs => Store.tells_put answers hs key value) fun _ => ends_done
  | delete handle key =>
    refine ends_input_bind fun key => (ends_storeAt handle).bind fun n _ => ?_
    exact ends_checked (fun _ hs => Store.tells_delete answers hs key) fun _ => ends_done
  | stats out handle =>
    refine Ends.out ((ends_storeAt handle).bind fun n _ => ends_checked (fun s hs => ⟨?_, hs⟩) fun _ => ends_done)
    show Legible _ (if s.isOpen then _ else _)
    split
    · exact legible_ok _
    · exact legible_error (StoreError.zeroFree_closed .store)
  | cursorNew out handle =>
    refine Ends.out ((ends_storeAt handle).bind fun n _ => ?_)
    exact ends_checked (fun _ hs => Store.tells_cursor answers hs) fun _ => ends_issue _
  | cursorFirst handle => exact ends_moveCursor handle .first
  | cursorLast handle => exact ends_moveCursor handle .last
  | cursorSeek handle target => exact ends_input_bind fun target => ends_moveCursor handle (.seek target)
  | cursorNext handle => exact ends_moveCursor handle .next
  | cursorPrev handle => exact ends_moveCursor handle .prev
  | cursorValid out handle =>
    refine Ends.out (ends_get.bind fun i _ => ?_)
    split
    · exact (ends_onStore_of_keeps fun _ hs => hs).bind fun _ _ => ends_done
    · exact ends_done
  | cursorKey out handle => exact Ends.out (ends_readCursor handle fun _ _ => Store.legible_read (by decide) _)
  | cursorValue out handle => exact Ends.out (ends_readCursor handle fun _ _ => Store.legible_read (by decide) _)
  | cursorClose handle =>
    refine ends_get.bind fun i _ => ?_
    split
    · exact ends_discard handle _ _ _
    · exact ends_done
  | batchNew out handle =>
    refine Ends.out ((ends_storeAt handle).bind fun n _ => ?_)
    exact ends_checked (fun _ hs => Store.tells_writeBatch hs) fun _ => ends_issue _
  | batchPut handle key value =>
    exact ends_input_bind fun key => ends_input_bind fun value => ends_addToBatch handle (.put key value)
  | batchDelete handle key => exact ends_input_bind fun key => ends_addToBatch handle (.delete key)
  | batchWrite out handle => exact Ends.out (ends_writeBatch handle)
  | batchWriteAndClose out handle =>
    refine Ends.out ((ends_batchAt handle).bind fun (n, b) _ => (ends_retire handle).bind fun _ _ => ?_)
    exact ends_checked (fun _ hs => Store.tells_writeAndClose answers hs b) fun _ => ends_done
  | batchClose handle =>
    refine ends_get.bind fun i _ => ?_
    split
    · exact ends_discard handle _ _ _
    · exact ends_done

/-! ### The last error -/

/-- The error that a call ends with. -/
def failure? (i : Interface) (c : Call) : Option CallError :=
  match ((run c).run i.clearLastError).1 with
  | .ok _ => none
  | .error e => some e

theorem lastError_setLastError (i : Interface) {text : String} (htext : Text.ZeroFree text) :
    (i.setLastError text).lastError = some text :=
  if_neg fun hzero => htext (List.contains_iff_mem.mp hzero)

/-- A call has a status that no error has, and leaves no error; or it has the status of its own error, and leaves the
message of this error. -/
theorem call_cases {i : Interface} (hi : i.media.Legible) (c : Call) :
    (i.call c).2.media.Legible ∧
      ((i.failure? c = none ∧ (i.call c).1.Quiet ∧ (i.call c).2.lastError = none) ∨
        ∃ e, i.failure? c = some e ∧ (i.call c).1.status = e.status ∧ (i.call c).2.lastError = some e.message) := by
  have hend := ends_run c i.clearLastError ⟨rfl, hi⟩
  rw [failure?, call]
  generalize (run c).run i.clearLastError = r at hend ⊢
  cases hend with
  | ok hquiet hi => exact ⟨hi.media, .inl ⟨rfl, hquiet, hi.lastError⟩⟩
  | error he hi => exact ⟨hi.media, .inr ⟨_, rfl, rfl, lastError_setLastError _ he⟩⟩

theorem legible_after {i : Interface} (hi : i.media.Legible) {events : List Event}
    (hchange : ∀ f, .change f ∈ events → ∀ media : Media, media.Legible → (f media).Legible) :
    (i.after events).media.Legible := by
  refine List.foldlRecOn (motive := fun i : Interface => i.media.Legible) events next hi fun i hi event hmem => ?_
  cases event with
  | call c => exact (call_cases hi c).1
  | clear => exact hi
  | change f => exact hchange f hmem _ hi

/-- After any calls, with any arguments and whatever has happened to the media, as long as the errors that devices
report have texts without a zero. The last error is none if and only if the last call returned `ok` or `notFound`, and
otherwise it is the message of the error of this call, whose status the call returned. An error has another status than
these two, and of an error from before nothing is left. -/
theorem last_error_of_last_call {i : Interface} (hi : i.media.Legible) {events : List Event}
    (hchange : ∀ f, .change f ∈ events → ∀ media : Media, media.Legible → (f media).Legible) (c : Call) :
    let before := i.after events
    let status := (before.call c).1.status
    let lastError := (before.call c).2.lastError
    (lastError = none ↔ status = .ok ∨ status = .notFound) ∧
      lastError = (before.failure? c).map CallError.message ∧
      (∀ e, before.failure? c = some e → status = e.status) ∧
      (∀ e : CallError, e.status ≠ .ok ∧ e.status ≠ .notFound) ∧
      ∀ text, ({ before with lastError := text } : Interface).call c = before.call c := by
  intro before status lastError
  have herror : ∀ e : CallError, e.status ≠ .ok ∧ e.status ≠ .notFound := fun e =>
    ⟨fun h => e.not_quiet (.inl h), fun h => e.not_quiet (.inr h)⟩
  obtain ⟨-, ⟨hnone, hquiet, hlast⟩ | ⟨e, hsome, hstatus, hlast⟩⟩ := call_cases (legible_after hi hchange) c
  · refine ⟨⟨fun _ => hquiet, fun _ => hlast⟩, ?_, fun e he => ?_, herror, fun _ => rfl⟩
    · rw [hnone]
      exact hlast
    · cases hnone.symm.trans he
  · refine ⟨⟨fun h => ?_, fun h => ?_⟩, ?_, fun e' he => ?_, herror, fun _ => rfl⟩
    · cases hlast.symm.trans h
    · exact absurd (hstatus ▸ h) e.not_quiet
    · rw [hsome]
      exact hlast
    · cases hsome.symm.trans he
      exact hstatus

/-- The format of a store is a text with a zero in it, which is shown between quotes. The call before was for a handle
that was never given out. -/
theorem last_error_of_last_call_format :
    let disk := (((({} : Disk).makeDirectories "s").2).write "s/CURRENT" [0]).2
    let i : Interface := { media := { disk } }
    let events : List Event := [.call (.get true 7 (.given []))]
    let before := i.after events
    let c : Call := .openPath true (some [115]) none
    i.media.Legible ∧ before.lastError = some "store is closed" ∧
      before.failure? c = some (.store (.openFailure "s" (.corruption (.format "\x00" "s/CURRENT")))) ∧
      (before.call c).1.status = .corruption ∧ (before.call c).2.lastError =
        some "failed to open store at s: store corrupted: unrecognized store format \"\\0\" in s/CURRENT" := by
  intro disk i events before c
  have hi : i.media.Legible := nofun
  have hfailure : before.failure? c =
      some (.store (.openFailure "s" (.corruption (.format "\x00" "s/CURRENT")))) := by decide +kernel
  have hchange : ∀ f, .change f ∈ events → ∀ media : Media, media.Legible → (f media).Legible := by
    intro f hmem
    cases List.mem_singleton.mp hmem
  obtain ⟨-, hlast, hstatus, -, -⟩ := last_error_of_last_call hi hchange c
  have hstale : before.lastError = some "store is closed" := by decide +kernel
  have hcorrupt : (before.call c).1.status = .corruption := by
    rw [hstatus _ hfailure]
    decide
  have hmessage : (before.call c).2.lastError =
      some "failed to open store at s: store corrupted: unrecognized store format \"\\0\" in s/CURRENT" := by
    rw [hlast, hfailure]
    decide +kernel
  exact ⟨hi, hstale, hfailure, hcorrupt, hmessage⟩

end Interface

end OrderedStore
