import OrderedStore.Proofs.Guarding
import OrderedStore.Proofs.Stations

/-!
# Cursors follow their automata

In a run of a client every child has a shadow. That of a cursor is an automaton on the entries that were there when
the cursor, or the snapshot it was made from, was made. Writes, other children and the end of the store do not take
a cursor off its automaton.

* `Shadow`, `Client.shadows`: what each child is compared with;
* `Client.Follows`, `Client.follows_of_shadow`: one call of a cursor;
* `Client.of_shadowOf`, `Client.of_kept`, `Client.of_ask`: new children, those that are not asked, and the one that is;
* `Client.cursors_follow_stations`: every cursor, at every moment of a run.
-/

namespace OrderedStore

open Client

/-! ## Live cursors -/

namespace Store.Cursor

variable {σ : Type} {s : OnConnection σ}

/-- A cursor that has been moved fits the automaton where it has been moved to. -/
theorem Fits.hold {c : Store.Cursor} {raw raw' : Timeline.Cursor} {entries : List Entry}
    {station station' : Station entries} (h : c.Fits s raw station) (hseq : raw'.seq = raw.seq)
    (hlive : station' ≠ .closed) (hcurrent : raw'.current = station'.current) :
    Fits { c with position := station'.state } (s.hold c.token (.cursor raw')) raw' station' where
  cursor := by
    have hheld := get?_hold (get?_of_cursor? h.cursor) (.cursor raw')
    rw [cursor?, hheld]
  live := hlive
  entries := by
    rw [hseq]
    exact h.entries
  position := rfl
  current := hcurrent

/-- A new cursor has not been moved, and sees what a reader at its sequence sees. -/
theorem fits_adoptCursor [LogStorage σ] (s : OnConnection σ) (seq : Sequence) :
    Fits (s.adoptCursor (.start seq)).1 (s.adoptCursor (.start seq)).2 (.start seq)
      (.unset : Station (s.engine.timeline.versions.view seq).entries) where
  cursor := by
    have hheld : (s.adoptCursor (.start seq)).2.tokens.get? s.tokens.slots.length = some (.cursor (.start seq)) :=
      get?_adopt { s with counters := s.counters.countCursor } .cursor (.cursor (.start seq))
    show (s.adoptCursor (.start seq)).2.cursor? s.tokens.slots.length = _
    rw [cursor?, hheld]
  live := by simp
  entries := rfl
  position := rfl
  current := rfl

end Store.Cursor

/-! ## Shadows -/

/-- What a child is compared with. -/
inductive Shadow where
  | cursor (entries : List Entry) (station : Station entries)
  /-- The contents that a snapshot sees. -/
  | snapshot (contents : Contents)
  | batch
  deriving DecidableEq

namespace Shadow

/-- The shadow of a child that has been closed, or whose store has. -/
def ended : Shadow → Shadow
  | cursor entries _ => cursor entries .closed
  | shadow => shadow

/-- The shadow of a child that has been asked. -/
def ask : Shadow → ChildCall → Shadow
  | cursor entries station, .cursor q => cursor entries (station.step q).2
  | shadow, .close | shadow, .drop => shadow.ended
  | shadow, _ => shadow

/-- The child of a store has the shadow. -/
def Of {σ : Type} (s : Store.OnConnection σ) : Handle → Shadow → Prop
  | .cursor c, cursor _ station =>
    (s.tokens.get? c.token = none → station = .closed) ∧
      ∀ held, s.tokens.get? c.token = some held → ∃ raw, held = .cursor raw ∧ c.Fits s raw station
  | .batch _, batch => True
  | .snapshot n, snapshot contents =>
    ∀ view, s.tokens.get? n.token = some (.snapshot view) → s.engine.timeline.versions.view view.seq = contents
  | _, _ => False

theorem ask_close (shadow : Shadow) : shadow.ask .close = shadow.ended := by cases shadow <;> rfl

theorem ask_drop (shadow : Shadow) : shadow.ask .drop = shadow.ended := by cases shadow <;> rfl

/-- The shadows of the children that were there before a call. -/
def kept (shadows : List Shadow) : Call → List Shadow
  | .child n q => shadows.modify n (·.ask q)
  | .close | .drop => shadows.map ended
  | _ => shadows

theorem length_kept (shadows : List Shadow) (q : Call) : (kept shadows q).length = shadows.length := by
  cases q with
  | child n q => exact List.length_modify ..
  | close | drop => exact List.length_map ..
  | _ => rfl

/-- A call that does not ask a child changes its shadow only if it is the end of the store. -/
theorem getElem?_kept {shadows : List Shadow} {q : Call} {k : Nat} (hq : ∀ q', q ≠ .child k q') :
    (kept shadows q)[k]? = shadows[k]?.map fun shadow => if q.ends then shadow.ended else shadow := by
  cases q with
  | child n q =>
    have hne : n ≠ k := fun heq => hq q (heq ▸ rfl)
    rw [kept, List.getElem?_modify_ne _ _ hne]
    cases h : shadows[k]? <;> rfl
  | close | drop => exact List.getElem?_map ..
  | _ => cases h : shadows[k]? <;> exact h

variable {σ : Type} {s s' : Store.OnConnection σ} {handle : Handle} {shadow : Shadow}

/-- A child that is spared keeps its shadow. -/
theorem Of.spared (h : Of s handle shadow) (hspares : s.Spares s' handle.token)
    (hlive : s'.tokens.get? handle.token = none → s.tokens.get? handle.token = none) : Of s' handle shadow := by
  cases handle with
  | cursor c =>
    cases shadow with
    | cursor entries station =>
      refine ⟨fun hnone => h.1 (hlive hnone), fun held hheld => ?_⟩
      obtain ⟨hbefore, hview⟩ := hspares held hheld
      obtain ⟨raw, rfl, hfits⟩ := h.2 held hbefore
      have hcursor : s'.cursor? c.token = some raw := by
        have hget : s'.tokens.get? c.token = some (.cursor raw) := hheld
        rw [Store.cursor?, hget]
      exact ⟨raw, rfl, hcursor, hfits.live, (congrArg KeyMap.entries (hview raw.seq rfl)).trans hfits.entries,
        hfits.position, hfits.current⟩
    | _ => exact h
  | batch b => cases shadow <;> exact h
  | snapshot n =>
    cases shadow with
    | snapshot contents =>
      intro view hview'
      obtain ⟨hbefore, hview⟩ := hspares _ hview'
      exact (hview view.seq rfl).trans (h view hbefore)
    | _ => exact h

/-- A child whose token has been released has an ended shadow. -/
theorem Of.ended (h : Of s handle shadow) (hgone : s'.tokens.get? handle.token = none) :
    Of s' handle shadow.ended := by
  have hget : ∀ held, s'.tokens.get? handle.token ≠ some held := fun held hheld => nomatch hgone.symm.trans hheld
  cases handle with
  | cursor c =>
    cases shadow with
    | cursor entries station => exact ⟨fun _ => rfl, fun held hheld => absurd hheld (hget held)⟩
    | _ => exact h
  | batch b => cases shadow <;> exact h
  | snapshot n =>
    cases shadow with
    | snapshot contents => exact fun view hview => absurd hview (hget _)
    | _ => exact h

/-- Asking it changes nothing. -/
theorem Of.ask_of_released (h : Of s handle shadow) (hgone : s.tokens.get? handle.token = none) (q : ChildCall) :
    Of s handle (shadow.ask q) := by
  cases handle with
  | cursor c =>
    cases shadow with
    | cursor entries station =>
      have hclosed : station = .closed := h.1 hgone
      subst hclosed
      rcases q with (m | _ | _ | _) | _ | _ | _ | _
      · cases m <;> exact h
      all_goals exact h
    | _ => cases h
  | batch b => cases shadow <;> cases q <;> exact h
  | snapshot n => cases shadow <;> cases q <;> exact h

/-- A live cursor after a move. -/
theorem of_hold {c : Store.Cursor} {raw raw' : Timeline.Cursor} {entries : List Entry}
    {station station' : Station entries} (h : c.Fits s raw station) (hseq : raw'.seq = raw.seq)
    (hlive : station' ≠ .closed) (hcurrent : raw'.current = station'.current) :
    Of (s.hold c.token (.cursor raw')) (.cursor { c with position := station'.state }) (.cursor entries station') := by
  have hheld := Store.get?_hold (Store.get?_of_cursor? h.cursor) (.cursor raw')
  refine ⟨fun hnone => absurd (hheld.symm.trans hnone) (Option.some_ne_none _), fun held hget => ?_⟩
  cases hheld.symm.trans hget
  exact ⟨raw', rfl, h.hold hseq hlive hcurrent⟩

end Shadow

namespace Client

variable {σ : Type} [LogStorage σ]

/-- The shadow of the child that a call makes: a cursor of a store sees the contents of the last commit, and a cursor
of a snapshot sees what the snapshot sees. -/
def shadowOf (c : OnConnection σ) (shadows : List Shadow) : Call → Shadow
  | .openCursor => .cursor c.store.engine.timeline.contents.entries .unset
  | .openSnapshot => .snapshot c.store.engine.timeline.contents
  | .child n _ =>
    match shadows[n]? with
    | some (.snapshot contents) => .cursor contents.entries .unset
    | _ => .batch
  | _ => .batch

/-- The shadows of the children after a call: the child that is asked follows its automaton, the end of the store is
the end of all children, and a call that makes a child makes a shadow. -/
def shadowsStep (c : OnConnection σ) (shadows : List Shadow) (q : Call) : List Shadow :=
  match (c.step q).1 with
  | .ok (.child _) => Shadow.kept shadows q ++ [c.shadowOf shadows q]
  | _ => Shadow.kept shadows q

/-- The shadows of the children after events. -/
def shadows (c : OnConnection σ) (shadows : List Shadow) : List (Event (σ → σ)) → List Shadow
  | [] => shadows
  | .call q :: events => (c.next Connection.mapLog (.call q)).shadows (c.shadowsStep shadows q) events
  | .change f :: events => (c.next Connection.mapLog (.change f)).shadows shadows events

variable {c : OnConnection σ} {isOpen : Bool}

/-! ### The cursor that is asked -/

/-- The cursor in place `n` is answered as its automaton is, and goes on as it does. A call that fails changes
nothing. -/
structure Follows (c : OnConnection σ) (n : Nat) (place : Place) (cursor : Store.Cursor) {entries : List Entry}
    (answer : Client.Reply × Station entries) (r : Client.Reply × OnConnection σ) : Prop where
  reply : r.1 = answer.1
  error : ∀ e, answer.1 = .error e → r.2 = c
  shadow : ∃ cursor' : Store.Cursor, cursor'.token = cursor.token ∧
    r.2.places = c.places.set n { place with handle := .cursor cursor' } ∧
    Shadow.Of r.2.store (.cursor cursor') (.cursor entries answer.2)

variable {n : Nat} {place : Place} {cursor : Store.Cursor} {entries : List Entry} {station : Station entries}

omit [LogStorage σ] in
theorem set_cursor (hn : c.places[n]? = some place) (hhandle : place.handle = .cursor cursor) :
    c.places.set n { place with handle := .cursor cursor } = c.places :=
  set_of_getElem? (hn.trans (by rw [← hhandle]))

omit [LogStorage σ] in
/-- A call that changes nothing, and neither does it in the automaton. -/
theorem follows_same (hn : c.places[n]? = some place) (hhandle : place.handle = .cursor cursor)
    (h : Shadow.Of c.store (.cursor cursor) (.cursor entries station)) (reply : Client.Reply) :
    c.Follows n place cursor (reply, station) (reply, c) :=
  ⟨rfl, fun _ _ => rfl, cursor, rfl, (set_cursor hn hhandle).symm, h⟩

theorem askCursor_of_error (hn : c.places[n]? = some place) (hhandle : place.handle = .cursor cursor) {m : Move}
    {e : StoreError} (hmove : cursor.move m c.store = (.error e, cursor, c.store)) :
    c.askCursor n place cursor (.move m) = (.error e, c) := by
  have hsame := set_cursor hn hhandle
  simp only [askCursor, hmove, hsame]
  rfl

/-- A cursor whose token has been released. -/
theorem follows_of_closed (hn : c.places[n]? = some place) (hhandle : place.handle = .cursor cursor)
    (h : Shadow.Of c.store (.cursor cursor) (.cursor entries station))
    (hgone : c.store.tokens.get? cursor.token = none) (q : CursorCall) :
    c.Follows n place cursor (station.step q) (c.askCursor n place cursor q) := by
  have hnone := Store.cursor?_of_get? hgone
  have hclosed : station = .closed := h.1 hgone
  subst hclosed
  have hreply : (.error (.closed .cursor), c) = c.askCursor n place cursor q := by
    cases q with
    | move m => exact (askCursor_of_error hn hhandle (Store.Cursor.move_of_closed hnone m)).symm
    | key | value | entry =>
      exact congrArg (fun read => (Except.map _ read, c)) (Store.Cursor.read_of_closed hnone ..).symm
  have hstep : (.error (.closed .cursor), .closed) = (.closed : Station entries).step q := by
    cases q with
    | move m => cases m <;> rfl
    | key | value | entry => rfl
  rw [← hreply, ← hstep]
  exact follows_same hn hhandle h _

/-- A cursor that is live. -/
theorem follows_of_fits (hn : c.places[n]? = some place) (hhandle : place.handle = .cursor cursor)
    (h : Shadow.Of c.store (.cursor cursor) (.cursor entries station)) {raw : Timeline.Cursor}
    (hfits : cursor.Fits c.store raw station) (q : CursorCall) :
    c.Follows n place cursor (station.step q) (c.askCursor n place cursor q) := by
  have hread : ∀ {α : Type} (call : String) (f : Timeline.Cursor → Connection σ → Option α) (g : Entry → α)
      (out : α → Outcome), (∀ e, raw.current = some e → f raw c.store.engine = some (g e)) →
      (cursor.read c.store call f).map out = (station.read call).map fun e => out (g e) := by
    intro α call f g out hf
    rw [Store.Cursor.read_of_fits hfits call hf]
    cases station.read call <;> rfl
  cases q with
  | move m =>
    rcases Store.Cursor.move_of_fits hfits m with ⟨station', hok, hmove, hlive, hcurrent⟩ | ⟨e, herror, hmove⟩
    · rw [Station.step, hok, askCursor, hmove]
      refine ⟨rfl, fun _ => by simp, { cursor with position := station'.state }, rfl, rfl, ?_⟩
      exact Shadow.of_hold hfits rfl hlive hcurrent
    · rw [Station.step, herror, askCursor_of_error hn hhandle hmove]
      exact follows_same hn hhandle h _
  | key =>
    have hkey := hread "key" Engine.key Prod.fst .bytes fun e he => by
      show raw.current.map _ = _
      rw [he]
      rfl
    rw [Station.step, ← hkey]
    exact follows_same hn hhandle h _
  | value =>
    have hvalue := hread "value" Engine.value Prod.snd .bytes fun e he => by
      show raw.current.map _ = _
      rw [he]
      rfl
    rw [Station.step, ← hvalue]
    exact follows_same hn hhandle h _
  | entry =>
    have hentry := hread "entry" (fun raw engine => do
        let key ← Engine.key raw engine
        let value ← Engine.value raw engine
        return (key, value)) id .entry fun e he => by
      show (do
        let key ← raw.current.map Prod.fst
        let value ← raw.current.map Prod.snd
        return (key, value)) = some e
      rw [he]
      rfl
    rw [Station.step]
    refine Eq.subst (motive := fun reply => c.Follows n place cursor (reply, station) _) hentry ?_
    exact follows_same hn hhandle h _

end Client

/-! ### New children -/

namespace Shadow

variable {σ : Type}

/-- A new cursor has a new shadow. -/
theorem of_adoptCursor [LogStorage σ] (s : Store.OnConnection σ) (seq : Sequence) :
    Of (s.adoptCursor (.start seq)).2 (.cursor (s.adoptCursor (.start seq)).1)
      (.cursor (s.engine.timeline.versions.view seq).entries .unset) := by
  have hheld := Store.get?_adopt { s with counters := s.counters.countCursor } .cursor (.cursor (.start seq))
  refine ⟨fun hnone => absurd (hheld.symm.trans hnone) (Option.some_ne_none _), fun held hget => ?_⟩
  cases hheld.symm.trans hget
  exact ⟨_, rfl, Store.Cursor.fits_adoptCursor s seq⟩

end Shadow

namespace Client

variable {σ : Type} [LogStorage σ] {c : OnConnection σ} {isOpen : Bool}

/-- Every child has a shadow. -/
structure Shadowed (c : OnConnection σ) (shadows : List Shadow) : Prop where
  length : shadows.length = c.places.length
  of : ∀ (n : Nat) (place : Place), c.places[n]? = some place →
    ∃ shadow, shadows[n]? = some shadow ∧ Shadow.Of c.store place.handle shadow

/-- A child that has just been made has the shadow that has just been made. -/
theorem of_shadowOf {shadows : List Shadow} (h : c.Shadowed shadows) {q : Call} {m : Nat}
    (hreply : (c.step q).1 = .ok (.child m)) {handle : Handle}
    (hplaces : (c.step q).2.places = c.places ++ [⟨handle, .inUse⟩]) :
    Shadow.Of (c.step q).2.store handle (c.shadowOf shadows q) := by
  -- What the call has made stands at the end of the list.
  have hmade : ∀ {r : Except StoreError Handle × Store.OnConnection σ} {handle' : Handle},
      c.step q = c.receive r → r.1 = .ok handle' → Shadow.Of r.2 handle' (c.shadowOf shadows q) →
      Shadow.Of (c.step q).2.store handle (c.shadowOf shadows q) := by
    rintro ⟨result, store⟩ handle' hstep rfl hof
    rw [hstep] at hplaces ⊢
    cases List.append_cancel_left hplaces
    exact hof
  have hrefused : ∀ {r : Except StoreError Handle × Store.OnConnection σ} {e : StoreError},
      c.step q = c.receive r → r.1 ≠ .error e := by
    rintro ⟨result, store⟩ e hstep rfl
    rw [hstep] at hreply
    cases hreply
  rcases opens_of_reply hreply with rfl | rfl | rfl | ⟨n, snapshot, fate, rfl, hn, hfate⟩
  · have hcases := c.store.request_cases (f := Engine.openCursor) (a := .start c.store.engine.sequence) rfl
    have hstep : c.step .openCursor = c.receive (c.store.cursor.1.map .cursor, c.store.cursor.2) := rfl
    rw [Store.cursor] at hstep
    rcases hcases with ⟨e, hrequest⟩ | ⟨-, hrequest⟩
    all_goals rw [hrequest] at hstep
    · exact absurd rfl (hrefused (e := e) hstep)
    · exact hmade hstep rfl (Shadow.of_adoptCursor _ _)
  · have hstep : c.step .openBatch = c.receive (c.store.writeBatch.1.map .batch, c.store.writeBatch.2) := rfl
    rw [Store.writeBatch] at hstep
    split at hstep
    · exact absurd rfl (hrefused (e := .closed .store) hstep)
    · exact hmade hstep rfl trivial
  · have hcases := c.store.request_cases (f := Engine.openView) (a := ⟨c.store.engine.sequence⟩) rfl
    have hstep : c.step .openSnapshot = c.receive (c.store.snapshot.1.map .snapshot, c.store.snapshot.2) := rfl
    rw [Store.snapshot] at hstep
    rcases hcases with ⟨e, hrequest⟩ | ⟨-, hrequest⟩
    all_goals rw [hrequest] at hstep
    · exact absurd rfl (hrefused (e := e) hstep)
    · refine hmade hstep rfl fun view hview => ?_
      cases hview.symm.trans (Store.get?_adopt _ _ _)
      rfl
  · obtain ⟨shadow, hshadow, hof⟩ := h.of n _ hn
    have hstep : c.step (.child n (.snapshot .cursor)) =
        c.receive ((snapshot.cursor c.store).1.map .cursor, (snapshot.cursor c.store).2) := step_child hn hfate _
    rw [Store.Snapshot.cursor] at hstep
    split at hstep
    · exact absurd rfl (hrefused (e := .closed .snapshot) hstep)
    · split at hstep
      · exact absurd rfl (hrefused (e := .closed .snapshot) hstep)
      · rename_i view hview
        cases shadow with
        | snapshot contents =>
          have hsees : c.store.engine.timeline.versions.view view.seq = contents :=
            hof view (Store.get?_of_snapshot? hview)
          refine hmade hstep rfl ?_
          rw [shadowOf, hshadow, ← hsees]
          exact Shadow.of_adoptCursor _ _
        | cursor | batch => cases hof

/-- A child that a call does not ask keeps its shadow, which ends with the store. -/
theorem of_kept {shadows : List Shadow} (h : c.Shadowed shadows) (ha : c.Accounted isOpen) (hg : c.store.Guarded)
    {q : Call} (hseq : q.isWrite = true → c.store.engine.sequence.toNat < UInt64.size - 1) {k : Nat} {place : Place}
    (hk : c.places[k]? = some place) (hq : ∀ q', q ≠ .child k q') :
    (c.step q).2.places[k]? = some place ∧
      ∃ shadow, (Shadow.kept shadows q)[k]? = some shadow ∧ Shadow.Of (c.step q).2.store place.handle shadow := by
  obtain ⟨shadow, hshadow, hof⟩ := h.of k place hk
  have hlt : k < c.places.length := (List.getElem?_eq_some_iff.mp hk).1
  have hafter := (getElem?_places_step hlt hq).trans hk
  have hacc := accounted_step ha q
  have htoken : place.handle.token = k := (ha.listed k place hk).1
  refine ⟨hafter, ?_⟩
  rw [Shadow.getElem?_kept hq, hshadow, Option.map_some]
  cases hends : q.ends with
  | true =>
    rw [hends] at hacc
    exact ⟨_, rfl, hof.ended (hacc.get?_of_closed hafter)⟩
  | false =>
    have halters : q.alters k = false := by
      cases q with
      | child n q =>
        have hne : n ≠ k := fun heq => hq q (heq ▸ rfl)
        rcases q with (_ | _ | _ | _) | (_ | _ | _) | _ | _ | _
        all_goals first | rfl | exact decide_eq_false hne
      | _ => rfl
    refine ⟨_, rfl, hof.spared ?_ fun hnone => ?_⟩
    · rw [htoken]
      exact (keeps_step ha q).spares hseq hg ⟨hlt, halters⟩
    · rw [htoken] at hnone ⊢
      exact get?_step_of_live ha hends hk hafter hnone

/-- The child that is asked has the shadow that was asked. -/
theorem of_ask {shadows : List Shadow} (h : c.Shadowed shadows) (ha : c.Accounted isOpen) (hg : c.store.Guarded)
    {q : ChildCall} {k : Nat} {place : Place}
    (hseq : (Call.child k q).isWrite = true → c.store.engine.sequence.toNat < UInt64.size - 1)
    (hk : c.places[k]? = some place) :
    ∃ place', (c.step (.child k q)).2.places[k]? = some place' ∧
      ∃ shadow, (Shadow.kept shadows (.child k q))[k]? = some shadow ∧
        Shadow.Of (c.step (.child k q)).2.store place'.handle shadow := by
  obtain ⟨shadow, hshadow, hof⟩ := h.of k place hk
  have hlt : k < c.places.length := (List.getElem?_eq_some_iff.mp hk).1
  have hasked : (Shadow.kept shadows (.child k q))[k]? = some (shadow.ask q) := by
    rw [Shadow.kept, List.getElem?_modify_eq, hshadow]
    rfl
  have hset : ∀ place', (c.places.set k place')[k]? = some place' := fun _ => List.getElem?_set_self hlt
  have hacc := accounted_step ha (.child k q)
  have hkeeps := keeps_step ha (.child k q)
  have hlive := get?_step_of_live ha (q := .child k q) rfl hk
  rw [hasked]
  by_cases hfate : place.fate = .dropped
  · have hgone := Store.Accounted.get?_eq_none ha hk fun hlive => nomatch hlive.2.symm.trans hfate
    rw [step_dropped hk hfate]
    exact ⟨place, hk, _, rfl, hof.ask_of_released hgone q⟩
  rw [step_child hk hfate] at hacc hkeeps hlive ⊢
  cases q with
  | cursor q =>
    obtain ⟨handle, fate⟩ := place
    cases handle with
    | cursor cursor =>
      cases shadow with
      | cursor entries station =>
        have hfollows : c.Follows k ⟨.cursor cursor, fate⟩ cursor (station.step q)
            (c.askCursor k ⟨.cursor cursor, fate⟩ cursor q) := by
          cases hget : c.store.tokens.get? cursor.token with
          | none => exact follows_of_closed hk rfl hof hget q
          | some held =>
            obtain ⟨raw, -, hfits⟩ := hof.2 held hget
            exact follows_of_fits hk rfl hof hfits q
        obtain ⟨cursor', -, hplaces, hof'⟩ := hfollows.shadow
        exact ⟨⟨.cursor cursor', fate⟩, hplaces ▸ hset _, _, rfl, hof'⟩
      | batch | snapshot => cases hof
    | batch b | snapshot n =>
      refine ⟨_, hk, _, rfl, ?_⟩
      cases shadow <;> exact hof
  | batch q =>
    obtain ⟨handle, fate⟩ := place
    cases handle with
    | batch b =>
      cases shadow with
      | batch =>
        cases q with
        | add => exact ⟨_, hk, _, rfl, trivial⟩
        | write => exact ⟨_, hset ⟨.batch (b.write c.store).2.1, fate⟩, _, rfl, trivial⟩
        | writeAndClose => exact ⟨_, hset ⟨.batch b, .dropped⟩, _, rfl, trivial⟩
      | cursor | snapshot => cases hof
    | cursor cursor | snapshot n =>
      refine ⟨_, hk, _, rfl, ?_⟩
      cases shadow <;> exact hof
  | snapshot q =>
    obtain ⟨handle, fate⟩ := place
    cases handle with
    | snapshot snapshot =>
      have htoken : snapshot.token = k := (ha.listed k _ hk).1
      have hafter : (c.ask k ⟨.snapshot snapshot, fate⟩ (.snapshot q)).2.places[k]? =
          some ⟨.snapshot snapshot, fate⟩ := by
        cases q with
        | get | sequence => exact hk
        | cursor =>
          have hask : c.ask k ⟨.snapshot snapshot, fate⟩ (.snapshot .cursor) =
              c.receive ((snapshot.cursor c.store).1.map .cursor, (snapshot.cursor c.store).2) := rfl
          rw [hask]
          rcases c.receive_cases ((snapshot.cursor c.store).1.map .cursor, (snapshot.cursor c.store).2) with
            ⟨handle, -, hok⟩ | ⟨e, -, herror⟩
          · rw [hok, List.getElem?_append_left hlt, hk]
          · rw [herror, hk]
      have hspared :
          Shadow.Of (c.ask k ⟨.snapshot snapshot, fate⟩ (.snapshot q)).2.store (.snapshot snapshot) shadow := by
        refine hof.spared (htoken ▸ (hkeeps.spares hseq hg ⟨hlt, rfl⟩ : Store.Spares _ _ k)) fun hnone => ?_
        have hbefore := hlive hafter
        subst htoken
        exact hbefore hnone
      refine ⟨_, hafter, _, rfl, ?_⟩
      cases shadow <;> exact hspared
    | cursor cursor | batch b =>
      refine ⟨_, hk, _, rfl, ?_⟩
      cases shadow <;> exact hof
  | close =>
    rw [ask_close] at hacc ⊢
    have hgone := Store.Accounted.get?_eq_none hacc (hset _) fun hlive => nomatch hlive.2
    refine ⟨_, hset _, _, rfl, ?_⟩
    rw [Shadow.ask_close]
    exact hof.ended hgone
  | drop =>
    rw [ask_drop] at hacc ⊢
    have hgone := Store.Accounted.get?_eq_none hacc (hset _) fun hlive => nomatch hlive.2
    refine ⟨_, hset _, _, rfl, ?_⟩
    rw [Shadow.ask_drop]
    exact hof.ended hgone

/-- Every child has a shadow after a call. -/
theorem shadowed_step {shadows : List Shadow} (h : c.Shadowed shadows) (ha : c.Accounted isOpen) (hg : c.store.Guarded)
    {q : Call} (hseq : q.isWrite = true → c.store.engine.sequence.toNat < UInt64.size - 1) :
    (c.step q).2.Shadowed (c.shadowsStep shadows q) := by
  have hold : ∀ k place, k < c.places.length → (c.step q).2.places[k]? = some place →
      ∃ shadow, (Shadow.kept shadows q)[k]? = some shadow ∧ Shadow.Of (c.step q).2.store place.handle shadow := by
    intro k place hlt hk
    by_cases hasked : ∃ q', q = .child k q'
    · obtain ⟨q', rfl⟩ := hasked
      obtain ⟨place', hk', hshadow⟩ := of_ask h ha hg hseq (q := q') (List.getElem?_eq_getElem hlt)
      cases hk.symm.trans hk'
      exact hshadow
    · have hnot : ∀ q', q ≠ .child k q' := fun q' heq => hasked ⟨q', heq⟩
      obtain ⟨hk', hshadow⟩ := of_kept h ha hg hseq (List.getElem?_eq_getElem hlt) hnot
      cases hk.symm.trans hk'
      exact hshadow
  have hlength : (Shadow.kept shadows q).length = c.places.length := (Shadow.length_kept ..).trans h.length
  rcases c.places_step q with ⟨handle, hreply, hplaces⟩ | ⟨hreply, hplaces⟩
  · have hstep : c.shadowsStep shadows q = Shadow.kept shadows q ++ [c.shadowOf shadows q] := by
      rw [shadowsStep, hreply]
    constructor
    · rw [hstep, hplaces, List.length_append, List.length_append, hlength]
      rfl
    · intro k place hk
      rw [hstep]
      by_cases hlt : k < c.places.length
      · obtain ⟨shadow, hshadow, hof⟩ := hold k place hlt hk
        exact ⟨shadow, (List.getElem?_append_left (hlength ▸ hlt)).trans hshadow, hof⟩
      · have hnew := hk
        rw [hplaces, List.getElem?_append_right (Nat.not_lt.mp hlt), List.getElem?_singleton] at hnew
        split at hnew
        · rename_i hzero
          cases hnew
          refine ⟨_, ?_, of_shadowOf h hreply hplaces⟩
          rw [List.getElem?_append_right (hlength ▸ Nat.not_lt.mp hlt), hlength, hzero]
          rfl
        · cases hnew
  · have hstep : c.shadowsStep shadows q = Shadow.kept shadows q := by
      unfold shadowsStep
      split
      · rename_i m hm
        exact absurd hm (hreply m)
      · rfl
    have hsame : (c.step q).2.places.length = c.places.length := by
      rcases hplaces with hplaces | ⟨n, q', _, _, -, -, hplaces, -⟩
      · rw [hplaces]
      · rw [hplaces, List.length_set]
    rw [hstep]
    exact ⟨hlength.trans hsame.symm, fun k place hk =>
      hold k place (hsame ▸ (List.getElem?_eq_some_iff.mp hk).1) hk⟩

/-! ### Whole runs -/

/-- Every child has a shadow, in every state of a client. By induction on the events. -/
theorem shadowed_run {shadows : List Shadow} (h : c.Shadowed shadows) (ha : c.Accounted isOpen) (hg : c.store.Guarded)
    {events : List (Event (σ → σ))} (hseq : c.WritesBelow events) :
    (c.run Connection.mapLog events).Shadowed (c.shadows shadows events) := by
  induction events generalizing c isOpen shadows with
  | nil => exact h
  | cons event events ih =>
    obtain ⟨hnow, hlater⟩ := hseq
    have hguarded := guarded_next hg ha hnow
    have haccounted := accounted_next ha event
    cases event with
    | call q => exact ih (shadowed_step h ha hg hnow) haccounted hguarded hlater
    | change f =>
      have hchanged : (c.next Connection.mapLog (.change f)).Shadowed shadows :=
        ⟨h.length, fun n place hn => (h.of n place hn).imp fun shadow ⟨hshadow, hof⟩ =>
          ⟨hshadow, hof.spared (fun held hheld => ⟨hheld, fun _ _ => rfl⟩) id⟩⟩
      exact ih hchanged haccounted hguarded hlater

/-- A cursor that has a shadow is where its automaton is, and is answered as the automaton is. -/
theorem follows_of_shadow {n : Nat} {cursor : Store.Cursor} {fate : Fate}
    (hn : c.places[n]? = some ⟨.cursor cursor, fate⟩) (hfate : fate ≠ .dropped) {entries : List Entry}
    {station : Station entries} (h : Shadow.Of c.store (.cursor cursor) (.cursor entries station)) :
    cursor.state c.store = station.state ∧
      (∀ raw, c.store.cursor? cursor.token = some raw →
        (cursor.position = .positioned ↔ Engine.isValid raw c.store.engine = true)) ∧
      ∀ q, c.Follows n ⟨.cursor cursor, fate⟩ cursor (station.step q) (c.step (.child n (.cursor q))) := by
  have hask : ∀ q, c.step (.child n (.cursor q)) = c.askCursor n ⟨.cursor cursor, fate⟩ cursor q :=
    fun q => step_child hn hfate (.cursor q)
  cases hget : c.store.tokens.get? cursor.token with
  | none =>
    have hnone := Store.cursor?_of_get? hget
    refine ⟨?_, fun raw hraw => absurd (hnone.symm.trans hraw) nofun, fun q => ?_⟩
    · rw [Store.Cursor.state, hnone, h.1 hget]
      rfl
    · rw [hask]
      exact follows_of_closed hn rfl h hget q
  | some held =>
    obtain ⟨raw, -, hfits⟩ := h.2 held hget
    refine ⟨Store.Cursor.state_of_fits hfits, fun raw' hraw' => ?_, fun q => ?_⟩
    · cases hfits.cursor.symm.trans hraw'
      show cursor.position = .positioned ↔ raw.current.isSome = true
      rw [hfits.position, hfits.current]
      cases station <;> simp [Station.state, Station.current]
    · rw [hask]
      exact follows_of_fits hn rfl h hfits q

/-- Every cursor of a store, at every moment of every run, is the automaton on the entries that were there when it, or
the snapshot it was made from, was made: its state is where the automaton stands, every call is answered as the
automaton is, and a call that fails changes nothing. A cursor that says that it is on an entry stands on one in the
engine. -/
theorem cursors_follow_stations {path : Option String} {options : EngineOptions} {log : σ} {connection : Connection σ}
    (hopen : Connection.openOn path options log = .ok connection) (storePath : Option String) (storeOptions : Options)
    (events : List (Event (σ → σ)))
    (hseq : WritesBelow (start (Store.ofEngine storePath storeOptions connection)) events) :
    let c : OnConnection σ := (start (Store.ofEngine storePath storeOptions connection)).run Connection.mapLog events
    let shadows := shadows (start (Store.ofEngine storePath storeOptions connection)) [] events
    ∀ n cursor fate, c.places[n]? = some ⟨.cursor cursor, fate⟩ → fate ≠ .dropped →
      ∃ (entries : List Entry) (station : Station entries), shadows[n]? = some (.cursor entries station) ∧
        cursor.state c.store = station.state ∧ (cursor.isValid c.store = true ↔ ∃ i, station = .on i) ∧
        (∀ raw, c.store.cursor? cursor.token = some raw →
          (cursor.position = .positioned ↔ Engine.isValid raw c.store.engine = true)) ∧
        ∀ q, (c.step (.child n (.cursor q))).1 = (station.step q).1 ∧
          ∀ e, (station.step q).1 = .error e → (c.step (.child n (.cursor q))).2 = c := by
  intro c shadows n cursor fate hn hfate
  have ha := accounted_start hopen storePath storeOptions
  have hstart : Shadowed (start (Store.ofEngine storePath storeOptions connection) : OnConnection σ) [] :=
    ⟨rfl, fun _ _ h => nomatch h⟩
  obtain ⟨shadow, hshadow, hof⟩ :=
    (shadowed_run hstart ha (guarded_start hopen storePath storeOptions) hseq).of n _ hn
  cases shadow with
  | cursor entries station =>
    obtain ⟨hstate, hposition, hfollows⟩ := follows_of_shadow hn hfate hof
    refine ⟨entries, station, hshadow, hstate, ?_, hposition, fun q => ⟨(hfollows q).reply, (hfollows q).error⟩⟩
    rw [Store.Cursor.isValid, decide_eq_true_eq, hstate]
    cases station <;> simp [Station.state]
  | batch | snapshot => cases hof

/-- A snapshot is taken, its key is deleted, and a cursor of the snapshot is moved to its only entry, behind it, and
back again. -/
theorem cursors_follow_stations_recovered :
    let log : MemoryLog := ⟨[66, 76, 79, 71, 1, 0, 1, 18, 0, 0, 0, 7, 0, 0, 0, 0, 0, 0, 0, 1, 0, 0, 0, 97, 1, 0, 0, 0,
      1, 225, 104, 124, 77]⟩
    let connection : Connection MemoryLog := ⟨none, {}, .ofRecords [.put 7 [97] [1]], log, true⟩
    let calls : List (Event (MemoryLog → MemoryLog)) := [.openSnapshot, .delete [97], .child 0 (.snapshot .cursor),
      .child 1 (.cursor (.move .first)), .child 1 (.cursor (.move .next)), .openCursor,
      .child 1 (.cursor (.move (.seek [])))].map .call
    let c : OnConnection MemoryLog := (start (Store.ofEngine none {} connection)).run Connection.mapLog calls
    Connection.openOn none {} log = .ok connection ∧
      WritesBelow (start (Store.ofEngine none {} connection)) calls ∧
      c.places[1]? = some ⟨.cursor ⟨1, 2, .positioned⟩, .inUse⟩ ∧
      (shadows (start (Store.ofEngine none {} connection)) [] calls)[1]? =
        some (.cursor [([97], [1])] (.on ⟨0, by decide⟩)) ∧
      (c.step (.child 1 (.cursor .entry))).1 = .ok (.entry ([97], [1])) := by
  intro log connection calls c
  have hopen : Connection.openOn none {} log = .ok connection :=
    Connection.openOn_encodeLog (by decide +kernel) rfl (by decide)
  have hseq : WritesBelow (start (Store.ofEngine none {} connection)) calls := by decide +kernel
  have hplace : c.places[1]? = some ⟨.cursor ⟨1, 2, .positioned⟩, .inUse⟩ := by decide +kernel
  have hstation : (shadows (start (Store.ofEngine none {} connection)) [] calls)[1]? =
      some (.cursor [([97], [1])] (.on ⟨0, by decide⟩)) := by
    decide +kernel
  obtain ⟨entries, station, hshadow, -, -, -, hcalls⟩ :=
    cursors_follow_stations hopen none {} calls hseq 1 _ _ hplace (by decide)
  cases hstation.symm.trans hshadow
  exact ⟨hopen, hseq, hplace, hstation, (hcalls .entry).1⟩

end Client

end OrderedStore
