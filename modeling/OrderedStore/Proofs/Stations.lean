import OrderedStore.Proofs.Scan
import OrderedStore.Proofs.Store

/-!
# Cursors are automata

A cursor of a store is compared with an automaton that stands in a list of entries which does not change.

* `Station`, `Station.step`: the automaton;
* `Station.destination_of_move`: it moves as a reader with its own copy of the entries;
* `Store.Cursor.Fits`: a cursor stands where the automaton does;
* `Store.Cursor.move_of_fits`, `Store.Cursor.read_of_fits`: one call of such a cursor.
-/

namespace OrderedStore

open Client

/-! ## The automaton -/

/-- Where a cursor stands in the list of the entries that it sees. -/
inductive Station (entries : List Entry) where
  | unset
  | on (i : Fin entries.length)
  | exhausted
  | closed
  deriving DecidableEq

namespace Station

variable {entries : List Entry}

def state : Station entries → CursorState
  | unset => .unset
  | on _ => .positioned
  | exhausted => .exhausted
  | closed => .closed

/-- The entry on which the cursor stands. -/
def current : Station entries → Option Entry
  | on i => some entries[i]
  | _ => none

/-- On entry `i`, or past the ends of the list. -/
def land (i : Nat) : Station entries := if h : i < entries.length then on ⟨i, h⟩ else exhausted

/-- Where a move leads. A step to a neighbour needs an entry to start from. -/
def move : Move → Station entries → Except StoreError (Station entries)
  | _, closed => .error (.closed .cursor)
  | .first, _ => .ok (land 0)
  | .last, _ => .ok (land (entries.length - 1))
  | .seek target, _ => .ok (land (entries.findIdx (target ≤ ·.1)))
  | .next, on i => .ok (land (i + 1))
  | .prev, on ⟨0, _⟩ => .ok exhausted
  | .prev, on ⟨i + 1, _⟩ => .ok (land i)
  | .next, station => .error (.invalidCursorState "next" station.state)
  | .prev, station => .error (.invalidCursorState "prev" station.state)

/-- The entry that a call reads. -/
def read (call : String) : Station entries → Except StoreError Entry
  | on i => .ok entries[i]
  | closed => .error (.closed .cursor)
  | station => .error (.invalidCursorState call station.state)

/-- The reply to a call, and where the cursor stands afterwards. -/
def step (station : Station entries) : CursorCall → Client.Reply × Station entries
  | .move m =>
    match station.move m with
    | .ok station' => (.ok .done, station')
    | .error e => (.error e, station)
  | .key => ((station.read "key").map (.bytes ·.1), station)
  | .value => ((station.read "value").map (.bytes ·.2), station)
  | .entry => ((station.read "entry").map .entry, station)

theorem current_land (i : Nat) : (land i : Station entries).current = entries[i]? := by
  unfold land
  split
  · rename_i h
    exact (List.getElem?_eq_getElem h).symm
  · rename_i h
    exact (List.getElem?_eq_none (Nat.not_lt.mp h)).symm

theorem state_land (i : Nat) :
    (land i : Station entries).state = if entries[i]?.isSome then .positioned else .exhausted := by
  unfold land
  split
  · rename_i h
    rw [List.getElem?_eq_getElem h]
    rfl
  · rename_i h
    rw [List.getElem?_eq_none (Nat.not_lt.mp h)]
    rfl

/-- The place before an entry, counted from the end. -/
theorem getElem?_reverse_of_lt {l : List Entry} {i : Nat} (h : i < l.length) : l.reverse[l.length - 1 - i]? = l[i]? := by
  rw [List.getElem?_reverse (by omega)]
  congr 1
  omega

/-- The automaton on the entries of a map moves as a reader does that owns a copy of the map. -/
theorem destination_of_move {map : Contents} {station station' : Station map.entries} {m : Move}
    (h : station.move m = .ok station') :
    Copy.destination map station.current m = station'.current ∧
      station'.state = if station'.current.isSome then .positioned else .exhausted := by
  have hland : ∀ i, station' = land i → Copy.destination map station.current m = map.entries[i]? →
      Copy.destination map station.current m = station'.current ∧
        station'.state = if station'.current.isSome then .positioned else .exhausted := by
    rintro i rfl hdestination
    exact ⟨hdestination.trans (current_land i).symm, by rw [state_land, current_land]⟩
  have hlast : map.entries.reverse[0]? = map.entries[map.entries.length - 1]? := by
    rw [← List.head?_eq_getElem?, List.head?_reverse, List.getLast?_eq_getElem?]
  cases m with
  | first => cases station <;> cases h <;> exact hland 0 rfl (Copy.destination_first map)
  | last => cases station <;> cases h <;> exact hland _ rfl ((Copy.destination_last map).trans hlast)
  | seek target =>
    have hseek : ∀ current, Copy.destination map current (.seek target) =
        map.entries[map.entries.findIdx (target ≤ ·.1)]? := fun _ => List.find?_eq_getElem?_findIdx
    cases station <;> cases h <;> exact hland _ rfl (hseek _)
  | next =>
    cases station with
    | on i =>
      cases h
      refine hland _ rfl ?_
      have hcurrent : (on i : Station map.entries).current = map.entries[i.val]? :=
        (List.getElem?_eq_getElem i.isLt).symm
      rw [hcurrent]
      exact Copy.destination_next map i
    | _ => cases h
  | prev =>
    cases station with
    | on i =>
      obtain ⟨i, hi⟩ := i
      have hcurrent : (on ⟨i, hi⟩ : Station map.entries).current =
          map.entries.reverse[map.entries.length - 1 - i]? := by
        rw [getElem?_reverse_of_lt hi]
        exact (List.getElem?_eq_getElem hi).symm
      have hprev := Copy.destination_prev map (map.entries.length - 1 - i)
      rw [← hcurrent] at hprev
      cases i with
      | zero =>
        cases h
        rw [List.getElem?_eq_none (by rw [List.length_reverse]; omega)] at hprev
        exact ⟨hprev, rfl⟩
      | succ i =>
        cases h
        refine hland _ rfl (hprev.trans ?_)
        rw [← getElem?_reverse_of_lt (Nat.lt_of_succ_lt hi)]
        congr 1
        omega
    | _ => cases h

end Station

/-! ## One cursor -/

namespace Store.Cursor

variable {σ : Type} {s : OnConnection σ} {c : Store.Cursor} {raw : Timeline.Cursor} {entries : List Entry}
  {station : Station entries}

/-- The cursor is live, it sees the entries, and it stands where the automaton stands. -/
structure Fits (c : Store.Cursor) (s : OnConnection σ) (raw : Timeline.Cursor) {entries : List Entry}
    (station : Station entries) : Prop where
  cursor : s.cursor? c.token = some raw
  live : station ≠ .closed
  entries : (s.engine.timeline.versions.view raw.seq).entries = entries
  position : c.position = station.state
  current : raw.current = station.current

theorem state_of_fits (h : c.Fits s raw station) : c.state s = station.state := by
  rw [state, h.cursor, Option.isSome_some, if_pos rfl, h.position]

theorem requirePositioned_of_fits (h : c.Fits s raw station) (call : String) :
    c.requirePositioned s call = (station.read call).map fun _ => () := by
  rw [requirePositioned, state_of_fits h]
  cases station <;> rfl

variable [LogStorage σ]

/-- A cursor that fits its automaton is moved when the automaton moves, and then fits it again; otherwise it refuses
to move with the same error. -/
theorem move_of_fits (h : c.Fits s raw station) (m : Move) :
    (∃ station' : Station entries, station.move m = .ok station' ∧
      c.move m s = (.ok (), { c with position := station'.state },
        s.hold c.token (.cursor (raw.move m s.engine.timeline))) ∧
      station' ≠ .closed ∧ (raw.move m s.engine.timeline).current = station'.current) ∨
    ∃ e, station.move m = .error e ∧ c.move m s = (.error e, c, s) := by
  have hguard : (m.step?.elim (.ok ()) (c.requirePositioned s) : Except StoreError Unit) =
      (station.move m).map fun _ => () := by
    have hlive := h.live
    cases m with
    | first | last | seek =>
      cases station with
      | closed => exact absurd rfl hlive
      | _ => rfl
    | next =>
      rw [Move.step?, Option.elim_some, requirePositioned_of_fits h]
      cases station <;> rfl
    | prev =>
      rw [Move.step?, Option.elim_some, requirePositioned_of_fits h]
      rcases station with _ | ⟨_ | _, _⟩ | _ | _ <;> rfl
  rw [Cursor.move, hguard]
  cases hmove : station.move m with
  | error e => exact .inr ⟨e, rfl, rfl⟩
  | ok station' =>
    have hcurrent := h.current
    have hentries := h.entries
    subst hentries
    obtain ⟨hdestination, hstate⟩ := Station.destination_of_move hmove
    rw [← hcurrent, Copy.destination_view] at hdestination
    have hstep : c.step m s = (.ok (), { c with position := station'.state },
        s.hold c.token (.cursor (raw.move m s.engine.timeline))) := by
      rw [Cursor.step, h.cursor, hstate, ← hdestination]
      rfl
    have hopen : station' ≠ .closed := by
      rintro rfl
      cases hstate
    exact .inl ⟨station', rfl, hstep, hopen, hdestination⟩

omit [LogStorage σ] in
/-- A cursor that fits its automaton reads what the automaton reads. -/
theorem read_of_fits (h : c.Fits s raw station) {α : Type} (call : String)
    {f : Timeline.Cursor → Connection σ → Option α} {g : Entry → α}
    (hf : ∀ e, raw.current = some e → f raw s.engine = some (g e)) :
    c.read s call f = (station.read call).map g := by
  rw [Cursor.read, requirePositioned_of_fits h, h.cursor]
  cases station with
  | on i =>
    have hread := hf _ h.current
    simp only [hread]
    rfl
  | _ => rfl

end Store.Cursor

end OrderedStore
