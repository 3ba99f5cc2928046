import OrderedStore.Proofs.Batches
import OrderedStore.Proofs.Shadows
import OrderedStore.Store.Scan

/-!
# Scans list windows

A scan opens a cursor, places it, and walks. On an open store it never fails, and it lists the entries of its window
as a map that is asked for them would; behind it the store is as it was, but for the versions that its cursor had kept.

* `Window.select`: the entries of a map that a window asks for;
* `Station.rest`: the entries that a walk meets from a station on;
* `Store.Cursor.Stands`: a cursor of an open store stands at a station;
* `Stands.place`, `Stands.walk`: the two parts of a scan, as moves from station to station;
* `Store.scan_eq_take`, `Store.scan_eq`: a whole scan.
-/

namespace OrderedStore

/-! ## Keys up to a start, and from it on -/

namespace KeyMap

variable {β : Type}

/-- How many keys are below a start. -/
def rank (m : KeyMap β) (start : Bytes) : Nat := m.entries.findIdx (start ≤ ·.1)

theorem lt_of_mem_take_rank {m : KeyMap β} {start : Bytes} {e : Bytes × β} (h : e ∈ m.entries.take (m.rank start)) :
    e.1 < start := by
  obtain ⟨i, hi, rfl⟩ := List.mem_take_iff_getElem.mp h
  have hbelow := List.not_of_lt_findIdx (Nat.lt_of_lt_of_le hi (Nat.min_le_left ..))
  exact List.not_le.mp (of_decide_eq_false hbelow)

theorem le_of_rank_lt {m : KeyMap β} {start : Bytes} (h : m.rank start < m.entries.length) :
    start ≤ m.entries[m.rank start].1 := of_decide_eq_true (List.findIdx_getElem (w := h))

/-- The keys behind the first one that is not below the start are above it. -/
theorem lt_of_mem_drop_rank {m : KeyMap β} {start : Bytes} {e : Bytes × β}
    (h : e ∈ m.entries.drop (m.rank start + 1)) : start < e.1 := by
  obtain ⟨i, hi, rfl⟩ := List.mem_drop_iff_getElem.mp h
  have hrank : m.rank start < m.entries.length := by omega
  have hlt := List.pairwise_iff_getElem.mp m.sorted (m.rank start) (m.rank start + 1 + i) hrank (by omega) (by omega)
  exact List.lt_of_le_of_lt (le_of_rank_lt hrank) hlt

theorem le_of_mem_drop_rank {m : KeyMap β} {start : Bytes} {e : Bytes × β} (h : e ∈ m.entries.drop (m.rank start)) :
    start ≤ e.1 := by
  obtain hrank | hrank := Nat.lt_or_ge (m.rank start) m.entries.length
  · rw [List.drop_eq_getElem_cons hrank] at h
    obtain rfl | h := List.mem_cons.mp h
    · exact le_of_rank_lt hrank
    · exact List.le_of_lt (lt_of_mem_drop_rank h)
  · rw [List.drop_eq_nil_iff.mpr hrank] at h
    cases h

/-- What holds of a front and of nothing behind it is filtered by taking the front. -/
theorem filter_eq_take {α : Type} {l : List α} {p : α → Bool} {i : Nat} (hfront : ∀ a ∈ l.take i, p a = true)
    (hback : ∀ a ∈ l.drop i, ¬ p a = true) : l.filter p = l.take i := by
  conv_lhs => rw [← List.take_append_drop i l]
  rw [List.filter_append, List.filter_eq_self.mpr hfront, List.filter_eq_nil_iff.mpr hback, List.append_nil]

theorem filter_ge (m : KeyMap β) (start : Bytes) :
    m.entries.filter (start ≤ ·.1) = m.entries.drop (m.rank start) := by
  conv_lhs => rw [← List.take_append_drop (m.rank start) m.entries]
  rw [List.filter_append, List.filter_eq_nil_iff.mpr, List.filter_eq_self.mpr, List.nil_append]
  · exact fun e he => decide_eq_true (le_of_mem_drop_rank he)
  · exact fun e he hle => List.not_le.mpr (lt_of_mem_take_rank he) (of_decide_eq_true hle)

/-- If the start is a key, it is the last one up to it. -/
theorem filter_le_of_eq (m : KeyMap β) {start : Bytes} (h : m.rank start < m.entries.length)
    (hkey : m.entries[m.rank start].1 = start) :
    m.entries.filter (·.1 ≤ start) = m.entries.take (m.rank start + 1) := by
  refine filter_eq_take (fun e he => decide_eq_true ?_) fun e he hle =>
    List.not_le.mpr (lt_of_mem_drop_rank he) (of_decide_eq_true hle)
  rw [List.take_succ_eq_append_getElem h] at he
  obtain he | he := List.mem_append.mp he
  · exact List.le_of_lt (lt_of_mem_take_rank he)
  · rw [List.mem_singleton.mp he, hkey]
    exact List.le_refl _

/-- If it is not, the last one up to it is below it. -/
theorem filter_le_of_ne (m : KeyMap β) {start : Bytes}
    (hkey : ∀ h : m.rank start < m.entries.length, m.entries[m.rank start].1 ≠ start) :
    m.entries.filter (·.1 ≤ start) = m.entries.take (m.rank start) := by
  refine filter_eq_take (fun e he => decide_eq_true (List.le_of_lt (lt_of_mem_take_rank he))) fun e he hle => ?_
  obtain hrank | hrank := Nat.lt_or_ge (m.rank start) m.entries.length
  · rw [List.drop_eq_getElem_cons hrank] at he
    obtain rfl | he := List.mem_cons.mp he
    · exact hkey hrank (List.le_antisymm (of_decide_eq_true hle) (le_of_rank_lt hrank))
    · exact List.not_le.mpr (lt_of_mem_drop_rank he) (of_decide_eq_true hle)
  · rw [List.drop_eq_nil_iff.mpr hrank] at he
    cases he

end KeyMap

/-! ## Windows of a map -/

namespace Window

/-- The entries of a map from the start of a window on, in its direction. -/
def span (w : Window) (m : Contents) : List Entry :=
  match w.start, w.reverse with
  | none, false => m.entries
  | none, true => m.entries.reverse
  | some start, false => m.entries.filter (start ≤ ·.1)
  | some start, true => (m.entries.filter (·.1 ≤ start)).reverse

/-- The entries of a map that a window asks for. -/
def select (w : Window) (m : Contents) : List Entry :=
  match w.limit with
  | none => w.span m
  | some n => (w.span m).take n

theorem length_span_le (w : Window) (m : Contents) : (w.span m).length ≤ m.size := by
  unfold span
  split
  · exact Nat.le_refl _
  · exact Nat.le_of_eq (List.length_reverse ..)
  · exact List.length_filter_le ..
  · rw [List.length_reverse]
    exact List.length_filter_le ..

/-- The length of a scan without a limit cuts nothing off. -/
theorem take_bound (w : Window) {m : Contents} (hsize : m.size ≤ unlimited) :
    (w.span m).take w.bound = w.select m := by
  unfold select bound
  cases w.limit with
  | none => exact List.take_of_length_le (Nat.le_trans (w.length_span_le m) hsize)
  | some n => rfl

end Window

/-! ## Walks from station to station -/

namespace Station

variable {entries : List Entry}

/-- The entries from where the cursor stands, in one direction. -/
def rest (reverse : Bool) : Station entries → List Entry
  | on i => if reverse then (entries.take (i + 1)).reverse else entries.drop i
  | _ => []

theorem rest_land_false (i : Nat) : (land i : Station entries).rest false = entries.drop i := by
  unfold land
  split
  · rfl
  · rename_i h
    exact (List.drop_eq_nil_iff.mpr (Nat.not_lt.mp h)).symm

theorem rest_land_true {i : Nat} (h : i < entries.length) :
    (land i : Station entries).rest true = (entries.take (i + 1)).reverse := by
  rw [land, dif_pos h]
  rfl

theorem rest_land_last : (land (entries.length - 1) : Station entries).rest true = entries.reverse := by
  cases entries with
  | nil => rfl
  | cons e entries =>
    have hlast : (e :: entries).length - 1 < (e :: entries).length := Nat.sub_one_lt (Nat.succ_ne_zero _)
    rw [rest_land_true hlast]
    exact congrArg List.reverse (List.take_of_length_le (Nat.le_of_eq rfl))

/-- A step onwards leaves the entry behind. -/
theorem rest_on (reverse : Bool) (i : Fin entries.length) : ∃ next : Station entries,
    (on i).move (Window.step reverse) = .ok next ∧ (on i).rest reverse = entries.get i :: next.rest reverse := by
  obtain ⟨i, hi⟩ := i
  cases reverse with
  | false =>
    refine ⟨land (i + 1), rfl, ?_⟩
    rw [rest_land_false]
    exact List.drop_eq_getElem_cons hi
  | true =>
    have htake : (on ⟨i, hi⟩ : Station entries).rest true = entries[i] :: (entries.take i).reverse := by
      show (entries.take (i + 1)).reverse = _
      rw [List.take_succ_eq_append_getElem hi, List.reverse_append]
      rfl
    cases i with
    | zero => exact ⟨exhausted, rfl, htake⟩
    | succ i => exact ⟨land i, rfl, (rest_land_true (Nat.lt_of_succ_lt hi)).symm ▸ htake⟩

/-- A walk goes on while there is something in front of it. -/
theorem positioned_iff (reverse : Bool) (station : Station entries) :
    station.state = .positioned ↔ 0 < (station.rest reverse).length := by
  cases station with
  | on i =>
    obtain ⟨next, -, hrest⟩ := rest_on reverse i
    rw [hrest]
    exact iff_of_true rfl (Nat.succ_pos _)
  | unset | exhausted | closed => exact iff_of_false nofun (Nat.lt_irrefl 0)

end Station

namespace Store

variable {σ : Type} [LogStorage σ]

namespace Cursor

variable {s : OnConnection σ} {c : Store.Cursor} {engine : Connection σ} {entries : List Entry}
  {station station' : Station entries}

/-- The cursor is live on an open store, whose connection is `engine`, and stands at a station. -/
structure Stands (c : Store.Cursor) (s : OnConnection σ) (engine : Connection σ) {entries : List Entry}
    (station : Station entries) : Prop where
  engine : s.engine = engine
  isOpen : s.isOpen = true
  fits : ∃ raw, c.Fits s raw station

theorem Stands.move (h : c.Stands s engine station) {m : Move} (hmove : station.move m = .ok station') :
    ∃ c' s', c.move m s = (.ok (), c', s') ∧ c'.Stands s' engine station' := by
  obtain ⟨raw, hfits⟩ := h.fits
  obtain ⟨next, hnext, heq, hlive, hcurrent⟩ | ⟨e, herror, -⟩ := move_of_fits hfits m
  · cases hmove.symm.trans hnext
    exact ⟨_, _, heq, h.engine, h.isOpen, _, hfits.hold rfl hlive hcurrent⟩
  · cases hmove.symm.trans herror

omit [LogStorage σ] in
theorem Stands.isValid (h : c.Stands s engine station) : c.isValid s = decide (station.state = .positioned) := by
  obtain ⟨raw, hfits⟩ := h.fits
  rw [Cursor.isValid, state_of_fits hfits]

theorem Stands.entry {i : Fin entries.length} (h : c.Stands s engine (.on i : Station entries)) :
    c.entry s = .ok (entries.get i) := by
  obtain ⟨raw, hfits⟩ := h.fits
  refine (read_of_fits hfits "entry" (g := fun e => e) ?_).trans rfl
  intro e he
  show (do
    let key ← raw.current.map Prod.fst
    let value ← raw.current.map Prod.snd
    return (key, value)) = some e
  rw [he]
  rfl

theorem Stands.key {i : Fin entries.length} (h : c.Stands s engine (.on i : Station entries)) :
    c.key s = .ok (entries.get i).1 := by
  obtain ⟨raw, hfits⟩ := h.fits
  refine (read_of_fits hfits "key" (g := Prod.fst) ?_).trans rfl
  intro e he
  show raw.current.map Prod.fst = some e.1
  rw [he]
  rfl

/-- A walk lists what is in front of its cursor, and leaves the rest of it. By induction on its length. -/
theorem Stands.walk (h : c.Stands s engine station) (reverse : Bool) (n : Nat) :
    ∃ c' s' station', c.walk reverse n s = (.ok ((station.rest reverse).take n), c', s') ∧
      c'.Stands s' engine (station' : Station entries) ∧ station'.rest reverse = (station.rest reverse).drop n := by
  induction n generalizing c s station with
  | zero => exact ⟨c, s, station, rfl, h, rfl⟩
  | succ n ih =>
    rw [Cursor.walk, h.isValid]
    cases station with
    | on i =>
      obtain ⟨next, hnext, hrest⟩ := Station.rest_on reverse i
      obtain ⟨c₁, s₁, hmove, hstands⟩ := h.move hnext
      obtain ⟨c', s', station', hwalk, hstands', hleft⟩ := ih hstands
      refine ⟨c', s', station', ?_, hstands', ?_⟩
      · simp only [Station.state, decide_true, Bool.not_true, Bool.false_eq_true, if_false, h.entry, hmove, hwalk,
          hrest, List.take_succ_cons]
        rfl
      · rw [hleft, hrest, List.drop_succ_cons]
    | unset | exhausted | closed => exact ⟨c, s, _, rfl, h, rfl⟩

/-- A cursor is brought to the largest key that is not above a target. -/
theorem Stands.seekBack {m : Contents} {station : Station m.entries} (h : c.Stands s engine station)
    (hlive : station ≠ .closed) (target : Bytes) :
    ∃ c' s' station', c.seekBack target s = (.ok (), c', s') ∧ c'.Stands s' engine (station' : Station m.entries) ∧
      station'.rest true = (m.entries.filter (·.1 ≤ target)).reverse := by
  have hseek : station.move (.seek target) = .ok (.land (m.rank target)) := by
    cases station with
    | closed => exact absurd rfl hlive
    | _ => rfl
  obtain ⟨c₁, s₁, hmove, hstands⟩ := h.move hseek
  simp only [Cursor.seekBack, hmove, hstands.isValid]
  by_cases hrank : m.rank target < m.entries.length
  · have hland : (Station.land (m.rank target) : Station m.entries) = .on ⟨m.rank target, hrank⟩ := dif_pos hrank
    rw [hland] at hstands ⊢
    simp only [Station.state, decide_true, Bool.not_true, Bool.false_eq_true, if_false, hstands.key]
    by_cases hkey : m.entries[m.rank target].1 = target
    · refine ⟨c₁, s₁, _, if_pos hkey, hstands, ?_⟩
      rw [m.filter_le_of_eq hrank hkey]
      rfl
    · obtain ⟨next, hnext, hrest⟩ := Station.rest_on true ⟨m.rank target, hrank⟩
      obtain ⟨c', s', hprev, hstands'⟩ := hstands.move hnext
      refine ⟨c', s', next, (if_neg hkey).trans hprev, hstands', ?_⟩
      rw [m.filter_le_of_ne fun _ => hkey]
      -- the entry that is stepped back from is the last one up to it
      have hfront : (m.entries.take (m.rank target + 1)).reverse = m.entries[m.rank target] :: next.rest true := hrest
      rw [List.take_succ_eq_append_getElem hrank, List.reverse_append] at hfront
      exact (List.cons.inj hfront).2.symm
  · have hland : (Station.land (m.rank target) : Station m.entries) = .exhausted := dif_neg hrank
    rw [hland] at hstands ⊢
    obtain ⟨c', s', hlast, hstands'⟩ := hstands.move (m := .last) rfl
    refine ⟨c', s', _, hlast, hstands', ?_⟩
    rw [Station.rest_land_last, m.filter_le_of_ne fun h => absurd h hrank, List.take_of_length_le (Nat.not_lt.mp hrank)]

/-- The cursor is brought to where a window starts: in front of it are the entries of the window. -/
theorem Stands.place {m : Contents} (h : c.Stands s engine (.unset : Station m.entries)) (w : Window) :
    ∃ c' s' station', c.place w s = (.ok (), c', s') ∧ c'.Stands s' engine (station' : Station m.entries) ∧
      station'.rest w.reverse = w.span m := by
  obtain ⟨start, reverse, limit⟩ := w
  cases start with
  | none =>
    cases reverse with
    | false =>
      obtain ⟨c', s', hmove, hstands⟩ := h.move (m := .first) rfl
      exact ⟨c', s', _, hmove, hstands, Station.rest_land_false 0⟩
    | true =>
      obtain ⟨c', s', hmove, hstands⟩ := h.move (m := .last) rfl
      exact ⟨c', s', _, hmove, hstands, Station.rest_land_last⟩
  | some start =>
    cases reverse with
    | false =>
      obtain ⟨c', s', hmove, hstands⟩ := h.move (m := .seek start) rfl
      exact ⟨c', s', _, hmove, hstands, (Station.rest_land_false _).trans (m.filter_ge start).symm⟩
    | true => exact h.seekBack (by simp) start

end Cursor

/-! ## Scans -/

variable {s : OnConnection σ}

/-- A new cursor of an open store stands nowhere yet, in the entries that are current. -/
theorem exists_cursor (hisOpen : s.isOpen = true) (hengine : s.engine.isOpen = true) :
    ∃ c s', s.cursor = (.ok c, s') ∧ Left s.engine s'.engine ∧
      c.Stands s' s'.engine (.unset : Station s.engine.timeline.contents.entries) := by
  have hrequest : s.request Engine.openCursor = (.ok (.start s.engine.sequence),
      { s with engine := { s.engine with timeline := s.engine.timeline.pin s.engine.sequence } }) := by
    obtain ⟨e, hrefused⟩ | ⟨-, hrequest⟩ :=
      s.request_cases (f := Engine.openCursor) (a := .start s.engine.sequence) rfl
    · simp only [Store.request, hisOpen, Engine.openCursor, Connection.openCursor, hengine] at hrefused
      cases hrefused
    · exact hrequest
  rw [Store.cursor, hrequest]
  exact ⟨_, _, rfl, ⟨rfl, rfl, rfl, rfl⟩, rfl, hisOpen, _, Cursor.fits_adoptCursor _ s.engine.sequence⟩

/-- A new cursor of an open store that is placed for a window: in front of it are the entries of the window. -/
theorem exists_placed (hisOpen : s.isOpen = true) (hengine : s.engine.isOpen = true) (w : Window) :
    ∃ c₀ s₀ c s₁ station, s.cursor = (.ok c₀, s₀) ∧ c₀.place w s₀ = (.ok (), c, s₁) ∧ Left s.engine s₀.engine ∧
      c.Stands s₁ s₀.engine (station : Station s.engine.timeline.contents.entries) ∧
      station.rest w.reverse = w.span s.engine.timeline.contents := by
  obtain ⟨c₀, s₀, hcursor, hleft, hstands₀⟩ := exists_cursor hisOpen hengine
  obtain ⟨c, s₁, station, hplace, hstands, hrest⟩ := hstands₀.place w
  exact ⟨c₀, s₀, c, s₁, station, hcursor, hplace, hleft, hstands, hrest⟩

/-- A scan of an open store lists what its window asks for, up to its bound, and the store stays as it was but for what
is kept for readers. -/
theorem scan_eq_take (hisOpen : s.isOpen = true) (hengine : s.engine.isOpen = true) (w : Window) :
    ∃ s', s.scan w = (.ok ((w.span s.engine.timeline.contents).take w.bound), s') ∧ s'.isOpen = true ∧
      Left s.engine s'.engine := by
  obtain ⟨c₀, s₀, c, s₁, station, hcursor, hplace, hleft, hstands, hrest⟩ := exists_placed hisOpen hengine w
  obtain ⟨c', s', station', hwalk, hstands', -⟩ := hstands.walk w.reverse w.bound
  refine ⟨c'.drop s', ?_, (isOpen_release s' c'.token).trans hstands'.isOpen, ?_⟩
  · simp only [scan, hcursor, hplace, hwalk, hrest]
  · exact left_release (hstands'.engine.symm ▸ hleft) c'.token

/-- No store reaches the bound of a scan without a limit. -/
theorem scan_eq (hisOpen : s.isOpen = true) (hengine : s.engine.isOpen = true)
    (hsize : s.engine.timeline.contents.size ≤ Window.unlimited) (w : Window) :
    ∃ s', s.scan w = (.ok (w.select s.engine.timeline.contents), s') ∧ s'.isOpen = true ∧ Left s.engine s'.engine :=
  w.take_bound hsize ▸ scan_eq_take hisOpen hengine w

end Store

end OrderedStore
