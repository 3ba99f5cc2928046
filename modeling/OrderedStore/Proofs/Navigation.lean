import OrderedStore.Proofs.VersionMap

/-!
# Walks over the visible entries

What a reader at a sequence sees is a list of entries in ascending order of keys. Between two of them there may be any
number of keys that it does not see, because they are bound later or have been erased. All lookups are lookups in the
list, so that walks lead through the whole of it, in both directions.

* `Visits`: going on from one element to the next until there is none; `Visits.of_getElem?`: from place to place of a
  list;
* `KeyMap.after_eq_some_iff_of_mem`, `KeyMap.before_eq_some_iff_of_mem`: the neighbours of an entry are those with
  nothing between;
* `KeyMap.visits_after`, `KeyMap.visits_before`: walks over an ordered map;
* `VersionMap.navigation_agrees_live`: the same for a version map and any sequence.
-/

namespace OrderedStore

/-! ## Walks -/

/-- Going `onwards` from `start` on, until there is nothing, meets the elements of a list one after the other. -/
inductive Visits {α : Type} (onwards : α → Option α) : (start : Option α) → (met : List α) → Prop where
  | done : Visits onwards none []
  | step {a : α} {rest : List α} : Visits onwards (onwards a) rest → Visits onwards (some a) (a :: rest)

namespace Visits

variable {α : Type} {onwards : α → Option α} {start : Option α} {l l' : List α}

/-- A walk meets one list only. -/
theorem unique (h : Visits onwards start l) (h' : Visits onwards start l') : l' = l := by
  induction h generalizing l' with
  | done =>
    cases h' with
    | done => rfl
  | step _ ih =>
    cases h' with
    | step hrest => rw [ih hrest]

theorem iff_eq (h : Visits onwards start l) : Visits onwards start l' ↔ l' = l :=
  ⟨fun h' => h.unique h', fun heq => heq ▸ h⟩

/-- A walk whose steps lead from each place of a list to the next one meets the list. By induction on the list. -/
theorem of_getElem? (h : ∀ i a, l[i]? = some a → onwards a = l[i + 1]?) : Visits onwards l.head? l := by
  induction l with
  | nil => exact .done
  | cons a l ih =>
    have hnext : onwards a = l.head? := (h 0 a rfl).trans (List.head?_eq_getElem? ..).symm
    refine .step ?_
    rw [hnext]
    exact ih fun i b hb => h (i + 1) b hb

end Visits

namespace KeyMap

variable {β : Type} {m : KeyMap β} {a b : Bytes × β}

/-! ## Neighbours -/

theorem not_lt_iff_of_mem (ha : a ∈ m.entries) (hb : b ∈ m.entries) : ¬ b.1 < a.1 ↔ b = a ∨ a.1 < b.1 := by
  constructor
  · intro hge
    by_cases hkey : b.1 = a.1
    · exact .inl (eq_of_mem_of_key_eq m.sorted hb ha hkey)
    · exact .inr (Bytes.lt_of_not_lt_of_ne hge (Ne.symm hkey))
  · rintro (rfl | hlt)
    · exact List.lt_irrefl _
    · exact List.lt_asymm hlt

/-- The next entry is the one above with nothing between. -/
theorem after_eq_some_iff_of_mem (hb : b ∈ m.entries) {key : Bytes} :
    m.after key = some b ↔ key < b.1 ∧ ∀ e ∈ m.entries, key < e.1 → ¬ e.1 < b.1 := by
  rw [after_eq_some_iff]
  refine (and_iff_right hb).trans (and_congr_right fun _ => ?_)
  exact forall₂_congr fun e he => imp_congr_right fun _ => (not_lt_iff_of_mem hb he).symm

theorem before_eq_some_iff_of_mem (ha : a ∈ m.entries) {key : Bytes} :
    m.before key = some a ↔ a.1 < key ∧ ∀ e ∈ m.entries, e.1 < key → ¬ a.1 < e.1 := by
  rw [before_eq_some_iff]
  refine (and_iff_right ha).trans (and_congr_right fun _ => ?_)
  refine forall₂_congr fun e he => imp_congr_right fun _ => ?_
  rw [not_lt_iff_of_mem he ha, eq_comm]

/-- A step and the step back undo each other. -/
theorem after_eq_some_iff_before (ha : a ∈ m.entries) (hb : b ∈ m.entries) :
    m.after a.1 = some b ↔ m.before b.1 = some a := by
  rw [after_eq_some_iff_of_mem hb, before_eq_some_iff_of_mem ha]
  exact and_congr_right fun _ => forall₂_congr fun e _ => imp_not_comm

/-! ## No neighbours -/

theorem seek_eq_none_iff {target : Bytes} : m.seek target = none ↔ ∀ e ∈ m.entries, ¬ target ≤ e.1 := by
  simp only [seek, List.find?_eq_none, decide_eq_true_eq]

theorem after_eq_none_iff {key : Bytes} : m.after key = none ↔ ∀ e ∈ m.entries, ¬ key < e.1 := by
  simp only [after, List.find?_eq_none, decide_eq_true_eq]

theorem before_eq_none_iff {key : Bytes} : m.before key = none ↔ ∀ e ∈ m.entries, ¬ e.1 < key := by
  simp only [before, List.find?_eq_none, List.mem_reverse, decide_eq_true_eq]

/-! ## Walks over a map -/

theorem visits_after (m : KeyMap β) : Visits (fun e => m.after e.1) m.first? m.entries :=
  .of_getElem? fun _ _ => after_getElem?

theorem visits_before (m : KeyMap β) : Visits (fun e => m.before e.1) m.last? m.entries.reverse := by
  rw [last?, ← List.head?_reverse]
  exact .of_getElem? fun _ _ => before_getElem?

end KeyMap

namespace VersionMap

/-- For any version map and any sequence, whatever its chains are, let `E` be the entries that a reader at the sequence
sees.

* `E` is in strictly ascending order of keys, and holds what the lookups give.
* The first and the last entry are the ends of `E`, and there is none only if `E` is empty.
* Seeking a key leads to the first entry of `E` that is not below it, going on from it to the first one above it, and
  going back from it to the last one below it, each to none only if there is no such entry.
* Starting at the first entry and going on meets `E` and nothing else, starting at the last one and going back meets
  its reverse.
* From a key that is bound, going on and then back, or back and then on, leads to the key again. -/
theorem navigation_agrees_live (m : VersionMap) (s : Sequence) :
    let E := m.live s
    E.Pairwise (fun a b => a.1 < b.1) ∧ (∀ key value, (key, value) ∈ E ↔ m.get? key s = some value) ∧
    (m.first? s = E.head? ∧ (m.first? s = none ↔ E = []) ∧ m.last? s = E.getLast? ∧ (m.last? s = none ↔ E = [])) ∧
    (∀ key,
      (m.seek key s = E.find? (key ≤ ·.1) ∧ (m.seek key s = none ↔ ∀ e ∈ E, ¬ key ≤ e.1)) ∧
      (m.after key s = E.find? (key < ·.1) ∧ (m.after key s = none ↔ ∀ e ∈ E, ¬ key < e.1)) ∧
      m.before key s = E.findRev? (·.1 < key) ∧ (m.before key s = none ↔ ∀ e ∈ E, ¬ e.1 < key)) ∧
    (∀ met, Visits (fun e => m.after e.1 s) (m.first? s) met ↔ met = E) ∧
    (∀ met, Visits (fun e => m.before e.1 s) (m.last? s) met ↔ met = E.reverse) ∧
    ∀ key value, m.get? key s = some value →
      (∀ e, m.after key s = some e → m.before e.1 s = some (key, value)) ∧
        ∀ e, m.before key s = some e → m.after e.1 s = some (key, value) := by
  intro E
  have hmem : ∀ key value, (key, value) ∈ (m.view s).entries ↔ m.get? key s = some value := fun key value => by
    rw [← KeyMap.get?_eq_some_iff, get?_view]
  simp only [first?_eq, last?_eq, seek_eq, after_eq, before_eq]
  refine ⟨m.sorted_live s, hmem, ⟨rfl, List.head?_eq_none_iff, rfl, List.getLast?_eq_none_iff⟩, fun key => ?_,
    fun met => (m.view s).visits_after.iff_eq, fun met => (m.view s).visits_before.iff_eq, fun key value hkey => ?_⟩
  · exact ⟨⟨rfl, KeyMap.seek_eq_none_iff⟩, ⟨rfl, KeyMap.after_eq_none_iff⟩, List.findRev?_eq_find?_reverse.symm,
      KeyMap.before_eq_none_iff⟩
  · have hbound := (hmem key value).mpr hkey
    constructor
    · intro e hafter
      have he := (KeyMap.after_eq_some_iff.mp hafter).1
      exact (KeyMap.after_eq_some_iff_before hbound he).mp hafter
    · intro e hbefore
      have he := (KeyMap.before_eq_some_iff.mp hbefore).1
      exact (KeyMap.after_eq_some_iff_before he hbound).mpr hbefore

/-- For a reader at 4: one key between the two that it sees is bound later, another one has been erased, and the last of
the two is bound again later. -/
theorem navigation_agrees_live_hidden :
    let m : VersionMap := (((empty.apply [.put [97] [1], .put [99] [3], .put [100] [4]] 2 0).insert [98] 6 (some [2]) 0).insert
      [99] 3 none 0).insert [100] 5 (some [5]) 0
    m.versionCount = 6 ∧ m.live 4 = [([97], [1]), ([100], [4])] ∧ m.get? [97] 4 = some [1] ∧
      m.after [97] 4 = some ([100], [4]) ∧ m.before [100] 4 = some ([97], [1]) ∧
      m.seek [98] 4 = some ([100], [4]) ∧
      Visits (fun e => m.after e.1 4) (m.first? 4) [([97], [1]), ([100], [4])] ∧
      Visits (fun e => m.before e.1 4) (m.last? 4) [([100], [4]), ([97], [1])] := by
  intro m
  have hlive : m.live 4 = [([97], [1]), ([100], [4])] := by decide
  have hget : m.get? [97] 4 = some [1] := by decide
  have hafter : m.after [97] 4 = some ([100], [4]) := by decide
  obtain ⟨-, -, -, hlookup, hforward, hbackward, hundo⟩ := navigation_agrees_live m 4
  refine ⟨by decide, hlive, hget, hafter, (hundo [97] [1] hget).1 _ hafter, ?_, ?_, ?_⟩
  · rw [(hlookup [98]).1.1, hlive]
    decide
  · exact (hforward _).mpr hlive.symm
  · rw [hbackward, hlive]
    rfl

end VersionMap

end OrderedStore
