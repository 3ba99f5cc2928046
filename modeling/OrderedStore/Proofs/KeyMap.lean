import Mathlib.Data.List.Sort
import OrderedStore.KeyMap
import OrderedStore.Record

/-!
# What an ordered map holds

A map is determined by what its lookups give. Navigation in a map is by its entries in ascending
order of keys.

* `ext_get?`, `ext_contains`, `get?_insert`, `get?_erase`: lookups;
* `first?`, `last?`, `seek`, `after`, `before`: the entry at one place of a map, and the laws that say
  which one it is;
* `write`, `writeAll`: a map of values after the operations of a batch.
-/

namespace OrderedStore

/-- What a store holds: a value for each of its keys. -/
abbrev Contents := KeyMap Bytes

namespace KeyMap

variable {β : Type} {m : KeyMap β}

/-! ## Lookups -/

theorem eq_of_mem_of_key_eq {l : List (Bytes × β)} (h : l.Pairwise (fun a b => a.1 < b.1)) {a b : Bytes × β}
    (ha : a ∈ l) (hb : b ∈ l) (hkey : a.1 = b.1) : a = b := by
  induction l with
  | nil => cases ha
  | cons e l ih =>
    obtain ⟨he, hl⟩ := List.pairwise_cons.mp h
    rcases List.mem_cons.mp ha with rfl | ha'
    · rcases List.mem_cons.mp hb with rfl | hb'
      · rfl
      · exact absurd (hkey ▸ he b hb') (List.lt_irrefl _)
    · rcases List.mem_cons.mp hb with rfl | hb'
      · exact absurd (hkey ▸ he a ha') (List.lt_irrefl _)
      · exact ih hl ha' hb'

theorem get?_eq_some_iff {key : Bytes} {value : β} : m.get? key = some value ↔ (key, value) ∈ m.entries := by
  simp only [get?, Option.map_eq_some_iff]
  constructor
  · rintro ⟨⟨k, v⟩, hfind, rfl⟩
    have hk : k = key := by simpa using List.find?_some hfind
    exact hk ▸ List.mem_of_find?_eq_some hfind
  · intro h
    have hsome : (m.entries.find? (·.1 = key)).isSome := List.find?_isSome.mpr ⟨_, h, by simp⟩
    obtain ⟨e, he⟩ := Option.isSome_iff_exists.mp hsome
    have hkey : e.1 = key := by simpa using List.find?_some he
    exact ⟨e, he, by rw [eq_of_mem_of_key_eq m.sorted (List.mem_of_find?_eq_some he) h hkey]⟩

/-- Two maps with the same lookups are equal. -/
theorem ext_get? {m m' : KeyMap β} (h : ∀ key, m.get? key = m'.get? key) : m = m' := by
  have hmem : ∀ e, e ∈ m.entries ↔ e ∈ m'.entries := fun e => by
    rw [← get?_eq_some_iff, ← get?_eq_some_iff, h]
  have : Std.Irrefl (fun a b : Bytes × β => a.1 < b.1) := ⟨fun a => List.lt_irrefl a.1⟩
  have : Std.Antisymm (fun a b : Bytes × β => a.1 < b.1) :=
    ⟨fun a b hab hba => absurd (List.lt_trans hab hba) (List.lt_irrefl a.1)⟩
  exact KeyMap.ext (m.sorted.eq_of_mem_iff m'.sorted hmem)

/-- Two sets with the same members are equal. -/
theorem ext_contains {s s' : KeySet} (h : ∀ key, s.contains key = s'.contains key) : s = s' := by
  refine ext_get? fun key => ?_
  have hkey : (s.get? key).isSome = (s'.get? key).isSome := h key
  cases hs : s.get? key with
  | none =>
    have hnone : (s'.get? key).isSome = false := hkey.symm.trans (congrArg _ hs)
    exact (Option.not_isSome_iff_eq_none.mp (Bool.eq_false_iff.mp hnone)).symm
  | some member =>
    obtain ⟨member', hs'⟩ := Option.isSome_iff_exists.mp (hkey.symm.trans (congrArg _ hs))
    exact hs'.symm

@[simp] theorem get?_empty (key : Bytes) : (empty : KeyMap β).get? key = none := rfl

theorem find?_insertEntry (key k : Bytes) (value : β) (l : List (Bytes × β)) :
    (insertEntry key value l).find? (·.1 = k) = if k = key then some (key, value) else l.find? (·.1 = k) := by
  induction l with
  | nil =>
    simp only [insertEntry, List.find?_cons, List.find?_nil, eq_comm (a := k)]
    split <;> simp_all
  | cons e l ih =>
    obtain ⟨k', v⟩ := e
    simp only [insertEntry]
    by_cases hk : k = key
    · subst hk
      split
      · simp only [List.find?_cons, decide_true, if_true]
      · split
        · simp only [List.find?_cons, decide_true, if_true]
        · rename_i hne
          simp only [List.find?_cons, Ne.symm hne, decide_false, ih, if_true]
    · have hkey : ¬ key = k := fun h => hk h.symm
      split
      · simp only [List.find?_cons, hkey, decide_false]
      · split
        · rename_i heq
          simp only [List.find?_cons, hkey, ← heq, decide_false]
        · simp only [List.find?_cons, ih, if_neg hk]

theorem get?_insert (m : KeyMap β) (key k : Bytes) (value : β) :
    (m.insert key value).get? k = if k = key then some value else m.get? k := by
  simp only [get?, insert, find?_insertEntry]
  split <;> rfl

theorem get?_erase (m : KeyMap β) (key k : Bytes) :
    (m.erase key).get? k = if k = key then none else m.get? k := by
  simp only [get?, erase, List.find?_filter]
  by_cases hk : k = key
  · subst hk
    rw [if_pos rfl, Option.map_eq_none_iff, List.find?_eq_none]
    intro e _
    simp
  · rw [if_neg hk]
    congr 2
    funext e
    by_cases he : e.1 = k <;> simp_all

theorem contains_insert (m : KeyMap β) (key k : Bytes) (value : β) :
    (m.insert key value).contains k = if k = key then true else m.contains k := by
  rw [contains, get?_insert]
  split <;> rfl

theorem contains_erase (m : KeyMap β) (key k : Bytes) :
    (m.erase key).contains k = if k = key then false else m.contains k := by
  rw [contains, get?_erase]
  split <;> rfl

theorem size_insert_le (m : KeyMap β) (key : Bytes) (value : β) : (m.insert key value).size ≤ m.size + 1 := by
  show (insertEntry key value m.entries).length ≤ m.entries.length + 1
  induction m.entries with
  | nil => exact Nat.le_refl _
  | cons e rest ih =>
    rw [insertEntry]
    split
    · exact Nat.le_refl _
    · split
      · exact Nat.le_succ _
      · exact Nat.succ_le_succ ih

theorem size_erase_le (m : KeyMap β) (key : Bytes) : (m.erase key).size ≤ m.size := List.length_filter_le ..

theorem mem_keys_iff {key : Bytes} : key ∈ m.keys ↔ m.contains key = true := by
  rw [contains, Option.isSome_iff_exists, keys, List.mem_map]
  constructor
  · rintro ⟨e, he, rfl⟩
    exact ⟨e.2, get?_eq_some_iff.mpr he⟩
  · rintro ⟨value, hvalue⟩
    exact ⟨(key, value), get?_eq_some_iff.mp hvalue, rfl⟩

/-! ## Navigation -/

/-- The smallest entry. -/
def first? (m : KeyMap β) : Option (Bytes × β) := m.entries.head?

/-- The largest entry. -/
def last? (m : KeyMap β) : Option (Bytes × β) := m.entries.getLast?

/-- The smallest entry whose key is not below `target`. -/
def seek (m : KeyMap β) (target : Bytes) : Option (Bytes × β) := m.entries.find? (target ≤ ·.1)

/-- The smallest entry above `key`. -/
def after (m : KeyMap β) (key : Bytes) : Option (Bytes × β) := m.entries.find? (key < ·.1)

/-- The largest entry below `key`. -/
def before (m : KeyMap β) (key : Bytes) : Option (Bytes × β) := m.entries.reverse.find? (·.1 < key)

/-- In a list that is ordered by `r`, the first element with a property is the one that is in front of every
other with this property. -/
theorem find?_eq_some_iff_of_pairwise {α : Type} {r : α → α → Prop} (hasymm : ∀ a b, r a b → ¬ r b a) {l : List α}
    (h : l.Pairwise r) {p : α → Bool} {a : α} :
    l.find? p = some a ↔ a ∈ l ∧ p a = true ∧ ∀ b ∈ l, p b = true → b = a ∨ r a b := by
  induction l with
  | nil => simp only [List.find?_nil, reduceCtorEq, List.not_mem_nil, false_and]
  | cons c l ih =>
    obtain ⟨hc, hl⟩ := List.pairwise_cons.mp h
    rw [List.find?_cons]
    cases hp : p c with
    | true =>
      constructor
      · intro heq
        cases heq
        refine ⟨List.mem_cons_self, hp, fun b hb _ => ?_⟩
        exact (List.mem_cons.mp hb).imp_right (hc b)
      · rintro ⟨ha, -, hfront⟩
        rcases hfront c List.mem_cons_self hp with rfl | hr
        · rfl
        · rcases List.mem_cons.mp ha with rfl | ha
          · rfl
          · exact absurd hr (hasymm _ _ (hc a ha))
    | false =>
      refine (ih hl).trans ⟨fun ⟨ha, hpa, hfront⟩ => ⟨List.mem_cons_of_mem _ ha, hpa, fun b hb hpb => ?_⟩, ?_⟩
      · rcases List.mem_cons.mp hb with rfl | hb
        · rw [hp] at hpb
          cases hpb
        · exact hfront b hb hpb
      · rintro ⟨ha, hpa, hfront⟩
        rcases List.mem_cons.mp ha with rfl | ha
        · rw [hp] at hpa
          cases hpa
        · exact ⟨ha, hpa, fun b hb => hfront b (List.mem_cons_of_mem _ hb)⟩

theorem seek_eq_some_iff {target : Bytes} {e : Bytes × β} :
    m.seek target = some e ↔
      e ∈ m.entries ∧ target ≤ e.1 ∧ ∀ e' ∈ m.entries, target ≤ e'.1 → e' = e ∨ e.1 < e'.1 := by
  rw [seek, find?_eq_some_iff_of_pairwise (fun _ _ => List.lt_asymm) m.sorted]
  simp only [decide_eq_true_eq]

theorem after_eq_some_iff {key : Bytes} {e : Bytes × β} :
    m.after key = some e ↔
      e ∈ m.entries ∧ key < e.1 ∧ ∀ e' ∈ m.entries, key < e'.1 → e' = e ∨ e.1 < e'.1 := by
  rw [after, find?_eq_some_iff_of_pairwise (fun _ _ => List.lt_asymm) m.sorted]
  simp only [decide_eq_true_eq]

theorem before_eq_some_iff {key : Bytes} {e : Bytes × β} :
    m.before key = some e ↔
      e ∈ m.entries ∧ e.1 < key ∧ ∀ e' ∈ m.entries, e'.1 < key → e' = e ∨ e'.1 < e.1 := by
  rw [before, find?_eq_some_iff_of_pairwise (r := fun a b => b.1 < a.1) (fun _ _ => List.lt_asymm)
    (List.pairwise_reverse.mpr m.sorted)]
  simp only [decide_eq_true_eq, List.mem_reverse]

/-- In a list that is ordered by `r`, the first element behind `a` is the one next to it. -/
theorem find?_eq_getElem?_succ {α : Type} {r : α → α → Prop} (hasymm : ∀ a b, r a b → ¬ r b a) {l : List α}
    (h : l.Pairwise r) {p : α → Bool} {a : α} (hp : ∀ b, p b = true ↔ r a b) {i : Nat} (hi : l[i]? = some a) :
    l.find? p = l[i + 1]? := by
  induction l generalizing i with
  | nil => cases hi
  | cons c l ih =>
    obtain ⟨hc, hl⟩ := List.pairwise_cons.mp h
    cases i with
    | zero =>
      cases hi
      have hself : ¬ p a = true := fun hpa => hasymm _ _ ((hp a).mp hpa) ((hp a).mp hpa)
      rw [List.find?_cons_of_neg hself]
      cases l with
      | nil => rfl
      | cons d l => exact List.find?_cons_of_pos ((hp d).mpr (hc d List.mem_cons_self))
    | succ i =>
      have hca : r c a := hc a (List.mem_of_getElem? hi)
      rw [List.find?_cons_of_neg fun hpc => hasymm _ _ hca ((hp c).mp hpc)]
      exact ih hl hi

theorem after_getElem? {i : Nat} {e : Bytes × β} (h : m.entries[i]? = some e) : m.after e.1 = m.entries[i + 1]? :=
  find?_eq_getElem?_succ (fun _ _ => List.lt_asymm) m.sorted (fun _ => decide_eq_true_iff) h

theorem before_getElem? {i : Nat} {e : Bytes × β} (h : m.entries.reverse[i]? = some e) :
    m.before e.1 = m.entries.reverse[i + 1]? :=
  find?_eq_getElem?_succ (r := fun a b : Bytes × β => b.1 < a.1) (p := fun b => decide (b.1 < e.1))
    (fun _ _ => List.lt_asymm) (List.pairwise_reverse.mpr m.sorted) (fun _ => decide_eq_true_iff) h

/-! ## Maps of values -/

/-- The map after one operation. -/
def write (m : Contents) : Operation → Contents
  | .put key value => m.insert key value
  | .delete key => m.erase key

/-- The map after the operations of a list, in order. -/
def writeAll (m : Contents) (ops : List Operation) : Contents := ops.foldl write m

theorem get?_write (m : Contents) (op : Operation) (key : Bytes) :
    (m.write op).get? key = if key = op.key then op.value? else m.get? key := by
  cases op with
  | put k v => exact get?_insert m k key v
  | delete k => exact get?_erase m k key

theorem writeAll_append (m : Contents) (ops ops' : List Operation) :
    m.writeAll (ops ++ ops') = (m.writeAll ops).writeAll ops' := List.foldl_append

/-- A put for each entry of a list without repeated keys binds what is in the list. -/
theorem get?_writeAll_puts {l : List (Bytes × Bytes)} (h : l.Pairwise (fun a b => a.1 < b.1)) (m : Contents)
    (key : Bytes) :
    (m.writeAll (l.map fun e => .put e.1 e.2)).get? key = ((l.find? (·.1 = key)).map (·.2)).or (m.get? key) := by
  induction l generalizing m with
  | nil => rfl
  | cons e l ih =>
    obtain ⟨he, hl⟩ := List.pairwise_cons.mp h
    refine (ih hl (m.insert e.1 e.2)).trans ?_
    rw [get?_insert]
    by_cases hkey : e.1 = key
    · have hnone : l.find? (·.1 = key) = none := List.find?_eq_none.mpr fun e' he' heq =>
        absurd (hkey.trans (of_decide_eq_true heq).symm ▸ he e' he') (List.lt_irrefl _)
      rw [hnone, if_pos hkey.symm, List.find?_cons, decide_eq_true hkey]
      rfl
    · rw [if_neg (Ne.symm hkey), List.find?_cons, decide_eq_false hkey]

/-- A map is what putting its entries makes of an empty map. -/
theorem writeAll_entries (m : Contents) : KeyMap.empty.writeAll (m.entries.map fun e => .put e.1 e.2) = m := by
  refine ext_get? fun key => ?_
  rw [get?_writeAll_puts m.sorted, get?_empty, Option.or_none]
  rfl

end KeyMap

end OrderedStore
