import OrderedStore.Proofs.Chain
import OrderedStore.Proofs.KeyMap
import OrderedStore.VersionMap

/-!
# What readers see of a version map

For every sequence, a version map shows a map of values, its view. All that a reader does is done in
its view, and a change of the version map changes a view at or above the floor as it would change a
plain map, or not at all.

* `get?_view`, `first?_eq`, `last?_eq`, `seek_eq`, `after_eq`, `before_eq`: reading is reading the view;
* `chains_insert`, `chains_sweepKey`: the chains after a write and after a sweep of one key;
* `get?_insert`, `view_apply_of_le`, `view_apply_of_lt`: a write at a sequence changes the views at or
  above it, and keeps the protected ones below;
* `view_sweep`: a sweep keeps the views at or above its floor;
* `Every`: a property of all versions, kept by writes and sweeps, and had by what is seen;
* `view_of_bounded`: from the largest sequence on, all views are the same.

None of this asks for any order of the sequences in a chain.
-/

namespace OrderedStore.VersionMap

/-! ## Views -/

theorem sorted_live (m : VersionMap) (s : Sequence) : (m.live s).Pairwise (fun a b => a.1 < b.1) := by
  have hkey : ∀ (e : Bytes × Chain) (x : Entry), seen s e = some x → x.1 = e.1 := fun e x h => by
    obtain ⟨_, _, rfl⟩ := Option.map_eq_some_iff.mp h
    rfl
  refine m.chains.sorted.filterMap (seen s) fun e e' hlt x hx x' hx' => ?_
  rw [hkey e x hx, hkey e' x' hx']
  exact hlt

/-- The map of values that a reader at `s` sees. -/
def view (m : VersionMap) (s : Sequence) : Contents := ⟨m.live s, m.sorted_live s⟩

theorem get?_view (m : VersionMap) (s : Sequence) (key : Bytes) : (m.view s).get? key = m.get? key s := by
  refine Option.ext fun value => ?_
  rw [KeyMap.get?_eq_some_iff, get?, Option.bind_eq_some_iff]
  simp only [view, live, List.mem_filterMap, seen, Option.map_eq_some_iff, Prod.exists, Prod.mk.injEq]
  constructor
  · rintro ⟨k, chain, hmem, v, hv, rfl, rfl⟩
    exact ⟨chain, KeyMap.get?_eq_some_iff.mpr hmem, hv⟩
  · rintro ⟨chain, hchain, hv⟩
    exact ⟨key, chain, KeyMap.get?_eq_some_iff.mp hchain, value, hv, rfl, rfl⟩

/-- Looking for a visible entry among those with a property is looking for this property among the visible
entries, if it is one of the key. -/
theorem findSome?_seen (s : Sequence) (p : Bytes → Bool) (l : List (Bytes × Chain)) :
    (l.filter (fun e => p e.1)).findSome? (seen s) = (l.filterMap (seen s)).find? (fun e => p e.1) := by
  induction l with
  | nil => rfl
  | cons e l ih =>
    cases hv : e.2.visible s with
    | none =>
      have hseen : seen s e = none := by rw [seen, hv, Option.map_none]
      rw [List.filterMap_cons_none hseen, ← ih, List.filter_cons]
      split
      · rw [List.findSome?_cons, hseen]
      · rfl
    | some value =>
      have hseen : seen s e = some (e.1, value) := by rw [seen, hv, Option.map_some]
      rw [List.filterMap_cons_some hseen, List.filter_cons, List.find?_cons]
      cases hp : p e.1 with
      | true => rw [if_pos rfl, List.findSome?_cons, hseen]
      | false =>
        rw [if_neg Bool.false_ne_true]
        exact ih

theorem first?_eq (m : VersionMap) (s : Sequence) : m.first? s = (m.view s).first? := by
  simp only [first?, KeyMap.first?, view, live, List.head?_filterMap]

theorem last?_eq (m : VersionMap) (s : Sequence) : m.last? s = (m.view s).last? := by
  simp only [last?, KeyMap.last?, view, live, List.getLast?_eq_head?_reverse, ← List.filterMap_reverse,
    List.head?_filterMap]

theorem seek_eq (m : VersionMap) (target : Bytes) (s : Sequence) : m.seek target s = (m.view s).seek target := by
  simp only [seek, KeyMap.seek, view, live, List.not_lt]
  exact findSome?_seen s (fun key => target ≤ key) _

theorem after_eq (m : VersionMap) (key : Bytes) (s : Sequence) : m.after key s = (m.view s).after key :=
  findSome?_seen s (fun k => key < k) _

theorem before_eq (m : VersionMap) (key : Bytes) (s : Sequence) : m.before key s = (m.view s).before key := by
  simp only [before, KeyMap.before, view, live, ← List.filter_reverse, ← List.filterMap_reverse]
  exact findSome?_seen s (fun k => k < key) _

/-! ## Writing -/

theorem chains_insert (m : VersionMap) (key : Bytes) (seq : Sequence) (value : Option Bytes) (floor : Sequence)
    (k : Bytes) :
    (m.insert key seq value floor).chains.get? k =
      if k = key then (((m.chains.get? key).getD []).write seq value).rest? floor else m.chains.get? k := by
  simp only [insert, Chain.rest?]
  split
  · rw [KeyMap.get?_erase]
  · split
    all_goals rw [KeyMap.get?_insert]

/-- What a reader at or above the floor finds after a write of one key. -/
theorem get?_insert {floor s : Sequence} (h : floor ≤ s) (m : VersionMap) (key : Bytes) (seq : Sequence)
    (value : Option Bytes) (k : Bytes) :
    (m.insert key seq value floor).get? k s =
      if k = key then (if seq ≤ s then value else m.get? key s) else m.get? k s := by
  rw [get?, chains_insert]
  split
  · rw [Chain.visible_rest? h, Chain.visible_write, get?]
    cases m.chains.get? key <;> rfl
  · rfl

theorem view_insert_of_le {floor s seq : Sequence} (h : floor ≤ s) (hs : seq ≤ s) (m : VersionMap)
    (op : Operation) : (m.insert op.key seq op.value? floor).view s = (m.view s).write op := by
  refine KeyMap.ext_get? fun k => ?_
  rw [get?_view, get?_insert h, if_pos hs, KeyMap.get?_write, get?_view]

theorem view_insert_of_lt {floor s seq : Sequence} (h : floor ≤ s) (hs : s < seq) (m : VersionMap) (key : Bytes)
    (value : Option Bytes) : (m.insert key seq value floor).view s = m.view s := by
  refine KeyMap.ext_get? fun k => ?_
  rw [get?_view, get?_insert h, if_neg (UInt64.not_le.mpr hs), get?_view]
  split
  · rename_i hk
    rw [hk]
  · rfl

/-- A batch changes the views at or above its sequence as it changes a map. -/
theorem view_apply_of_le {floor s seq : Sequence} (h : floor ≤ s) (hs : seq ≤ s) (m : VersionMap)
    (ops : List Operation) : (m.apply ops seq floor).view s = (m.view s).writeAll ops := by
  induction ops generalizing m with
  | nil => rfl
  | cons op ops ih =>
    have := ih (m.insert op.key seq op.value? floor)
    rwa [view_insert_of_le h hs] at this

/-- A batch keeps the views below its sequence that the floor protects. -/
theorem view_apply_of_lt {floor s seq : Sequence} (h : floor ≤ s) (hs : s < seq) (m : VersionMap)
    (ops : List Operation) : (m.apply ops seq floor).view s = m.view s := by
  induction ops generalizing m with
  | nil => rfl
  | cons op ops ih =>
    have := ih (m.insert op.key seq op.value? floor)
    rwa [view_insert_of_lt h hs] at this

/-! ## Sweeping -/

theorem chains_sweepKey (floor : Sequence) (m : VersionMap) (key k : Bytes) :
    (sweepKey floor m key).1.chains.get? k =
      if k = key then (m.chains.get? key).bind (Chain.rest? floor) else m.chains.get? k := by
  unfold sweepKey
  split
  · rename_i hnone
    split
    · rename_i hk
      rw [hk, hnone, Option.bind_none]
    · rfl
  · rename_i chain hchain
    simp only [hchain, Option.bind_some, Chain.rest?]
    split
    · rw [KeyMap.get?_erase]
    · rw [KeyMap.get?_insert]

theorem view_sweepKey {floor s : Sequence} (h : floor ≤ s) (m : VersionMap) (key : Bytes) :
    (sweepKey floor m key).1.view s = m.view s := by
  refine KeyMap.ext_get? fun k => ?_
  rw [get?_view, get?_view, get?, chains_sweepKey]
  split
  · rename_i hk
    rw [hk, Option.bind_assoc, get?]
    simp only [Chain.visible_rest? h]
  · rfl

/-- What pruning the chain of any one key keeps, a sweep keeps. -/
theorem sweep_keeps {P : VersionMap → Prop} {floor : Sequence} (hkey : ∀ m key, P m → P (sweepKey floor m key).1)
    {m : VersionMap} (h : P m) : P (m.sweep floor).1 := by
  rw [sweep]
  exact List.foldlRecOn (motive := fun acc : VersionMap × Nat => P acc.1) _ _ h
    fun acc hacc key _ => hkey acc.1 key hacc

/-- A sweep is seen by no reader at or above its floor. -/
theorem view_sweep {floor s : Sequence} (h : floor ≤ s) (m : VersionMap) : (m.sweep floor).1.view s = m.view s :=
  sweep_keeps (P := fun m' => m'.view s = m.view s) (fun m' key h' => (view_sweepKey h m' key).trans h') rfl

/-! ## Every version -/

/-- Every version has a property, together with its key. -/
def Every (P : Bytes → Version → Prop) (m : VersionMap) : Prop :=
  ∀ key chain, m.chains.get? key = some chain → ∀ v ∈ chain, P key v

section Every

variable {P : Bytes → Version → Prop} {m : VersionMap}

theorem every_empty (P : Bytes → Version → Prop) : empty.Every P := fun _ _ h => (nomatch h)

theorem Every.insert (h : m.Every P) {key : Bytes} {seq : Sequence} {value : Option Bytes} (hnew : P key ⟨seq, value⟩)
    (floor : Sequence) : (m.insert key seq value floor).Every P := by
  intro k chain hc v hv
  rw [chains_insert] at hc
  split at hc
  · rename_i hk
    subst hk
    rcases Chain.mem_write ((Chain.sublist_of_rest? hc).subset hv) with hold | rfl
    · cases hm : m.chains.get? k with
      | none =>
        rw [hm] at hold
        cases hold
      | some old =>
        rw [hm] at hold
        exact h k old hm v hold
    · exact hnew
  · exact h k chain hc v hv

theorem Every.apply (h : m.Every P) {ops : List Operation} {seq : Sequence}
    (hnew : ∀ op ∈ ops, P op.key ⟨seq, op.value?⟩) (floor : Sequence) : (m.apply ops seq floor).Every P := by
  induction ops generalizing m with
  | nil => exact h
  | cons op ops ih =>
    have hop := hnew op List.mem_cons_self
    exact ih (h.insert hop floor) fun op hmem => hnew op (List.mem_cons_of_mem _ hmem)

theorem Every.sweepKey (h : m.Every P) (floor : Sequence) (key : Bytes) : (sweepKey floor m key).1.Every P := by
  intro k chain hc v hv
  rw [chains_sweepKey] at hc
  split at hc
  · rename_i hk
    obtain ⟨old, hold, hrest⟩ := Option.bind_eq_some_iff.mp hc
    exact hk ▸ h key old hold v ((Chain.sublist_of_rest? hrest).subset hv)
  · exact h k chain hc v hv

theorem Every.sweep (h : m.Every P) (floor : Sequence) : (m.sweep floor).1.Every P :=
  sweep_keeps (P := fun m => m.Every P) (fun _ key h => h.sweepKey floor key) h

/-- What a reader sees are values of versions. -/
theorem Every.of_mem_live (h : m.Every P) {s : Sequence} {e : Entry} (he : e ∈ m.live s) :
    ∃ seq, P e.1 ⟨seq, some e.2⟩ := by
  obtain ⟨⟨key, chain⟩, hmem, hseen⟩ := List.mem_filterMap.mp he
  obtain ⟨value, hvisible, rfl⟩ := Option.map_eq_some_iff.mp hseen
  obtain ⟨v, hselect, hvalue⟩ := Option.bind_eq_some_iff.mp hvisible
  have hv : v ∈ chain := List.mem_reverse.mp (List.mem_of_find?_eq_some hselect)
  exact ⟨v.seq, hvalue ▸ h key chain (KeyMap.get?_eq_some_iff.mpr hmem) v hv⟩

end Every

/-! ## The largest sequence -/

/-- No version is above `s`. -/
def Bounded (m : VersionMap) (s : Sequence) : Prop :=
  ∀ key chain, m.chains.get? key = some chain → ∀ v ∈ chain, v.seq ≤ s

theorem bounded_empty (s : Sequence) : empty.Bounded s := every_empty fun _ v => v.seq ≤ s

theorem Bounded.mono {m : VersionMap} {s s' : Sequence} (h : m.Bounded s) (hs : s ≤ s') : m.Bounded s' :=
  fun key chain hc v hv => UInt64.le_trans (h key chain hc v hv) hs

theorem Bounded.insert {m : VersionMap} {s : Sequence} (h : m.Bounded s) {seq : Sequence} (hseq : seq ≤ s)
    (key : Bytes) (value : Option Bytes) (floor : Sequence) : (m.insert key seq value floor).Bounded s :=
  Every.insert (P := fun _ v => v.seq ≤ s) h hseq floor

theorem Bounded.apply {m : VersionMap} {s : Sequence} (h : m.Bounded s) {seq : Sequence} (hseq : seq ≤ s)
    (ops : List Operation) (floor : Sequence) : (m.apply ops seq floor).Bounded s :=
  Every.apply (P := fun _ v => v.seq ≤ s) h (fun _ _ => hseq) floor

theorem Bounded.sweepKey {m : VersionMap} {s : Sequence} (h : m.Bounded s) (floor : Sequence) (key : Bytes) :
    (sweepKey floor m key).1.Bounded s :=
  Every.sweepKey (P := fun _ v => v.seq ≤ s) h floor key

theorem Bounded.sweep {m : VersionMap} {s : Sequence} (h : m.Bounded s) (floor : Sequence) :
    (m.sweep floor).1.Bounded s :=
  Every.sweep (P := fun _ v => v.seq ≤ s) h floor

/-- The readers at or above every version see the same. -/
theorem view_of_bounded {m : VersionMap} {s s' : Sequence} (h : m.Bounded s) (hs : s ≤ s') : m.view s' = m.view s := by
  refine KeyMap.ext_get? fun key => ?_
  rw [get?_view, get?_view, get?, get?]
  cases hc : m.chains.get? key with
  | none => rfl
  | some chain => exact Chain.visible_of_forall_le (h key chain hc) hs

end OrderedStore.VersionMap
