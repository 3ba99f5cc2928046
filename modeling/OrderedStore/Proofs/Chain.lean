import OrderedStore.Chain

/-!
# What readers see of a chain

For any chain, whatever the order of its sequences:

* `select_write`: a write is seen by the readers at or above its sequence, and by no other;
* `select_prune`: pruning changes nothing for a reader at or above the floor;
* `visible_rest?`: such a reader sees in what pruning leaves what it saw before.
-/

namespace OrderedStore.Chain

theorem select_append_singleton (s : Sequence) (c : Chain) (v : Version) :
    select s (c ++ [v]) = if v.seq ≤ s then some v else select s c := by
  rw [select, List.reverse_append, List.reverse_singleton, List.singleton_append, List.find?_cons]
  by_cases h : v.seq ≤ s
  · rw [decide_eq_true h, if_pos h]
  · rw [decide_eq_false h, if_neg h]
    rfl

theorem write_append_singleton (seq : Sequence) (value : Option Bytes) (c : Chain) (v : Version) :
    write seq value (c ++ [v]) = if v.seq = seq then c ++ [⟨seq, value⟩] else c ++ [v, ⟨seq, value⟩] := by
  induction c with
  | nil => rfl
  | cons w c ih =>
    have hcons : write seq value (w :: (c ++ [v])) = w :: write seq value (c ++ [v]) := by
      cases c <;> rfl
    rw [List.cons_append, hcons, ih]
    split <;> rfl

/-- A write stands behind all versions of other sequences, or takes the place of a last one of its own. -/
theorem write_cases (seq : Sequence) (value : Option Bytes) (c : Chain) :
    ∃ older, write seq value c = older ++ [⟨seq, value⟩] ∧
      ((older = c ∧ ∀ v, c.getLast? = some v → v.seq ≠ seq) ∨ ∃ v, v.seq = seq ∧ c = older ++ [v]) := by
  rcases List.eq_nil_or_concat c with rfl | ⟨older, v, rfl⟩
  · exact ⟨[], rfl, .inl ⟨rfl, fun v hv => nomatch hv⟩⟩
  · rw [List.concat_eq_append, write_append_singleton]
    split
    · rename_i heq
      exact ⟨older, rfl, .inr ⟨v, heq, rfl⟩⟩
    · rename_i hne
      refine ⟨older ++ [v], by rw [List.append_assoc]; rfl, .inl ⟨rfl, fun w hw => ?_⟩⟩
      have hv : v = w := by simpa using hw
      exact hv ▸ hne

/-- A write is selected by the readers at or above its sequence. -/
theorem select_write (s seq : Sequence) (value : Option Bytes) (c : Chain) :
    select s (write seq value c) = if seq ≤ s then some ⟨seq, value⟩ else select s c := by
  rcases List.eq_nil_or_concat c with rfl | ⟨c, v, rfl⟩
  · exact select_append_singleton s [] ⟨seq, value⟩
  · rw [List.concat_eq_append, write_append_singleton, select_append_singleton]
    split
    · rename_i heq
      rw [select_append_singleton, heq]
      split <;> rfl
    · rw [show c ++ [v, ⟨seq, value⟩] = (c ++ [v]) ++ [⟨seq, value⟩] by simp, select_append_singleton,
        select_append_singleton]

/-- Pruning drops nothing that a reader at or above the floor selects. -/
theorem select_prune {floor s : Sequence} (h : floor ≤ s) (c : Chain) : select s (prune floor c) = select s c := by
  induction c with
  | nil => rfl
  | cons v c ih =>
    rw [prune]
    split
    · rename_i hany
      obtain ⟨w, hw, hle⟩ := List.any_eq_true.mp hany
      have hsome : (select s c).isSome := by
        rw [select, List.find?_isSome]
        exact ⟨w, List.mem_reverse.mpr hw, by simpa using UInt64.le_trans (by simpa using hle) h⟩
      obtain ⟨x, hx⟩ := Option.isSome_iff_exists.mp hsome
      have hcons : select s (v :: c) = (select s c).or (select s [v]) := by
        rw [select, List.reverse_cons, List.find?_append]
        rfl
      rw [ih, hcons, hx, Option.some_or]
    · rfl

theorem visible_write (s seq : Sequence) (value : Option Bytes) (c : Chain) :
    visible s (write seq value c) = if seq ≤ s then value else visible s c := by
  rw [visible, select_write]
  split <;> rfl

theorem visible_prune {floor s : Sequence} (h : floor ≤ s) (c : Chain) : visible s (prune floor c) = visible s c := by
  rw [visible, select_prune h, visible]

/-- A reader at or above the floor sees nothing of a chain that can go. -/
theorem visible_of_gone {floor s : Sequence} {c : Chain} (h : gone floor c = true) (hs : floor ≤ s) :
    visible s c = none := by
  unfold gone at h
  split at h
  · rename_i v
    simp only [Bool.and_eq_true, Option.isNone_iff_eq_none, decide_eq_true_eq] at h
    rw [visible, show [v] = [] ++ [v] from rfl, select_append_singleton, if_pos (UInt64.le_trans h.2 hs)]
    exact h.1
  · cases h

theorem prune_sublist (floor : Sequence) (c : Chain) : (prune floor c).Sublist c := by
  induction c with
  | nil => exact .slnil
  | cons v c ih =>
    rw [prune]
    split
    · exact ih.cons v
    · exact .refl _

theorem prune_append_singleton {floor : Sequence} (c : Chain) {v : Version} (h : v.seq ≤ floor) :
    prune floor (c ++ [v]) = [v] := by
  induction c with
  | nil => rfl
  | cons w c ih =>
    have hany : (c ++ [v]).any (·.seq ≤ floor) = true :=
      List.any_eq_true.mpr ⟨v, List.mem_append_right c List.mem_cons_self, decide_eq_true h⟩
    rw [List.cons_append, prune, if_pos hany]
    exact ih

/-- What is left of a chain after a write that nobody is below is this write. -/
theorem prune_write (seq : Sequence) (value : Option Bytes) (c : Chain) :
    prune seq (write seq value c) = [⟨seq, value⟩] := by
  obtain ⟨older, heq, -⟩ := write_cases seq value c
  rw [heq]
  exact prune_append_singleton older (UInt64.le_refl seq)

/-! ## What is kept -/

/-- What pruning leaves of a chain, if anything. -/
def rest? (floor : Sequence) (c : Chain) : Option Chain :=
  if (c.prune floor).gone floor then none else some (c.prune floor)

theorem rest?_eq_some_iff {floor : Sequence} {c c' : Chain} :
    c.rest? floor = some c' ↔ (c.prune floor).gone floor = false ∧ c' = c.prune floor := by
  rw [rest?]
  split
  · rename_i hgone
    simp only [hgone, reduceCtorEq, false_and]
  · rename_i hgone
    simp only [Bool.not_eq_true] at hgone
    simp only [Option.some.injEq, hgone, true_and, eq_comm]

theorem rest?_congr {floor : Sequence} {c c' : Chain} (h : c.prune floor = c'.prune floor) :
    c.rest? floor = c'.rest? floor := by
  rw [rest?, rest?, h]

/-- A reader at or above the floor sees in what is left what it saw before. -/
theorem visible_rest? {floor s : Sequence} (h : floor ≤ s) (c : Chain) :
    (c.rest? floor).bind (visible s) = c.visible s := by
  rw [rest?]
  split
  · rename_i hgone
    rw [Option.bind_none, ← visible_prune h, visible_of_gone hgone h]
  · rw [Option.bind_some, visible_prune h]

theorem sublist_of_rest? {floor : Sequence} {c c' : Chain} (h : c.rest? floor = some c') : c'.Sublist c := by
  rw [(rest?_eq_some_iff.mp h).2]
  exact prune_sublist floor c

theorem mem_write {seq : Sequence} {value : Option Bytes} {c : Chain} {v : Version} (h : v ∈ write seq value c) :
    v ∈ c ∨ v = ⟨seq, value⟩ := by
  obtain ⟨older, heq, holder⟩ := write_cases seq value c
  have hsub : older ⊆ c := by
    rcases holder with ⟨rfl, -⟩ | ⟨w, -, rfl⟩
    · exact fun _ hv => hv
    · exact fun _ hv => List.mem_append_left _ hv
  rw [heq] at h
  exact (List.mem_append.mp h).imp (fun hv => hsub hv) List.mem_singleton.mp

theorem select_of_forall_le {s : Sequence} {c : Chain} (h : ∀ v ∈ c, v.seq ≤ s) : select s c = c.getLast? := by
  rcases List.eq_nil_or_concat c with rfl | ⟨c, v, rfl⟩
  · rfl
  · rw [List.concat_eq_append] at h ⊢
    rw [select_append_singleton, if_pos (h v (List.mem_append_right _ List.mem_cons_self)), List.getLast?_concat]

/-- The readers above every version of a chain see the same. -/
theorem visible_of_forall_le {s s' : Sequence} {c : Chain} (h : ∀ v ∈ c, v.seq ≤ s) (hs : s ≤ s') :
    visible s' c = visible s c := by
  rw [visible, visible, select_of_forall_le h, select_of_forall_le fun v hv => UInt64.le_trans (h v hv) hs]

end OrderedStore.Chain
