import OrderedStore.Proofs.Settling

/-!
# What can go of the versions

The floor is a sequence below which no reader is. Nothing more can go when of each key at most one version
at or below the floor is kept, and no key has nothing left but a tombstone at or below it. The stale keys
are those with something that a higher floor would free.

* `Chain.Tight`, `VersionMap.Tracked`, `VersionMap.Collected`: nothing can go of a key, the stale keys are the
  right ones, and both for all keys;
* `Collected.raise`, `Collected.apply`: another floor, and a batch that is written;
* `Tracked.sweep`: a sweep collects everything, although it visits the stale keys only;
* `Settled.collected`, `Collected.settled`: without readers, a value for each key and nothing else.
-/

namespace OrderedStore

/-! ## One key -/

namespace Chain

/-- Nothing of the chain can go while no reader is below `floor`. -/
structure Tight (floor : Sequence) (c : Chain) : Prop where
  covered : c.countP (·.seq ≤ floor) ≤ 1
  present : c.gone floor = false

variable {floor last seq : Sequence} {value : Option Bytes} {c c' : Chain}

theorem gone_eq_true_iff : c.gone floor = true ↔ ∃ seq, seq ≤ floor ∧ c = [⟨seq, none⟩] := by
  constructor
  · intro h
    unfold gone at h
    split at h
    · rename_i v
      simp only [Bool.and_eq_true, Option.isNone_iff_eq_none, decide_eq_true_eq] at h
      exact ⟨v.seq, h.2, by rw [← h.1]⟩
    · cases h
  · rintro ⟨seq, hle, rfl⟩
    exact decide_eq_true hle

theorem reclaimable_eq_true_iff : c.reclaimable = true ↔ 1 < c.length ∨ ∃ v ∈ c, v.value = none := by
  simp only [reclaimable, Bool.or_eq_true, decide_eq_true_eq, List.any_eq_true, Option.isNone_iff_eq_none]

/-- A higher floor frees something of every chain but a single value. -/
theorem eq_of_reclaimable_eq_false (hne : c ≠ []) (h : c.reclaimable = false) : ∃ seq value, c = [⟨seq, some value⟩] := by
  have hnot : ¬ (1 < c.length ∨ ∃ v ∈ c, v.value = none) := by
    rw [← reclaimable_eq_true_iff, h]
    exact Bool.false_ne_true
  cases c with
  | nil => exact absurd rfl hne
  | cons v rest =>
    have hlength : ¬ 1 < rest.length + 1 := fun hlt => hnot (.inl hlt)
    have hrest : rest = [] := List.eq_nil_of_length_eq_zero (by omega)
    have hvalue : v.value ≠ none := fun hnone => hnot (.inr ⟨v, List.mem_cons_self, hnone⟩)
    obtain ⟨value, hvalue⟩ := Option.ne_none_iff_exists'.mp hvalue
    exact ⟨v.seq, value, by rw [hrest, ← hvalue]⟩

theorem reclaimable_of_sublist (h : c'.Sublist c) (hc' : c'.reclaimable = true) : c.reclaimable = true := by
  rw [reclaimable_eq_true_iff] at hc' ⊢
  rcases hc' with hlength | ⟨v, hv, hnone⟩
  · exact .inl (Nat.lt_of_lt_of_le hlength h.length_le)
  · exact .inr ⟨v, h.subset hv, hnone⟩

theorem tight_of_reclaimable_eq_false (hne : c ≠ []) (h : c.reclaimable = false) (floor : Sequence) : c.Tight floor := by
  obtain ⟨seq, value, rfl⟩ := eq_of_reclaimable_eq_false hne h
  exact ⟨List.countP_le_length, rfl⟩

/-- A chain is tight for another floor that has no more of its versions at or below it. -/
theorem Tight.raise (h : c.Tight floor) {floor' : Sequence} (hfloor : ∀ v ∈ c, v.seq ≤ floor' → v.seq ≤ floor) :
    c.Tight floor' where
  covered := by
    refine Nat.le_trans (List.countP_mono_left fun v hv hle => ?_) h.covered
    exact decide_eq_true (hfloor v hv (of_decide_eq_true hle))
  present := by
    refine Bool.eq_false_iff.mpr fun hgone => ?_
    obtain ⟨seq, hle, rfl⟩ := gone_eq_true_iff.mp hgone
    have hle' : seq ≤ floor := hfloor ⟨seq, none⟩ List.mem_cons_self hle
    have hgone' := gone_eq_true_iff.mpr ⟨seq, hle', rfl⟩
    exact absurd (h.present.symm.trans hgone') Bool.false_ne_true

/-- Nothing can go of a chain below which every reader is gone, unless it is a single value. -/
theorem Tight.single (h : c.Tight last) (hne : c ≠ []) (hbounded : ∀ v ∈ c, v.seq ≤ last) :
    ∃ seq value, seq ≤ last ∧ c = [⟨seq, some value⟩] := by
  have hcount : c.countP (·.seq ≤ last) = c.length :=
    List.countP_eq_length.mpr fun v hv => decide_eq_true (hbounded v hv)
  have hlength : c.length ≤ 1 := hcount ▸ h.covered
  cases c with
  | nil => exact absurd rfl hne
  | cons v rest =>
    rw [List.length_cons] at hlength
    have hrest : rest = [] := List.eq_nil_of_length_eq_zero (by omega)
    subst hrest
    have hle : v.seq ≤ last := hbounded v List.mem_cons_self
    cases hvalue : v.value with
    | none =>
      have hgone := gone_eq_true_iff.mpr ⟨v.seq, hle, by rw [← hvalue]⟩
      exact absurd (h.present.symm.trans hgone) Bool.false_ne_true
    | some value => exact ⟨v.seq, value, hle, by rw [← hvalue]⟩

/-! ### Pruning and writing -/

/-- Pruning keeps at most one version at or below the floor, whatever the order of the sequences. -/
theorem countP_prune_le (floor : Sequence) (c : Chain) : (c.prune floor).countP (·.seq ≤ floor) ≤ 1 := by
  induction c with
  | nil => exact Nat.zero_le 1
  | cons v c ih =>
    rw [prune]
    split
    · exact ih
    · rename_i hany
      have hnone : c.countP (·.seq ≤ floor) = 0 := by
        rw [List.countP_eq_zero]
        exact fun w hw hle => hany (List.any_eq_true.mpr ⟨w, hw, hle⟩)
      rw [List.countP_cons, hnone]
      split
      · exact Nat.le_refl 1
      · exact Nat.zero_le 1

theorem prune_ne_nil (hne : c ≠ []) (floor : Sequence) : c.prune floor ≠ [] := by
  induction c with
  | nil => exact absurd rfl hne
  | cons v c ih =>
    rw [prune]
    split
    · rename_i hany
      refine ih fun hnil => ?_
      rw [hnil] at hany
      cases hany
    · exact List.cons_ne_nil v c

theorem tight_rest? (h : c.rest? floor = some c') : c'.Tight floor := by
  obtain ⟨hpresent, rfl⟩ := rest?_eq_some_iff.mp h
  exact ⟨countP_prune_le floor c, hpresent⟩

theorem ne_nil_of_rest? (h : c.rest? floor = some c') (hne : c ≠ []) : c' ≠ [] := by
  rw [(rest?_eq_some_iff.mp h).2]
  exact prune_ne_nil hne floor

theorem write_ne_nil (seq : Sequence) (value : Option Bytes) (c : Chain) : c.write seq value ≠ [] := by
  obtain ⟨older, heq, -⟩ := write_cases seq value c
  rw [heq]
  exact List.append_ne_nil_of_right_ne_nil older (List.cons_ne_nil _ _)

/-- A write at or above all versions of an increasing chain leaves it increasing. -/
theorem increasing_write (h : c.Pairwise (fun v w => v.seq < w.seq)) (hle : ∀ v ∈ c, v.seq ≤ seq)
    (value : Option Bytes) : (c.write seq value).Pairwise (fun v w => v.seq < w.seq) := by
  obtain ⟨older, heq, hcases⟩ := write_cases seq value c
  have hbelow : older.Pairwise (fun v w => v.seq < w.seq) ∧ ∀ v ∈ older, v.seq < seq := by
    rcases hcases with ⟨rfl, hlast⟩ | ⟨v, rfl, rfl⟩
    · refine ⟨h, fun v hv => ?_⟩
      rcases List.eq_nil_or_concat older with rfl | ⟨front, w, rfl⟩
      · cases hv
      · rw [List.concat_eq_append] at h hle hlast hv
        have hw : w.seq < seq :=
          UInt64.lt_of_le_of_ne (hle w (List.mem_append_right _ List.mem_cons_self)) (hlast w List.getLast?_concat)
        rcases List.mem_append.mp hv with hv | hv
        · exact UInt64.lt_trans ((List.pairwise_append.mp h).2.2 v hv w List.mem_cons_self) hw
        · exact List.mem_singleton.mp hv ▸ hw
    · obtain ⟨holder, -, hlt⟩ := List.pairwise_append.mp h
      exact ⟨holder, fun w hw => hlt w hw v List.mem_cons_self⟩
  rw [heq]
  refine List.pairwise_append.mpr ⟨hbelow.1, List.pairwise_singleton _ _, fun v hv w hw => ?_⟩
  exact List.mem_singleton.mp hw ▸ hbelow.2 v hv

end Chain

/-! ## All keys -/

namespace VersionMap

/-- The stale keys are those of which a higher floor would free something. -/
def Marked (m : VersionMap) : Prop := ∀ key, m.stale.contains key = (m.chains.get? key).any Chain.reclaimable

/-- The chains are in order, no version is above `last`, and the stale keys are those of which a higher floor would
free something. -/
structure Tracked (m : VersionMap) (last : Sequence) : Prop where
  bounded : m.Bounded last
  ne_nil : ∀ key chain, m.chains.get? key = some chain → chain ≠ []
  increasing : ∀ key chain, m.chains.get? key = some chain → chain.Pairwise (fun v w => v.seq < w.seq)
  stale : ∀ key, m.stale.contains key = (m.chains.get? key).any Chain.reclaimable

/-- The map is tracked, and nothing of it can go while no reader is below `floor`. -/
structure Collected (m : VersionMap) (floor last : Sequence) : Prop extends Tracked m last where
  tight : ∀ key chain, m.chains.get? key = some chain → chain.Tight floor

variable {m : VersionMap} {floor floor' last seq : Sequence}

/-- Nothing can go at another floor either, if all versions that are at or below it have been so before. -/
theorem Collected.raise (h : m.Collected floor last) (hfloor : ∀ s, s ≤ last → s ≤ floor' → s ≤ floor) :
    m.Collected floor' last where
  toTracked := h.toTracked
  tight key chain hchain :=
    (h.tight key chain hchain).raise fun v hv => hfloor v.seq (h.bounded key chain hchain v hv)

/-! ### Writing -/

theorem stale_insert (m : VersionMap) (key : Bytes) (seq : Sequence) (value : Option Bytes) (floor : Sequence)
    (k : Bytes) :
    (m.insert key seq value floor).stale.contains k =
      if k = key then ((((m.chains.get? key).getD []).write seq value).rest? floor).any Chain.reclaimable
      else m.stale.contains k := by
  simp only [insert, Chain.rest?]
  split
  · rw [KeyMap.contains_erase, Option.any_none]
  · rw [Option.any_some]
    split
    · rename_i hreclaimable
      rw [KeyMap.contains_insert, hreclaimable]
    · rename_i hreclaimable
      rw [KeyMap.contains_erase, Bool.eq_false_iff.mpr hreclaimable]

theorem Marked.insert (h : m.Marked) (key : Bytes) (seq : Sequence) (value : Option Bytes) (floor : Sequence) :
    (m.insert key seq value floor).Marked := by
  intro k
  rw [stale_insert, chains_insert]
  split
  · rfl
  · exact h k

theorem Tracked.insert (h : m.Tracked last) (hle : last ≤ seq) (key : Bytes) (value : Option Bytes)
    (floor : Sequence) : (m.insert key seq value floor).Tracked seq where
  bounded := (h.bounded.mono hle).insert (UInt64.le_refl seq) key value floor
  ne_nil k chain hchain := by
    rw [chains_insert] at hchain
    split at hchain
    · exact Chain.ne_nil_of_rest? hchain (Chain.write_ne_nil seq value _)
    · exact h.ne_nil k chain hchain
  increasing k chain hchain := by
    rw [chains_insert] at hchain
    split at hchain
    · refine List.Pairwise.sublist (Chain.sublist_of_rest? hchain) (Chain.increasing_write ?_ ?_ value)
      · cases hold : m.chains.get? key with
        | none => exact .nil
        | some old => exact h.increasing key old hold
      · cases hold : m.chains.get? key with
        | none => exact fun v hv => nomatch hv
        | some old => exact fun v hv => UInt64.le_trans (h.bounded key old hold v hv) hle
    · exact h.increasing k chain hchain
  stale := Marked.insert h.stale key seq value floor

theorem Collected.insert (h : m.Collected floor last) (hle : last ≤ seq) (key : Bytes) (value : Option Bytes) :
    (m.insert key seq value floor).Collected floor seq where
  toTracked := h.toTracked.insert hle key value floor
  tight k chain hchain := by
    rw [chains_insert] at hchain
    split at hchain
    · exact Chain.tight_rest? hchain
    · exact h.tight k chain hchain

/-- A batch touches some keys, several times perhaps, at one sequence. -/
theorem Collected.apply (h : m.Collected floor last) (hle : last ≤ seq) (ops : List Operation) :
    (m.apply ops seq floor).Collected floor seq := by
  induction ops generalizing m last with
  | nil => exact { h with bounded := h.bounded.mono hle }
  | cons op ops ih => exact ih (h.insert hle op.key op.value?) (UInt64.le_refl seq)

/-! ### Sweeping -/

theorem stale_sweepKey (h : m.Marked) (floor : Sequence) (key k : Bytes) :
    (sweepKey floor m key).1.stale.contains k =
      if k = key then ((m.chains.get? key).bind (Chain.rest? floor)).any Chain.reclaimable
      else m.stale.contains k := by
  unfold sweepKey
  split
  · rename_i hnone
    rw [hnone, KeyMap.contains_erase, Option.bind_none, Option.any_none]
  · rename_i chain hchain
    have hstale : m.stale.contains key = chain.reclaimable := by
      rw [h key, hchain, Option.any_some]
    simp only [hchain, Option.bind_some, Chain.rest?]
    split
    · rw [KeyMap.contains_erase, Option.any_none]
    · rw [Option.any_some]
      split
      · rename_i hreclaimable
        split
        · rename_i hk
          rw [hk, hstale, hreclaimable]
          exact Chain.reclaimable_of_sublist (Chain.prune_sublist floor chain) hreclaimable
        · rfl
      · rename_i hreclaimable
        rw [KeyMap.contains_erase, Bool.eq_false_iff.mpr hreclaimable]

theorem Marked.sweepKey (h : m.Marked) (floor : Sequence) (key : Bytes) : (sweepKey floor m key).1.Marked := by
  intro k
  rw [stale_sweepKey h, chains_sweepKey]
  split
  · rfl
  · exact h k

theorem Tracked.sweepKey (h : m.Tracked last) (floor : Sequence) (key : Bytes) :
    (sweepKey floor m key).1.Tracked last where
  bounded := h.bounded.sweepKey floor key
  ne_nil k chain hchain := by
    rw [chains_sweepKey] at hchain
    split at hchain
    · obtain ⟨old, hold, hrest⟩ := Option.bind_eq_some_iff.mp hchain
      exact Chain.ne_nil_of_rest? hrest (h.ne_nil key old hold)
    · exact h.ne_nil k chain hchain
  increasing k chain hchain := by
    rw [chains_sweepKey] at hchain
    split at hchain
    · obtain ⟨old, hold, hrest⟩ := Option.bind_eq_some_iff.mp hchain
      exact (h.increasing key old hold).sublist (Chain.sublist_of_rest? hrest)
    · exact h.increasing k chain hchain
  stale := Marked.sweepKey h.stale floor key

/-- Of the keys that are swept nothing more can go, and of the others nothing more than before. By induction on the
keys that are swept. -/
theorem tight_sweepKeys (floor : Sequence) (keys : List Bytes) (m : VersionMap) {key : Bytes}
    (h : key ∈ keys ∨ ∀ chain, m.chains.get? key = some chain → chain.Tight floor) {chain : Chain}
    (hchain : (keys.foldl (fun m key => (sweepKey floor m key).1) m).chains.get? key = some chain) :
    chain.Tight floor := by
  induction keys generalizing m with
  | nil => exact (h.resolve_left List.not_mem_nil) chain hchain
  | cons k keys ih =>
    refine ih (sweepKey floor m k).1 ?_ hchain
    by_cases hkey : key = k
    · right
      intro chain' hchain'
      rw [chains_sweepKey, if_pos hkey] at hchain'
      obtain ⟨old, -, hrest⟩ := Option.bind_eq_some_iff.mp hchain'
      exact Chain.tight_rest? hrest
    · refine h.imp (fun hmem => (List.mem_cons.mp hmem).resolve_left hkey) fun htight chain' hchain' => ?_
      rw [chains_sweepKey, if_neg hkey] at hchain'
      exact htight chain' hchain'

theorem sweep_eq (m : VersionMap) (floor : Sequence) :
    (m.sweep floor).1 = m.stale.keys.foldl (fun m key => (sweepKey floor m key).1) m :=
  (List.foldl_hom Prod.fst fun _ _ => rfl).symm

/-- A sweep collects all that can go, although it visits the stale keys only: the others hold a single value. -/
theorem Tracked.sweep (h : m.Tracked last) (floor : Sequence) : (m.sweep floor).1.Collected floor last where
  toTracked := sweep_keeps (P := fun m => m.Tracked last) (fun _ key h => h.sweepKey floor key) h
  tight key chain hchain := by
    rw [sweep_eq] at hchain
    refine tight_sweepKeys floor m.stale.keys m ?_ hchain
    cases hstale : m.stale.contains key with
    | true => exact .inl (KeyMap.mem_keys_iff.mpr hstale)
    | false =>
      right
      intro chain' hchain'
      have hreclaimable : chain'.reclaimable = false := by
        rw [h.stale key, hchain', Option.any_some] at hstale
        exact hstale
      exact Chain.tight_of_reclaimable_eq_false (h.ne_nil key chain' hchain') hreclaimable floor

/-! ### Without readers -/

/-- What replay leaves behind is collected. -/
theorem Settled.collected (h : m.Settled last) (floor : Sequence) : m.Collected floor last where
  bounded key chain hchain v hv := by
    obtain ⟨seq, value, hle, rfl⟩ := h.single key chain hchain
    exact List.mem_singleton.mp hv ▸ hle
  ne_nil key chain hchain := by
    obtain ⟨seq, value, -, rfl⟩ := h.single key chain hchain
    exact List.cons_ne_nil _ _
  increasing key chain hchain := by
    obtain ⟨seq, value, -, rfl⟩ := h.single key chain hchain
    exact List.pairwise_singleton _ _
  stale key := by
    have hnone : m.stale.contains key = false := by
      rw [h.stale]
      rfl
    rw [hnone]
    cases hchain : m.chains.get? key with
    | none => rfl
    | some chain =>
      obtain ⟨seq, value, -, rfl⟩ := h.single key chain hchain
      rfl
  tight key chain hchain := by
    obtain ⟨seq, value, -, rfl⟩ := h.single key chain hchain
    exact ⟨List.countP_le_length, rfl⟩

/-- What is collected for a reader of the present alone is settled. -/
theorem Collected.settled (h : m.Collected last last) : m.Settled last where
  single key chain hchain :=
    (h.tight key chain hchain).single (h.ne_nil key chain hchain) (h.bounded key chain hchain)
  stale := by
    have hnone : ∀ key, m.stale.contains key = false := fun key => by
      rw [h.stale key]
      cases hchain : m.chains.get? key with
      | none => rfl
      | some chain =>
        obtain ⟨seq, value, -, rfl⟩ :=
          (h.tight key chain hchain).single (h.ne_nil key chain hchain) (h.bounded key chain hchain)
        rfl
    refine KeyMap.ext_get? fun key => ?_
    exact Option.not_isSome_iff_eq_none.mp (Bool.eq_false_iff.mp (hnone key))

end VersionMap

end OrderedStore
