import OrderedStore.Proofs.Collection

/-!
# Sweeps that follow one another

What a sweep leaves depends on its floor only through the highest floor that the map has been swept with, so the
order in which readers go decides nothing. A sweep visits the stale keys only; that it misses nothing is because
these are the right ones after any changes, whatever the sequences and the floors of the changes are.

* `Chain.prune_prune_of_le`, `prune_prune_of_ge`, `rest?_bind_rest?`: one key that is pruned twice;
* `VersionMap.Update`, `marked_updateAll`: maps that come of any changes;
* `Marked.chains_sweep`, `Marked.sweep_sweep`: what a sweep does to every key, and two sweeps;
* `versionCount_sweep`: the number of versions that are freed;
* `Timeline.versions_unpinAll`: what is retained when readers have gone;
* `VersionMap.sweeps_compose`: all of it, for any map that comes of changes of an empty one.
-/

namespace OrderedStore

/-! ## One key -/

namespace Chain

variable {f g : Sequence}

/-- What a lower floor would drop is dropped by a higher one anyway. -/
theorem prune_prune_of_le (h : f ≤ g) (c : Chain) : prune g (prune f c) = prune g c := by
  induction c with
  | nil => rfl
  | cons v c ih =>
    rw [prune]
    split
    · rename_i hany
      obtain ⟨w, hw, hle⟩ := List.any_eq_true.mp hany
      have hany' : c.any (·.seq ≤ g) = true :=
        List.any_eq_true.mpr ⟨w, hw, decide_eq_true (UInt64.le_trans (of_decide_eq_true hle) h)⟩
      rw [ih, prune, if_pos hany']
    · rfl

/-- A lower floor drops nothing of what a higher one leaves. -/
theorem prune_prune_of_ge (h : g ≤ f) (c : Chain) : prune g (prune f c) = prune f c := by
  induction c with
  | nil => rfl
  | cons v c ih =>
    rw [prune]
    split
    · exact ih
    · rename_i hnone
      have hnone' : ¬ c.any (·.seq ≤ g) = true := fun hany => by
        obtain ⟨w, hw, hle⟩ := List.any_eq_true.mp hany
        exact hnone (List.any_eq_true.mpr ⟨w, hw, decide_eq_true (UInt64.le_trans (of_decide_eq_true hle) h)⟩)
      rw [prune, if_neg hnone']

theorem gone_mono {c : Chain} (h : f ≤ g) (hgone : c.gone f = true) : c.gone g = true := by
  obtain ⟨seq, hle, rfl⟩ := gone_eq_true_iff.mp hgone
  exact gone_eq_true_iff.mpr ⟨seq, UInt64.le_trans hle h, rfl⟩

theorem rest?_bind_rest?_of_le (h : f ≤ g) (c : Chain) : (c.rest? f).bind (rest? g) = c.rest? g := by
  by_cases hgone : (c.prune f).gone f = true
  · have hnone : c.rest? f = none := if_pos hgone
    have hgone' : (c.prune g).gone g = true := by
      obtain ⟨seq, hle, hsingle⟩ := gone_eq_true_iff.mp (gone_mono h hgone)
      rw [← prune_prune_of_le h, hsingle]
      exact gone_eq_true_iff.mpr ⟨seq, hle, rfl⟩
    rw [hnone, Option.bind_none, rest?, if_pos hgone']
  · have hsome : c.rest? f = some (c.prune f) := if_neg hgone
    rw [hsome, Option.bind_some, rest?_congr (prune_prune_of_le h c)]

theorem rest?_bind_rest?_of_ge (h : g ≤ f) (c : Chain) : (c.rest? f).bind (rest? g) = c.rest? f := by
  by_cases hgone : (c.prune f).gone f = true
  · have hnone : c.rest? f = none := if_pos hgone
    rw [hnone, Option.bind_none]
  · have hsome : c.rest? f = some (c.prune f) := if_neg hgone
    rw [hsome, Option.bind_some, rest?, prune_prune_of_ge h]
    exact if_neg fun hgone' => hgone (gone_mono h hgone')

/-- Of a key that is pruned twice the higher floor decides what is left. -/
theorem rest?_bind_rest? (f g : Sequence) (c : Chain) : (c.rest? f).bind (rest? g) = c.rest? (max f g) := by
  by_cases h : f ≤ g
  · have hmax : max f g = g := if_pos h
    rw [rest?_bind_rest?_of_le h, hmax]
  · have hmax : max f g = f := if_neg h
    rw [rest?_bind_rest?_of_ge (UInt64.le_of_lt (UInt64.not_le.mp h)), hmax]

/-- Nothing goes of a chain that is not reclaimable. -/
theorem rest?_of_reclaimable_eq_false {c : Chain} (h : c.reclaimable = false) (floor : Sequence) :
    c.rest? floor = some c := by
  by_cases hnil : c = []
  · subst hnil
    rfl
  · obtain ⟨seq, value, rfl⟩ := eq_of_reclaimable_eq_false hnil h
    rfl

end Chain

/-! ## Maps that come of changes -/

/-- A key that is bound stands at one place among the entries: another value is put there, or the entry is taken
away. -/
theorem KeyMap.exists_split {β : Type} {m : KeyMap β} {key : Bytes} {value : β} (h : m.get? key = some value) :
    ∃ front rest, m.entries = front ++ (key, value) :: rest ∧
      (∀ value', (m.insert key value').entries = front ++ (key, value') :: rest) ∧
      (m.erase key).entries = front ++ rest := by
  obtain ⟨front, rest, hsplit⟩ := List.append_of_mem (get?_eq_some_iff.mp h)
  obtain ⟨-, hrest, hfront⟩ := List.pairwise_append.mp (hsplit ▸ m.sorted)
  have hbelow : ∀ e ∈ front, e.1 < key := fun e he => hfront e he (key, value) List.mem_cons_self
  have habove : ∀ e ∈ rest, key < e.1 := (List.pairwise_cons.mp hrest).1
  refine ⟨front, rest, hsplit, fun value' => ?_, ?_⟩
  · show insertEntry key value' m.entries = _
    rw [hsplit]
    clear hsplit hfront
    induction front with
    | nil => rw [List.nil_append, insertEntry, if_neg (List.lt_irrefl key), if_pos rfl, List.nil_append]
    | cons e front ih =>
      have he : e.1 < key := hbelow e List.mem_cons_self
      have hne : key ≠ e.1 := fun heq => List.lt_irrefl key (heq ▸ he)
      rw [List.cons_append, insertEntry, if_neg (List.lt_asymm he), if_neg hne,
        ih fun e he => hbelow e (List.mem_cons_of_mem _ he), List.cons_append]
  · show m.entries.filter _ = _
    rw [hsplit, List.filter_append, List.filter_cons_of_neg (by simp), List.filter_eq_self.mpr, List.filter_eq_self.mpr]
    · exact fun e he => decide_eq_true fun heq => List.lt_irrefl key (heq ▸ habove e he)
    · exact fun e he => decide_eq_true fun heq => List.lt_irrefl key (heq ▸ hbelow e he)

namespace VersionMap

/-- A change of a version map. -/
inductive Update where
  | insert (key : Bytes) (seq : Sequence) (value : Option Bytes) (floor : Sequence)
  | apply (ops : List Operation) (seq floor : Sequence)
  | sweep (floor : Sequence)

/-- The map after a change. -/
def update (m : VersionMap) : Update → VersionMap
  | .insert key seq value floor => m.insert key seq value floor
  | .apply ops seq floor => m.apply ops seq floor
  | .sweep floor => (m.sweep floor).1

/-- The map after changes. -/
def updateAll (m : VersionMap) (updates : List Update) : VersionMap := updates.foldl update m

variable {m m' : VersionMap}

theorem marked_empty : empty.Marked := fun _ => rfl

theorem Marked.apply (h : m.Marked) (ops : List Operation) (seq floor : Sequence) : (m.apply ops seq floor).Marked := by
  induction ops generalizing m with
  | nil => exact h
  | cons op ops ih => exact ih (h.insert op.key seq op.value? floor)

theorem Marked.sweep (h : m.Marked) (floor : Sequence) : (m.sweep floor).1.Marked :=
  sweep_keeps (P := Marked) (fun _ key h => h.sweepKey floor key) h

theorem Marked.update (h : m.Marked) (u : Update) : (m.update u).Marked := by
  cases u with
  | insert key seq value floor => exact h.insert key seq value floor
  | apply ops seq floor => exact h.apply ops seq floor
  | sweep floor => exact h.sweep floor

/-- The stale keys are the right ones after any changes. -/
theorem Marked.updateAll (h : m.Marked) (updates : List Update) : (m.updateAll updates).Marked :=
  List.foldlRecOn updates _ h fun _ h u _ => h.update u

/-- What the stale keys are is decided by the versions. -/
theorem Marked.eq_of_chains (h : m.Marked) (h' : m'.Marked) (hchains : m.chains = m'.chains) : m = m' :=
  VersionMap.ext hchains (KeyMap.ext_contains fun key => by rw [h key, h' key, hchains])

/-! ## Sweeps -/

/-- The keys that are swept are pruned, and the others left. A key that is swept again is left as well. -/
theorem chains_sweepKeys (floor : Sequence) (keys : List Bytes) (m : VersionMap) (key : Bytes) :
    (keys.foldl (fun m key => (sweepKey floor m key).1) m).chains.get? key =
      if key ∈ keys then (m.chains.get? key).bind (Chain.rest? floor) else m.chains.get? key := by
  induction keys generalizing m with
  | nil => rfl
  | cons k keys ih =>
    rw [List.foldl_cons, ih, chains_sweepKey]
    by_cases hkey : key = k
    · have hagain : ∀ c : Chain, (c.rest? floor).bind (Chain.rest? floor) = c.rest? floor :=
        Chain.rest?_bind_rest?_of_le (UInt64.le_refl floor)
      simp only [hkey, if_pos, List.mem_cons_self, Option.bind_assoc, hagain, ite_self]
    · simp only [List.mem_cons, hkey, false_or, if_false]

/-- A sweep prunes every key, although it visits the stale ones only. -/
theorem Marked.chains_sweep (h : m.Marked) (floor : Sequence) (key : Bytes) :
    (m.sweep floor).1.chains.get? key = (m.chains.get? key).bind (Chain.rest? floor) := by
  rw [sweep_eq, chains_sweepKeys]
  split
  · rfl
  · rename_i hmem
    have hfresh : (m.chains.get? key).any Chain.reclaimable = false := by
      rw [← h key]
      exact Bool.eq_false_iff.mpr fun hstale => hmem (KeyMap.mem_keys_iff.mpr hstale)
    cases hchain : m.chains.get? key with
    | none => rfl
    | some chain =>
      rw [hchain, Option.any_some] at hfresh
      rw [Option.bind_some, Chain.rest?_of_reclaimable_eq_false hfresh]

/-- Two sweeps are one at the higher floor. -/
theorem Marked.sweep_sweep (h : m.Marked) (f g : Sequence) : ((m.sweep f).1.sweep g).1 = (m.sweep (max f g)).1 := by
  refine Marked.eq_of_chains ((h.sweep f).sweep g) (h.sweep (max f g)) (KeyMap.ext_get? fun key => ?_)
  rw [(h.sweep f).chains_sweep, h.chains_sweep, h.chains_sweep, Option.bind_assoc]
  simp only [Chain.rest?_bind_rest?]

/-! ### What is freed -/

/-- The number of versions in a list of chains. -/
def held (entries : List (Bytes × Chain)) : Nat := entries.foldr (fun e n => e.2.length + n) 0

theorem held_append (l l' : List (Bytes × Chain)) : held (l ++ l') = held l + held l' := by
  induction l with
  | nil => exact (Nat.zero_add _).symm
  | cons e l ih =>
    show e.2.length + held (l ++ l') = e.2.length + held l + held l'
    omega

theorem held_cons (e : Bytes × Chain) (l : List (Bytes × Chain)) : held (e :: l) = e.2.length + held l := rfl

theorem versionCount_sweepKey (floor : Sequence) (m : VersionMap) (key : Bytes) :
    (sweepKey floor m key).1.versionCount + (sweepKey floor m key).2 = m.versionCount := by
  have hcount : ∀ m : VersionMap, m.versionCount = held m.chains.entries := fun _ => rfl
  unfold sweepKey
  split
  · rfl
  · rename_i chain hchain
    obtain ⟨front, rest, hentries, hinsert, herase⟩ := KeyMap.exists_split hchain
    have hkept : (chain.prune floor).length ≤ chain.length := (Chain.prune_sublist floor chain).length_le
    dsimp only
    split
    · simp only [hcount, herase, hentries, held_append, held_cons]
      omega
    · simp only [hcount, hinsert, hentries, held_append, held_cons]
      omega

/-- A sweep reports the number of versions that it has freed. -/
theorem versionCount_sweep (m : VersionMap) (floor : Sequence) :
    (m.sweep floor).1.versionCount + (m.sweep floor).2 = m.versionCount := by
  rw [sweep]
  refine List.foldlRecOn (motive := fun acc : VersionMap × Nat => acc.1.versionCount + acc.2 = m.versionCount) _ _ rfl
    fun acc hacc key _ => ?_
  have hkey := versionCount_sweepKey floor acc.1 key
  show (sweepKey floor acc.1 key).1.versionCount + (acc.2 + (sweepKey floor acc.1 key).2) = m.versionCount
  omega

end VersionMap

/-! ## Readers that go -/

namespace Timeline

/-- The timeline when readers at these sequences have gone, one after the other. -/
def unpinAll (t : Timeline) (gone : List Sequence) : Timeline := gone.foldl unpin t

variable {t t' : Timeline}

theorem pinned_unpinAll (t : Timeline) (gone : List Sequence) :
    (t.unpinAll gone).pins.pinned = t.pins.pinned.diff gone := by
  induction gone generalizing t with
  | nil => exact (List.diff_nil _).symm
  | cons s gone ih =>
    rw [List.diff_cons]
    refine (ih (t.unpin s)).trans ?_
    rw [pins_unpin]
    rfl

theorem sequence_unpinAll (t : Timeline) (gone : List Sequence) : (t.unpinAll gone).sequence = t.sequence := by
  induction gone generalizing t with
  | nil => rfl
  | cons s gone ih => exact (ih (t.unpin s)).trans (sequence_unpin t s)

/-- With fewer readers the floor is no lower. -/
theorem floor_mono (h : t'.pins.pinned ⊆ t.pins.pinned) (latest : Sequence) : t.floor latest ≤ t'.floor latest :=
  le_floor_iff.mpr ⟨floor_le t latest, fun _ hpinned => floor_le_of_mem (h hpinned) latest⟩

/-- While readers go, the oldest one stays the oldest one as long as it is the oldest one in the end. -/
theorem oldest?_of_subset {p p' p'' : Pins} (h : p'.pinned ⊆ p.pinned) (h' : p''.pinned ⊆ p'.pinned)
    (heq : p''.oldest? = p.oldest?) : p'.oldest? = p.oldest? := by
  cases hold : p.oldest? with
  | none =>
    have hnil : p.pinned = [] := List.min?_eq_none_iff.mp hold
    exact List.min?_eq_none_iff.mpr (List.subset_nil.mp (hnil ▸ h))
  | some oldest =>
    obtain ⟨-, hleast⟩ := List.min?_eq_some_iff.mp hold
    obtain ⟨hmem, -⟩ := List.min?_eq_some_iff.mp (heq.trans hold)
    exact List.min?_eq_some_iff.mpr ⟨h' hmem, fun pinned hpinned => hleast pinned (h hpinned)⟩

/-- What is retained when readers have gone is what one sweep leaves, at the floor that there is then, unless the
oldest reader is still the same. By induction on the readers that go. -/
theorem versions_unpinAll (h : t.versions.Marked) (gone : List Sequence) :
    (t.unpinAll gone).versions =
      if (t.unpinAll gone).pins.oldest? = t.pins.oldest? then t.versions
      else (t.versions.sweep ((t.unpinAll gone).floor t.sequence)).1 := by
  induction gone generalizing t with
  | nil => exact (if_pos rfl).symm
  | cons s gone ih =>
    let next : Timeline := t.unpin s
    let last : Timeline := next.unpinAll gone
    have hnext : next.versions =
        if next.pins.oldest? = t.pins.oldest? then t.versions else (t.versions.sweep (next.floor t.sequence)).1 := by
      have hpins : next.pins = t.pins.unpin s := pins_unpin t s
      have hfloor : next.floor t.sequence = ({ t with pins := t.pins.unpin s } : Timeline).floor t.sequence := by
        rw [floor, hpins]
        rfl
      rw [hpins, hfloor]
      simp only [next, unpin]
      split <;> rfl
    have hmarked : next.versions.Marked := by
      rw [hnext]
      split
      · exact h
      · exact h.sweep _
    have hlast : last.versions = if last.pins.oldest? = next.pins.oldest? then next.versions
        else (next.versions.sweep (last.floor t.sequence)).1 := by
      rw [← sequence_unpin t s]
      exact ih hmarked
    have hsub : next.pins.pinned ⊆ t.pins.pinned := by
      rw [show next.pins = t.pins.unpin s from pins_unpin t s]
      exact List.erase_subset
    have hsub' : last.pins.pinned ⊆ next.pins.pinned := by
      rw [show last.pins.pinned = next.pins.pinned.diff gone from pinned_unpinAll next gone]
      exact List.diff_subset _ _
    show last.versions = if last.pins.oldest? = t.pins.oldest? then t.versions
      else (t.versions.sweep (last.floor t.sequence)).1
    by_cases hfirst : next.pins.oldest? = t.pins.oldest?
    · rw [if_pos hfirst] at hnext
      rw [hlast, hnext, hfirst]
    · -- the oldest reader has gone, so the first sweep is at a floor that the others only raise
      have hother : last.pins.oldest? ≠ t.pins.oldest? := fun heq => hfirst (oldest?_of_subset hsub hsub' heq)
      rw [if_neg hfirst] at hnext
      rw [hlast, hnext, if_neg hother]
      split
      · rename_i hsame
        rw [floor_congr last hsame]
      · have hmax : max (next.floor t.sequence) (last.floor t.sequence) = last.floor t.sequence :=
          if_pos (floor_mono hsub' t.sequence)
        rw [h.sweep_sweep, hmax]

/-- The order in which readers go does not matter. -/
theorem unpinAll_of_perm (h : t.versions.Marked) {gone gone' : List Sequence} (hperm : gone.Perm gone') :
    t.unpinAll gone = t.unpinAll gone' := by
  have hpins : (t.unpinAll gone).pins = (t.unpinAll gone').pins := by
    have hpinned : (t.unpinAll gone).pins.pinned = (t.unpinAll gone').pins.pinned := by
      rw [pinned_unpinAll, pinned_unpinAll, hperm.diff_left]
    exact congrArg Pins.mk hpinned
  have hversions : (t.unpinAll gone).versions = (t.unpinAll gone').versions := by
    rw [versions_unpinAll h, versions_unpinAll h, hpins, floor_congr (t.unpinAll gone) (congrArg Pins.oldest? hpins)]
  have hsequence : (t.unpinAll gone).sequence = (t.unpinAll gone').sequence := by
    rw [sequence_unpinAll, sequence_unpinAll]
  cases hlast : t.unpinAll gone
  cases hlast' : t.unpinAll gone'
  rw [hlast, hlast'] at hpins hversions hsequence
  exact congr (congrArg₂ Timeline.mk hversions hpins) hsequence

end Timeline

/-- For any map that comes of changes of an empty one, with sequences and floors as they may be. Two sweeps leave what
one sweep at the higher of their floors leaves, and free together what it frees; a sweep frees as many versions as are
missing afterwards, and done again it frees none and changes nothing; any sweeps leave what one sweep at their highest
floor leaves; and when readers go, what is finally retained does not depend on the order in which they do. -/
theorem VersionMap.sweeps_compose (updates : List Update) :
    let m := empty.updateAll updates
    (∀ f g, ((m.sweep f).1.sweep g).1 = (m.sweep (max f g)).1 ∧
        (m.sweep f).2 + ((m.sweep f).1.sweep g).2 = (m.sweep (max f g)).2 ∧
        (m.sweep f).2 = m.versionCount - (m.sweep f).1.versionCount ∧
        ((m.sweep f).1.sweep g).2 = (m.sweep f).1.versionCount - ((m.sweep f).1.sweep g).1.versionCount) ∧
      (∀ f, (m.sweep f).1.versionCount ≤ m.versionCount ∧ (m.sweep f).1.sweep f = ((m.sweep f).1, 0)) ∧
      (∀ f (floors : List Sequence), (m.sweep f).1.updateAll (floors.map .sweep) = (m.sweep (floors.foldl max f)).1) ∧
      ∀ t : Timeline, t.versions = m → ∀ gone gone', gone.Perm gone' → t.unpinAll gone = t.unpinAll gone' := by
  intro m
  have hmarked : m.Marked := marked_empty.updateAll updates
  have hfreed : ∀ f g, (m.sweep f).2 + ((m.sweep f).1.sweep g).2 = (m.sweep (max f g)).2 := fun f g => by
    have hfirst := versionCount_sweep m f
    have hsecond := versionCount_sweep (m.sweep f).1 g
    have honce := versionCount_sweep m (max f g)
    rw [hmarked.sweep_sweep] at hsecond
    omega
  refine ⟨fun f g => ⟨hmarked.sweep_sweep f g, hfreed f g, ?_, ?_⟩, fun f => ⟨?_, ?_⟩, fun f floors => ?_,
    fun t ht gone gone' hperm => Timeline.unpinAll_of_perm (ht ▸ hmarked) hperm⟩
  · have hfirst := versionCount_sweep m f
    omega
  · have hsecond := versionCount_sweep (m.sweep f).1 g
    omega
  · have hfirst := versionCount_sweep m f
    omega
  · have hmax : max f f = f := if_pos (UInt64.le_refl f)
    have hsame : ((m.sweep f).1.sweep f).1 = (m.sweep f).1 := by rw [hmarked.sweep_sweep, hmax]
    have hnone : ((m.sweep f).1.sweep f).2 = 0 := by
      have hagain := hfreed f f
      rw [hmax] at hagain
      omega
    exact Prod.ext hsame hnone
  · induction floors generalizing f with
    | nil => rfl
    | cons g floors ih =>
      show ((m.sweep f).1.sweep g).1.updateAll (floors.map .sweep) = _
      rw [hmarked.sweep_sweep, ih, List.foldl_cons]

/-- The versions of one key are in no order, and another one was bound again after it had been erased. The reader that
goes last is the older one in the first run, and the younger one in the second. -/
theorem VersionMap.sweeps_compose_readers :
    let m := empty.updateAll [.insert [97] 5 (some [1]) 0, .insert [97] 3 (some [2]) 0, .insert [98] 4 none 0,
      .insert [98] 6 (some [3]) 0]
    let t : Timeline := ⟨m, ⟨[2, 4]⟩, 6⟩
    m.versionCount = 4 ∧ ((m.sweep 3).1.sweep 6).1 = (m.sweep 6).1 ∧ (m.sweep 3).2 = 1 ∧
      ((m.sweep 3).1.sweep 6).2 = 1 ∧ (m.sweep 6).2 = 2 ∧ (m.sweep 6).1.sweep 6 = ((m.sweep 6).1, 0) ∧
      [(4 : Sequence), 2].Perm [2, 4] ∧ t.unpinAll [4, 2] = t.unpinAll [2, 4] ∧
      (t.unpinAll [2, 4]).versions.chains.entries = [([97], [⟨3, some [2]⟩]), ([98], [⟨6, some [3]⟩])] := by
  intro m t
  obtain ⟨htwo, hagain, -, hreaders⟩ := sweeps_compose [.insert [97] 5 (some [1]) 0, .insert [97] 3 (some [2]) 0,
    .insert [98] 4 none 0, .insert [98] 6 (some [3]) 0]
  obtain ⟨hsame, hsum, -, -⟩ := htwo 3 6
  have hfirst : (m.sweep 3).2 = 1 := by decide
  have honce : (m.sweep 6).2 = 2 := by decide
  have hsecond : ((m.sweep 3).1.sweep 6).2 = 1 := by
    have hsum : (m.sweep 3).2 + ((m.sweep 3).1.sweep 6).2 = (m.sweep 6).2 := hsum
    omega
  have hperm : [(4 : Sequence), 2].Perm [2, 4] := by decide
  exact ⟨by decide, hsame, hfirst, hsecond, honce, (hagain 6).2, hperm, hreaders t rfl _ _ hperm,
    by decide⟩

end OrderedStore
