import OrderedStore.Proofs.Collection

/-!
# The last operation on each key

The operations of a batch share one sequence, and the last one on a key is all that is left of those on this
key: not only what readers see, but every version that is kept and every stale key. This holds for any chains,
and for a floor on either side of the sequence.

* `Operation.latest`: the operations of a batch that are not followed by another one on their key;
* `KeyMap.get?_writeAll`: a map of values after a batch;
* `Chain.rest?_write_rest?`: a key is written twice at one sequence, and may be gone in between;
* `VersionMap.chains_apply`, `stale_apply`: one key after a batch;
* `VersionMap.apply_eq_of_perm_latest`: the last operations alone, in any order.
-/

namespace OrderedStore

/-! ## Operations -/

namespace Operation

/-- The last operation on a key. -/
def lastOn? (ops : List Operation) (key : Bytes) : Option Operation := ops.reverse.find? (·.key = key)

/-- The operations that are not followed by another one on their key. -/
def latest : List Operation → List Operation
  | [] => []
  | op :: ops => if ops.any (·.key = op.key) then latest ops else op :: latest ops

variable {ops ops' : List Operation} {op : Operation} {key : Bytes}

theorem lastOn?_concat (ops : List Operation) (op : Operation) (key : Bytes) :
    lastOn? (ops ++ [op]) key = if key = op.key then some op else lastOn? ops key := by
  rw [lastOn?, List.reverse_append, List.reverse_singleton, List.singleton_append, List.find?_cons]
  by_cases hkey : key = op.key
  · rw [decide_eq_true hkey.symm, if_pos hkey]
  · rw [decide_eq_false (Ne.symm hkey), if_neg hkey]
    rfl

theorem lastOn?_cons (op : Operation) (ops : List Operation) (key : Bytes) :
    lastOn? (op :: ops) key = (lastOn? ops key).or (if key = op.key then some op else none) := by
  rw [lastOn?, List.reverse_cons, List.find?_append]
  congr 1
  rw [List.find?_singleton]
  by_cases hkey : key = op.key
  · rw [if_pos hkey, if_pos (decide_eq_true hkey.symm)]
  · rw [if_neg hkey, if_neg (by simpa using Ne.symm hkey)]

theorem lastOn?_eq_none_iff : lastOn? ops key = none ↔ ∀ op ∈ ops, op.key ≠ key := by
  simp only [lastOn?, List.find?_eq_none, List.mem_reverse, decide_eq_true_eq, ne_eq]

theorem key_of_lastOn? (h : lastOn? ops key = some op) : op.key = key := by
  simpa using List.find?_some h

theorem mem_of_lastOn? (h : lastOn? ops key = some op) : op ∈ ops :=
  List.mem_reverse.mp (List.mem_of_find?_eq_some h)

theorem latest_sublist (ops : List Operation) : (latest ops).Sublist ops := by
  induction ops with
  | nil => exact .slnil
  | cons op ops ih =>
    rw [latest]
    split
    · exact ih.cons op
    · exact ih.cons_cons op

/-- What is left of the operations on a key is the last one. -/
theorem mem_latest_iff : op ∈ latest ops ↔ lastOn? ops op.key = some op := by
  induction ops with
  | nil => exact ⟨(nomatch ·), (nomatch ·)⟩
  | cons first ops ih =>
    rw [latest, lastOn?_cons]
    by_cases hany : ops.any (·.key = first.key) = true
    · obtain ⟨later, hlater, hkey⟩ := List.any_eq_true.mp hany
      rw [if_pos hany, ih]
      cases hlast : lastOn? ops op.key with
      | some last => rw [Option.some_or]
      | none =>
        have hne : op.key ≠ first.key := fun heq =>
          lastOn?_eq_none_iff.mp hlast later hlater ((of_decide_eq_true hkey).trans heq.symm)
        rw [if_neg hne]
        rfl
    · have hnone : lastOn? ops first.key = none := lastOn?_eq_none_iff.mpr fun later hlater hkey =>
        hany (List.any_eq_true.mpr ⟨later, hlater, decide_eq_true hkey⟩)
      rw [if_neg hany, List.mem_cons, ih]
      by_cases hkey : op.key = first.key
      · rw [hkey, hnone, Option.none_or, if_pos rfl, Option.some.injEq, eq_comm (a := first)]
        simp only [reduceCtorEq, or_false]
      · rw [if_neg hkey, Option.or_none]
        exact ⟨fun h => h.resolve_left fun heq => hkey (congrArg Operation.key heq), .inr⟩

theorem nodup_keys_latest (ops : List Operation) : ((latest ops).map Operation.key).Nodup := by
  induction ops with
  | nil => exact .nil
  | cons op ops ih =>
    rw [latest]
    split
    · exact ih
    · rename_i hany
      refine List.nodup_cons.mpr ⟨fun hmem => hany ?_, ih⟩
      obtain ⟨later, hlater, hkey⟩ := List.mem_map.mp hmem
      exact List.any_eq_true.mpr ⟨later, (latest_sublist ops).subset hlater, decide_eq_true hkey⟩

/-- Of operations on different keys the last one on a key is the only one. -/
theorem lastOn?_eq_some_iff_of_nodup (h : (ops.map Operation.key).Nodup) :
    lastOn? ops key = some op ↔ op ∈ ops ∧ op.key = key := by
  refine ⟨fun hlast => ⟨mem_of_lastOn? hlast, key_of_lastOn? hlast⟩, ?_⟩
  rintro ⟨hop, rfl⟩
  cases hlast : lastOn? ops op.key with
  | none => exact absurd rfl (lastOn?_eq_none_iff.mp hlast op hop)
  | some last => rw [List.inj_on_of_nodup_map h (mem_of_lastOn? hlast) hop (key_of_lastOn? hlast)]

theorem lastOn?_of_perm_latest (h : ops'.Perm (latest ops)) (key : Bytes) : lastOn? ops' key = lastOn? ops key := by
  have hnodup : (ops'.map Operation.key).Nodup := (h.map Operation.key).nodup_iff.mpr (nodup_keys_latest ops)
  refine Option.ext fun op => ?_
  rw [lastOn?_eq_some_iff_of_nodup hnodup, h.mem_iff, mem_latest_iff]
  constructor
  · rintro ⟨hlast, rfl⟩
    exact hlast
  · intro hlast
    obtain rfl := key_of_lastOn? hlast
    exact ⟨hlast, rfl⟩

end Operation

/-- What a map of values holds of a key after a batch is what its last operation on this key leaves. -/
theorem KeyMap.get?_writeAll (m : Contents) (ops : List Operation) (key : Bytes) :
    (m.writeAll ops).get? key = (Operation.lastOn? ops key).elim (m.get? key) Operation.value? := by
  induction ops using List.reverseRecOn with
  | nil => rfl
  | append_singleton ops op ih =>
    rw [writeAll_append, Operation.lastOn?_concat]
    refine (get?_write (m.writeAll ops) op key).trans ?_
    rw [ih]
    split <;> rfl

/-! ## One key -/

namespace Chain

/-- Which of the versions are dropped does not depend on the value that is written last, and dropping them again
drops no more. -/
theorem prune_concat (floor seq : Sequence) (older : Chain) : ∃ front : Chain, ∀ value,
    prune floor (older ++ [⟨seq, value⟩]) = front ++ [⟨seq, value⟩] ∧
      prune floor (front ++ [⟨seq, value⟩]) = front ++ [⟨seq, value⟩] := by
  induction older with
  | nil => exact ⟨[], fun _ => ⟨rfl, rfl⟩⟩
  | cons v older ih =>
    have hany : ∀ value, (older ++ [(⟨seq, value⟩ : Version)]).any (·.seq ≤ floor) =
        (older.any (·.seq ≤ floor) || decide (seq ≤ floor)) := fun value => by
      rw [List.any_append, List.any_cons, List.any_nil, Bool.or_false]
    by_cases hcovered : (older.any (·.seq ≤ floor) || decide (seq ≤ floor)) = true
    · obtain ⟨front, hfront⟩ := ih
      refine ⟨front, fun value => ⟨?_, (hfront value).2⟩⟩
      rw [List.cons_append, prune, hany, if_pos hcovered]
      exact (hfront value).1
    · have hkept : ∀ value, prune floor (v :: older ++ [⟨seq, value⟩]) = v :: older ++ [⟨seq, value⟩] := fun value => by
        rw [List.cons_append, prune, hany, if_neg hcovered]
      exact ⟨v :: older, fun value => ⟨hkept value, hkept value⟩⟩

/-- A write stands behind the same versions, whatever is written. -/
theorem exists_write_eq (seq : Sequence) (c : Chain) :
    ∃ older : Chain, ∀ value, c.write seq value = older ++ [⟨seq, value⟩] := by
  rcases List.eq_nil_or_concat c with rfl | ⟨front, v, rfl⟩
  · exact ⟨[], fun _ => rfl⟩
  · rw [List.concat_eq_append]
    by_cases hseq : v.seq = seq
    · exact ⟨front, fun value => by rw [write_append_singleton, if_pos hseq]⟩
    · exact ⟨front ++ [v], fun value => by rw [write_append_singleton, if_neg hseq, List.append_assoc]; rfl⟩

/-- Of two writes of one sequence the second is all that is left, even if the key was gone after the first. -/
theorem rest?_write_rest? (floor seq : Sequence) (value value' : Option Bytes) (c : Chain) :
    ((((c.write seq value).rest? floor).getD []).write seq value').rest? floor =
      (c.write seq value').rest? floor := by
  obtain ⟨older, hwrite⟩ := exists_write_eq seq c
  obtain ⟨front, hfront⟩ := prune_concat floor seq older
  have hagain : rest? floor (front ++ [⟨seq, value'⟩]) = rest? floor (older ++ [⟨seq, value'⟩]) :=
    rest?_congr ((hfront value').2.trans (hfront value').1.symm)
  have hfirst : rest? floor (older ++ [⟨seq, value⟩]) =
      if gone floor (front ++ [⟨seq, value⟩]) then none else some (front ++ [⟨seq, value⟩]) := by
    rw [rest?, (hfront value).1]
  rw [hwrite, hwrite, hfirst]
  split
  · -- the first write was a tombstone that went, and nothing stood in front of it
    rename_i hgone
    obtain ⟨seq', -, hsingle⟩ := gone_eq_true_iff.mp hgone
    have hnil : front = [] := by
      have hlength := congrArg List.length hsingle
      rw [List.length_append] at hlength
      exact List.eq_nil_of_length_eq_zero (by simpa using hlength)
    subst hnil
    exact hagain
  · rw [Option.getD_some, write_append_singleton, if_pos rfl]
    exact hagain

end Chain

/-! ## All keys -/

namespace VersionMap

variable {ops ops' : List Operation}

theorem apply_concat (m : VersionMap) (ops : List Operation) (op : Operation) (seq floor : Sequence) :
    m.apply (ops ++ [op]) seq floor = (m.apply ops seq floor).insert op.key seq op.value? floor :=
  List.foldl_append

/-- The versions of a key after a batch are those after its last operation on this key. By induction from the last
operation on. -/
theorem chains_apply (m : VersionMap) (ops : List Operation) (seq floor : Sequence) (key : Bytes) :
    (m.apply ops seq floor).chains.get? key =
      match Operation.lastOn? ops key with
      | none => m.chains.get? key
      | some op => (((m.chains.get? key).getD []).write seq op.value?).rest? floor := by
  induction ops using List.reverseRecOn with
  | nil => rfl
  | append_singleton ops op ih =>
    rw [apply_concat, chains_insert, Operation.lastOn?_concat]
    by_cases hkey : key = op.key
    · subst hkey
      rw [if_pos rfl, if_pos rfl, ih]
      cases Operation.lastOn? ops op.key with
      | none => rfl
      | some earlier => exact Chain.rest?_write_rest? floor seq earlier.value? op.value? _
    · rw [if_neg hkey, if_neg hkey, ih]

/-- A key that a batch touches is stale after it if a higher floor could drop more of its versions. -/
theorem stale_apply (m : VersionMap) (ops : List Operation) (seq floor : Sequence) (key : Bytes) :
    (m.apply ops seq floor).stale.contains key =
      match Operation.lastOn? ops key with
      | none => m.stale.contains key
      | some _ => ((m.apply ops seq floor).chains.get? key).any Chain.reclaimable := by
  induction ops using List.reverseRecOn with
  | nil => rfl
  | append_singleton ops op ih =>
    rw [apply_concat, stale_insert, chains_insert, Operation.lastOn?_concat]
    by_cases hkey : key = op.key
    · rw [if_pos hkey, if_pos hkey, if_pos hkey]
    · rw [if_neg hkey, if_neg hkey, if_neg hkey, ih]

/-- A batch leaves the same versions of every key, and the same stale keys, as its last operation on each key alone,
in any order. -/
theorem apply_eq_of_perm_latest (m : VersionMap) (seq floor : Sequence) (h : ops'.Perm (Operation.latest ops)) :
    m.apply ops' seq floor = m.apply ops seq floor := by
  have hlast := Operation.lastOn?_of_perm_latest h
  have hchains : (m.apply ops' seq floor).chains = (m.apply ops seq floor).chains :=
    KeyMap.ext_get? fun key => by rw [chains_apply, chains_apply, hlast]
  have hstale : (m.apply ops' seq floor).stale = (m.apply ops seq floor).stale :=
    KeyMap.ext_contains fun key => by rw [stale_apply, stale_apply, hlast, hchains]
  exact VersionMap.ext hchains hstale

/-- Of a key whose versions are not in order the batch erases one and binds it again, and another key it binds and
erases: with the floor below its sequence, and with the floor above it, where the first key is gone in between. -/
theorem apply_eq_of_perm_latest_unordered :
    let m : VersionMap := ((empty.insert [97] 5 (some [1]) 0).insert [97] 3 (some [2]) 0).insert [97] 6 none 0
    let ops : List Operation := [.delete [97], .put [98] [3], .put [97] [4], .delete [98]]
    let ops' : List Operation := [.delete [98], .put [97] [4]]
    ops'.Perm (Operation.latest ops) ∧ m.apply ops' 4 3 = m.apply ops 4 3 ∧ m.apply ops' 4 9 = m.apply ops 4 9 ∧
      (m.apply ops 4 3).chains.get? [97] = some [⟨3, some [2]⟩, ⟨6, none⟩, ⟨4, some [4]⟩] ∧
      (m.apply ops 4 3).stale.keys = [[97], [98]] ∧ (m.apply ops 4 9).chains.entries = [([97], [⟨4, some [4]⟩])] := by
  intro m ops ops'
  have hperm : ops'.Perm (Operation.latest ops) := by decide
  exact ⟨hperm, apply_eq_of_perm_latest m 4 3 hperm, apply_eq_of_perm_latest m 4 9 hperm, by decide, by decide,
    by decide⟩

end VersionMap

end OrderedStore
