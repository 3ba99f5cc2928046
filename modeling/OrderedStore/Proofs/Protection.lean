import OrderedStore.Proofs.Latest

/-!
# Readers that the floor protects

The floor is passed along with every write and every sweep, as a sequence below which no reader is. The readers at
or above it see what is written at or below them and nothing else of what happens to the versions. No order of the
sequences is needed for this, neither within a chain nor between a write, the floor and what was written before.

* `view_insert`, `view_apply`: the view of such a reader after a write and after a batch;
* `get?_apply`: what it finds of one key after a batch;
* `protected_readers_undisturbed`: writes, batches and sweeps of any version map.
-/

namespace OrderedStore.VersionMap

variable {floor s : Sequence}

/-- The readers at or above a write see the key bound to the new value, or no longer bound; the others see what they
saw before. -/
theorem view_insert (h : floor ≤ s) (m : VersionMap) (key : Bytes) (seq : Sequence) (value : Option Bytes) :
    (m.insert key seq value floor).view s =
      if seq ≤ s then value.elim ((m.view s).erase key) ((m.view s).insert key) else m.view s := by
  by_cases hs : seq ≤ s
  · rw [if_pos hs]
    cases value with
    | none => exact view_insert_of_le h hs m (.delete key)
    | some value => exact view_insert_of_le h hs m (.put key value)
  · rw [if_neg hs]
    exact view_insert_of_lt h (UInt64.not_le.mp hs) m key value

theorem view_apply (h : floor ≤ s) (m : VersionMap) (ops : List Operation) (seq : Sequence) :
    (m.apply ops seq floor).view s = if seq ≤ s then (m.view s).writeAll ops else m.view s := by
  by_cases hs : seq ≤ s
  · rw [if_pos hs, view_apply_of_le h hs]
  · rw [if_neg hs, view_apply_of_lt h (UInt64.not_le.mp hs)]

/-- The readers at or above a batch find what its last operation on a key leaves. -/
theorem get?_apply (h : floor ≤ s) (m : VersionMap) (ops : List Operation) (seq : Sequence) (key : Bytes) :
    (m.apply ops seq floor).get? key s =
      if seq ≤ s then (Operation.lastOn? ops key).elim (m.get? key s) Operation.value? else m.get? key s := by
  rw [← get?_view, view_apply h, ← get?_view]
  split
  · exact KeyMap.get?_writeAll ..
  · rfl

/-- For any version map, and a reader at or above the floor. After a write it finds the new value of the key, or none,
if it is at or above the write, and what it found before otherwise; of every other key it finds what it found before. A
sweep is not seen at all. All entries that it sees change with what it finds. A batch is its writes one after the
other, and of a key the last one counts. -/
theorem protected_readers_undisturbed (m : VersionMap) (h : floor ≤ s) :
    (∀ key seq value,
      (m.insert key seq value floor).get? key s = (if seq ≤ s then value else m.get? key s) ∧
        (∀ k, k ≠ key → (m.insert key seq value floor).get? k s = m.get? k s) ∧
        (m.insert key seq value floor).live s =
          if seq ≤ s then (value.elim ((m.view s).erase key) ((m.view s).insert key)).entries else m.live s) ∧
      (∀ key, (m.sweep floor).1.get? key s = m.get? key s) ∧ (m.sweep floor).1.live s = m.live s ∧
      ∀ ops seq,
        m.apply ops seq floor = ops.foldl (fun m op => m.insert op.key seq op.value? floor) m ∧
          (∀ key, (m.apply ops seq floor).get? key s =
            if seq ≤ s then (Operation.lastOn? ops key).elim (m.get? key s) Operation.value? else m.get? key s) ∧
          (m.apply ops seq floor).live s = if seq ≤ s then ((m.view s).writeAll ops).entries else m.live s := by
  refine ⟨fun key seq value => ⟨?_, fun k hk => ?_, ?_⟩, fun key => ?_, ?_, fun ops seq => ⟨rfl, fun key => ?_, ?_⟩⟩
  · rw [get?_insert h, if_pos rfl]
  · rw [get?_insert h, if_neg hk]
  · have hview := congrArg KeyMap.entries (view_insert h m key seq value)
    rwa [apply_ite KeyMap.entries] at hview
  · rw [← get?_view, view_sweep h, get?_view]
  · exact congrArg KeyMap.entries (view_sweep h m)
  · exact get?_apply h m ops seq key
  · have hview := congrArg KeyMap.entries (view_apply h m ops seq)
    rwa [apply_ite KeyMap.entries] at hview

/-- A reader at 5, of a map with versions at 5, at 3, and at 7 in one chain, which the floor has no order with: a
tombstone at 4, a value at 6, a batch at 2, a sweep. -/
theorem protected_readers_undisturbed_unordered :
    let m : VersionMap := ((empty.insert [97] 5 (some [1]) 0).insert [97] 3 (some [2]) 0).insert [97] 7 (some [3]) 0
    (4 : Sequence) ≤ 5 ∧ m.get? [97] 5 = some [2] ∧ (m.insert [97] 4 none 4).get? [97] 5 = none ∧
      (m.insert [97] 6 (some [4]) 4).get? [97] 5 = some [2] ∧ (m.insert [98] 2 (some [5]) 4).get? [97] 5 = some [2] ∧
      (m.sweep 4).1.get? [97] 5 = some [2] ∧
      (m.apply [.put [97] [6], .put [98] [7], .delete [97]] 2 4).live 5 = [([98], [7])] := by
  intro m
  have hle : (4 : Sequence) ≤ 5 := by decide
  have hfound : m.get? [97] 5 = some [2] := by decide
  obtain ⟨hinsert, hsweep, -, hbatch⟩ := protected_readers_undisturbed m hle
  exact ⟨hle, hfound, (hinsert [97] 4 none).1, (hinsert [97] 6 (some [4])).1.trans hfound,
    ((hinsert [98] 2 (some [5])).2.1 [97] (by decide)).trans hfound, (hsweep [97]).trans hfound,
    (hbatch [.put [97] [6], .put [98] [7], .delete [97]] 2).2.2.trans (by decide)⟩

end OrderedStore.VersionMap
