import Mathlib.Data.List.Induction
import OrderedStore.Proofs.VersionMap
import OrderedStore.Timeline.Cursor

/-!
# Timelines and their readers

The contents of a timeline are what a reader of the present sees. A pinned reader is never below the
floor, so neither commits nor sweeps change its view.

* `view_commit`, `view_unpin`: what pinned readers see;
* `contents_commit`, `contents_unpin`, `contents_ofRecords`: what a reader of the present sees.
-/

namespace OrderedStore.Timeline

/-- The map of values at the last commit. -/
def contents (t : Timeline) : Contents := t.versions.view t.sequence

/-! ## The floor -/

/-- What is at or below the floor is at or below every pin, and at or below the last commit. -/
theorem le_floor_iff {t : Timeline} {s latest : Sequence} :
    s ≤ t.floor latest ↔ s ≤ latest ∧ ∀ pinned ∈ t.pins.pinned, s ≤ pinned := by
  unfold floor
  split
  · rename_i hnone
    rw [Pins.oldest?, List.min?_eq_none_iff] at hnone
    simp only [hnone, List.not_mem_nil, false_implies, implies_true, and_true]
  · rename_i oldest hold
    obtain ⟨hmem, hleast⟩ := List.min?_eq_some_iff.mp hold
    split
    · rename_i hle
      exact ⟨fun hs => ⟨UInt64.le_trans hs hle, fun p hp => UInt64.le_trans hs (hleast p hp)⟩,
        fun ⟨_, hs⟩ => hs oldest hmem⟩
    · rename_i hgt
      have hlt : latest < oldest := UInt64.not_le.mp hgt
      refine ⟨fun hs => ⟨hs, fun p hp => ?_⟩, fun ⟨hs, _⟩ => hs⟩
      exact UInt64.le_trans hs (UInt64.le_trans (UInt64.le_of_lt hlt) (hleast p hp))

theorem floor_le (t : Timeline) (latest : Sequence) : t.floor latest ≤ latest :=
  (le_floor_iff.mp (UInt64.le_refl _)).1

/-- The floor is at or below every pin. -/
theorem floor_le_of_mem {t : Timeline} {s : Sequence} (h : s ∈ t.pins.pinned) (latest : Sequence) :
    t.floor latest ≤ s :=
  (le_floor_iff.mp (UInt64.le_refl _)).2 s h

/-- The floor depends on the oldest reader only. -/
theorem floor_congr {t : Timeline} (t' : Timeline) (h : t'.pins.oldest? = t.pins.oldest?) (latest : Sequence) :
    t'.floor latest = t.floor latest := by
  rw [floor, floor, h]

/-! ## Commits -/

theorem view_commit {t : Timeline} {s : Sequence} (h : s ∈ t.pins.pinned) {r : Record} (hs : s < r.seq) :
    (t.commit r).versions.view s = t.versions.view s :=
  VersionMap.view_apply_of_lt (floor_le_of_mem h _) hs _ _

theorem bounded_commit {t : Timeline} (h : t.versions.Bounded t.sequence) {r : Record} (hr : t.sequence ≤ r.seq) :
    (t.commit r).versions.Bounded (t.commit r).sequence :=
  (h.mono hr).apply (UInt64.le_refl _) _ _

theorem contents_commit {t : Timeline} (h : t.versions.Bounded t.sequence) {r : Record} (hr : t.sequence ≤ r.seq) :
    (t.commit r).contents = t.contents.writeAll r.operations := by
  rw [contents, contents, ← VersionMap.view_of_bounded h hr]
  exact VersionMap.view_apply_of_le (floor_le t _) (UInt64.le_refl _) _ _

/-! ## Readers that go -/

theorem pins_unpin (t : Timeline) (s : Sequence) : (t.unpin s).pins = t.pins.unpin s := by
  simp only [unpin]
  split <;> rfl

theorem sequence_unpin (t : Timeline) (s : Sequence) : (t.unpin s).sequence = t.sequence := by
  simp only [unpin]
  split <;> rfl

/-- The readers that stay do not see another one go. -/
theorem view_unpin {t : Timeline} {gone s : Sequence} (h : s ∈ (t.pins.unpin gone).pinned) :
    (t.unpin gone).versions.view s = t.versions.view s := by
  simp only [unpin]
  split
  · rfl
  · exact VersionMap.view_sweep (floor_le_of_mem h _) _

theorem contents_unpin (t : Timeline) (gone : Sequence) : (t.unpin gone).contents = t.contents := by
  simp only [contents, unpin]
  split
  · rfl
  · exact VersionMap.view_sweep (floor_le _ _) _

theorem bounded_unpin {t : Timeline} (h : t.versions.Bounded t.sequence) (gone : Sequence) :
    (t.unpin gone).versions.Bounded (t.unpin gone).sequence := by
  simp only [unpin]
  split
  · exact h
  · exact VersionMap.Bounded.sweep h _

/-! ## Replay -/

theorem sequence_le_replay (t : Timeline) (r : Record) :
    t.sequence ≤ (t.replay r).sequence ∧ r.seq ≤ (t.replay r).sequence := by
  simp only [replay]
  split
  · exact ⟨by assumption, UInt64.le_refl _⟩
  · rename_i h
    exact ⟨UInt64.le_refl _, UInt64.le_of_lt (UInt64.not_le.mp h)⟩

theorem bounded_replay {t : Timeline} (h : t.versions.Bounded t.sequence) (r : Record) :
    (t.replay r).versions.Bounded (t.replay r).sequence :=
  (h.mono (sequence_le_replay t r).1).apply (sequence_le_replay t r).2 _ _

theorem contents_replay {t : Timeline} (h : t.versions.Bounded t.sequence) (r : Record) :
    (t.replay r).contents = t.contents.writeAll r.operations := by
  obtain ⟨hle, hr⟩ := sequence_le_replay t r
  rw [contents, contents, ← VersionMap.view_of_bounded h hle]
  exact VersionMap.view_apply_of_le hr hr _ _

theorem ofRecords_append_singleton (rs : List Record) (r : Record) :
    ofRecords (rs ++ [r]) = (ofRecords rs).replay r := List.foldl_append

theorem sequence_replay_le {t : Timeline} {r : Record} (h : t.sequence ≤ r.seq) :
    (t.replay r).sequence ≤ r.seq := by
  rw [replay, if_pos h]
  exact UInt64.le_refl _

theorem sequence_ofRecords_le {rs : List Record} {s : Sequence} (h : ∀ r ∈ rs, r.seq ≤ s) :
    (ofRecords rs).sequence ≤ s := by
  induction rs using List.reverseRecOn with
  | nil => exact UInt64.zero_le
  | append_singleton rs r ih =>
    rw [ofRecords_append_singleton]
    simp only [replay]
    split
    · exact h r (List.mem_append_right _ List.mem_cons_self)
    · exact ih fun r hr => h r (List.mem_append_left _ hr)

theorem bounded_ofRecords (rs : List Record) : (ofRecords rs).versions.Bounded (ofRecords rs).sequence := by
  induction rs using List.reverseRecOn with
  | nil => exact VersionMap.bounded_empty _
  | append_singleton rs r ih =>
    rw [ofRecords_append_singleton]
    exact bounded_replay ih r

/-- A recovered timeline holds what the logged operations, in log order, make of an empty map. By induction
from the last record on. -/
theorem contents_ofRecords (rs : List Record) :
    (ofRecords rs).contents = KeyMap.empty.writeAll (rs.flatMap Record.operations) := by
  induction rs using List.reverseRecOn with
  | nil => rfl
  | append_singleton rs r ih =>
    rw [List.flatMap_append, KeyMap.writeAll_append, ← ih, ofRecords_append_singleton, List.flatMap_singleton]
    exact contents_replay (bounded_ofRecords rs) r

theorem pins_ofRecords (rs : List Record) : (ofRecords rs).pins = .empty := by
  induction rs using List.reverseRecOn with
  | nil => rfl
  | append_singleton rs r ih =>
    rw [ofRecords_append_singleton]
    exact ih

end OrderedStore.Timeline
