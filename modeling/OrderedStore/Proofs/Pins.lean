import Mathlib.Data.List.ReduceOption
import OrderedStore.Proofs.Timeline

/-!
# The pins of the readers that are held

Readers are held in places, and a reader that has gone leaves its place empty. A timeline guards the
readers if its pins are exactly theirs and none of them is above the last commit. Every change of a
timeline keeps this, and keeps what the readers see that stay.

* `Pins.perm_pin`, `Pins.perm_unpin`: the pins are those of the places when one is added or emptied;
* `Guards.commit`, `view_commit_of_guards`: a record is published;
* `Guards.pin`: a reader comes; `Guards.unpin`, `view_unpin_of_guards`: a reader goes.
-/

namespace OrderedStore

namespace Pins

theorem perm_cons_reduceOption_set {α : Type} {l : List (Option α)} {n : Nat} {a : α} (h : l[n]? = some (some a)) :
    l.reduceOption.Perm (a :: (l.set n none).reduceOption) := by
  induction l generalizing n with
  | nil => cases h
  | cons b l ih =>
    cases n with
    | zero =>
      cases h
      exact .refl _
    | succ n =>
      have := ih h
      cases b with
      | none => exact this
      | some b =>
        rw [List.set_cons_succ, List.reduceOption_cons_of_some, List.reduceOption_cons_of_some]
        exact (this.cons b).trans (.swap a b _)

variable {p : Pins} {seqs : List (Option Sequence)}

theorem perm_pin (h : seqs.reduceOption.Perm p.pinned) (s : Sequence) :
    (seqs ++ [some s]).reduceOption.Perm (p.pin s).pinned := by
  rw [List.reduceOption_append, List.reduceOption_singleton]
  exact (List.perm_append_singleton s _).trans (h.cons s)

theorem perm_unpin (h : seqs.reduceOption.Perm p.pinned) {n : Nat} {s : Sequence} (hn : seqs[n]? = some (some s)) :
    (seqs.set n none).reduceOption.Perm (p.unpin s).pinned := by
  have := ((perm_cons_reduceOption_set hn).symm.trans h).erase s
  rwa [List.erase_cons_head] at this

end Pins

namespace Timeline

/-- The readers held are at the sequences `seqs`, and the timeline keeps what they see. -/
structure Guards (t : Timeline) (seqs : List (Option Sequence)) : Prop where
  /-- No version is above the last commit. -/
  bounded : t.versions.Bounded t.sequence
  /-- Every reader has a pin of its own, and there are no other pins. -/
  pins : seqs.reduceOption.Perm t.pins.pinned
  /-- No reader is above the last commit. -/
  le : ∀ s ∈ seqs.reduceOption, s ≤ t.sequence

variable {t : Timeline} {seqs : List (Option Sequence)}

/-- A timeline that has just been recovered has no readers to guard. -/
theorem guards_ofRecords (rs : List Record) : (ofRecords rs).Guards [] where
  bounded := bounded_ofRecords rs
  pins := by
    rw [pins_ofRecords]
    exact .refl _
  le s hs := nomatch hs

theorem Guards.commit (h : t.Guards seqs) {r : Record} (hr : t.sequence < r.seq) : (t.commit r).Guards seqs where
  bounded := bounded_commit h.bounded (UInt64.le_of_lt hr)
  pins := h.pins
  le s hs := UInt64.le_trans (h.le s hs) (UInt64.le_of_lt hr)

theorem view_commit_of_guards (h : t.Guards seqs) {r : Record} (hr : t.sequence < r.seq) {s : Sequence}
    (hs : s ∈ seqs.reduceOption) : (t.commit r).versions.view s = t.versions.view s :=
  view_commit (h.pins.subset hs) (UInt64.lt_of_le_of_lt (h.le s hs) hr)

theorem Guards.pin (h : t.Guards seqs) {s : Sequence} (hs : s ≤ t.sequence) :
    (t.pin s).Guards (seqs ++ [some s]) where
  bounded := h.bounded
  pins := Pins.perm_pin h.pins s
  le s' hs' := by
    rw [List.reduceOption_append, List.reduceOption_singleton, List.mem_append] at hs'
    rcases hs' with hs' | hs'
    · exact h.le s' hs'
    · exact List.mem_singleton.mp hs' ▸ hs

theorem Guards.unpin (h : t.Guards seqs) {n : Nat} {s : Sequence} (hn : seqs[n]? = some (some s)) :
    (t.unpin s).Guards (seqs.set n none) where
  bounded := bounded_unpin h.bounded s
  pins := by
    rw [pins_unpin]
    exact Pins.perm_unpin h.pins hn
  le s' hs' := by
    rw [sequence_unpin]
    exact h.le s' ((Pins.perm_cons_reduceOption_set hn).symm.subset (List.mem_cons_of_mem s hs'))

theorem view_unpin_of_guards (h : t.Guards seqs) {n : Nat} {s s' : Sequence} (hn : seqs[n]? = some (some s))
    (hs' : s' ∈ (seqs.set n none).reduceOption) : (t.unpin s).versions.view s' = t.versions.view s' :=
  view_unpin ((Pins.perm_unpin h.pins hn).subset hs')

end Timeline

end OrderedStore
