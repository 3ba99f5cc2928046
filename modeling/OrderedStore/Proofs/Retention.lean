import OrderedStore.Proofs.Collection
import OrderedStore.Proofs.Isolation

/-!
# Superseded versions are not retained

The floor of a timeline is its oldest pin, or the last commit if there is none. A commit prunes the keys
it touches, and a reader that goes has the stale keys swept if it was the oldest one; this is enough for
everything to go that can go, in every state, whatever readers come and go in whatever order.

* `Timeline.Collected`: nothing can go that the timeline keeps;
* `collected_commit`, `collected_pin`, `collected_unpin`: one lemma for each change of a timeline;
* `Session.collected_run`, `Session.versions_retained`: every state that is reached from an opened connection.
-/

namespace OrderedStore

namespace Timeline

/-- Nothing can go that the timeline keeps, as long as its pins stay. -/
def Collected (t : Timeline) : Prop := t.versions.Collected (t.floor t.sequence) t.sequence

variable {t : Timeline}

/-- The readers that hold the floor down are the same after a commit. -/
theorem collected_commit (h : t.Collected) {r : Record} (hr : t.sequence ≤ r.seq) : (t.commit r).Collected := by
  have hraised : t.versions.Collected (t.floor r.seq) t.sequence :=
    h.raise fun s hs hle => le_floor_iff.mpr ⟨hs, (le_floor_iff.mp hle).2⟩
  exact hraised.apply hr r.operations

/-- One more reader lowers the floor, if it changes it at all. -/
theorem collected_pin (h : t.Collected) (seq : Sequence) : (t.pin seq).Collected := by
  refine h.raise fun s hs hle => le_floor_iff.mpr ⟨hs, fun pinned hpinned => ?_⟩
  have hpins : ∀ pinned ∈ seq :: t.pins.pinned, s ≤ pinned := (le_floor_iff.mp hle).2
  exact hpins pinned (List.mem_cons_of_mem seq hpinned)

/-- When the oldest reader stays the floor stays, and when it goes everything above it is swept. -/
theorem collected_unpin (h : t.Collected) (seq : Sequence) : (t.unpin seq).Collected := by
  simp only [unpin]
  split
  · rename_i holdest
    have hfloor := floor_congr { t with pins := t.pins.unpin seq } holdest t.sequence
    rw [Collected, hfloor]
    exact h
  · exact h.toTracked.sweep _

theorem collected_ofRecords (rs : List Record) : (ofRecords rs).Collected :=
  (settled_ofRecords rs).collected _

/-- The floor when every reader is at or below the last commit. -/
theorem floor_sequence (h : ∀ s ∈ t.pins.pinned, s ≤ t.sequence) :
    t.floor t.sequence = t.pins.oldest?.getD t.sequence := by
  unfold floor
  split
  · rename_i hnone
    rw [hnone, Option.getD_none]
  · rename_i oldest hold
    have hle : oldest ≤ t.sequence := h oldest (List.min?_eq_some_iff.mp hold).1
    rw [if_pos hle, hold, Option.getD_some]

end Timeline

namespace Session

variable {σ : Type} [LogStorage σ]

variable {s : Session σ}

theorem collected_step (h : s.connection.timeline.Collected) {q : Request}
    (hseq : q.isWrite = true → s.connection.sequence.toNat < UInt64.size - 1) :
    (s.step q).2.connection.timeline.Collected := by
  rcases s.timeline_step q with ht | ⟨w, r, rfl, hr, ht⟩ | ⟨seq, ht⟩ | ⟨seq, ht⟩
  all_goals rw [ht]
  · exact h
  · have hlt : s.connection.timeline.sequence < r.seq :=
      (Write.record?_eq_some hr).1 ▸ lt_succ_sequence (hseq rfl)
    exact Timeline.collected_commit h (UInt64.le_of_lt hlt)
  · exact Timeline.collected_pin h seq
  · exact Timeline.collected_unpin h seq

/-- By induction on the events. That the pins are those of the readers is kept along with it. -/
theorem collected_run {events : List (Event σ)} (h : s.connection.timeline.Collected) (hpinned : s.Pinned)
    (hseq : s.WritesBelow events) :
    (s.run events).connection.timeline.Collected ∧ (s.run events).Pinned := by
  induction events generalizing s with
  | nil => exact ⟨h, hpinned⟩
  | cons event events ih =>
    cases event with
    | request q => exact ih (s := (s.step q).2) (collected_step h hseq.1) (agrees_step hpinned hseq.1).2 hseq.2
    | storage change => exact ih (s := s.next (.storage change)) h hpinned hseq.2

omit [LogStorage σ] in
/-- A session without readers has no pins. -/
theorem Pinned.pins_eq_nil (h : s.Pinned) (hgone : ∀ place ∈ s.readers, place = none) :
    s.connection.timeline.pins.pinned = [] := by
  have hnone : (Reader.seqs s.readers).reduceOption = [] := by
    refine List.eq_nil_iff_forall_not_mem.mpr fun seq hseq => ?_
    obtain ⟨place, hplace, heq⟩ := List.mem_map.mp (List.reduceOption_mem_iff.mp hseq)
    rw [hgone place hplace] at heq
    cases heq
  have hperm := h.pins
  rw [hnone] at hperm
  exact hperm.nil_eq.symm

/-- In every state of a session, of each key no more is kept than one version at or below the oldest pin and those
above it, in order, and not a mere tombstone at or below it; the stale keys are exactly those that hold more than a
value. Without readers, just the values of the live keys are kept. -/
theorem versions_retained {path : Option String} {options : EngineOptions} {log : σ} {c : Connection σ}
    (hopen : Connection.openOn path options log = .ok c) (events : List (Event σ))
    (hseq : (start c).WritesBelow events) :
    let s := (start c).run events
    let t := s.connection.timeline
    let floor := t.pins.oldest?.getD t.sequence
    (∀ key chain, t.versions.chains.get? key = some chain →
      chain ≠ [] ∧ chain.Pairwise (fun v w => v.seq < w.seq) ∧ (∀ v ∈ chain, v.seq ≤ t.sequence) ∧
        chain.countP (·.seq ≤ floor) ≤ 1 ∧ ∀ seq, seq ≤ floor → chain ≠ [⟨seq, none⟩]) ∧
      (∀ key, t.versions.stale.contains key = true ↔
        ∃ chain, t.versions.chains.get? key = some chain ∧ (1 < chain.length ∨ ∃ v ∈ chain, v.value = none)) ∧
      ((∀ place ∈ s.readers, place = none) →
        t.versions.stale = .empty ∧
          ∀ key, (t.versions.chains.get? key = none ∧ t.contents.get? key = none) ∨
            ∃ seq value, t.versions.chains.get? key = some [⟨seq, some value⟩] ∧ t.contents.get? key = some value) := by
  intro s t floor
  have hstart : (start c).connection.timeline.Collected := by
    obtain ⟨replay, log', -, -, -, rfl⟩ := Connection.openOn_eq_ok hopen
    exact Timeline.collected_ofRecords replay.records
  obtain ⟨hcollected, hpinned⟩ := collected_run hstart (pinned_start hopen) hseq
  have hfloor : t.floor t.sequence = floor :=
    Timeline.floor_sequence fun seq hseq => hpinned.le seq (hpinned.pins.symm.subset hseq)
  have hkept : t.versions.Collected floor t.sequence := hfloor ▸ hcollected
  refine ⟨fun key chain hchain => ?_, fun key => ?_, fun hgone => ?_⟩
  · have htight := hkept.tight key chain hchain
    refine ⟨hkept.ne_nil key chain hchain, hkept.increasing key chain hchain, hkept.bounded key chain hchain,
      htight.covered, fun seq hle heq => ?_⟩
    have hpresent := Chain.gone_eq_true_iff.mpr ⟨seq, hle, heq⟩
    exact absurd (htight.present.symm.trans hpresent) Bool.false_ne_true
  · rw [hkept.stale key, Option.any_eq_true]
    simp only [Chain.reclaimable_eq_true_iff]
  · have hnone : t.pins.oldest? = none := List.min?_eq_none_iff.mpr (hpinned.pins_eq_nil hgone)
    have hlast : floor = t.sequence := by
      show t.pins.oldest?.getD t.sequence = t.sequence
      rw [hnone, Option.getD_none]
    have hsettled : t.versions.Settled t.sequence := (hlast ▸ hkept).settled
    exact ⟨hsettled.stale, hsettled.view_cases⟩

/-- A key is erased, bound and erased again under readers of three sequences, which go in another order than they
came: the oldest, a cursor made of the view, the view. -/
theorem versions_retained_recovered :
    let log : MemoryLog := ⟨[66, 76, 79, 71, 1, 0, 1, 18, 0, 0, 0, 7, 0, 0, 0, 0, 0, 0, 0, 1, 0, 0, 0, 97, 1, 0, 0, 0,
      1, 225, 104, 124, 77]⟩
    let c : Connection MemoryLog := ⟨none, {}, .ofRecords [.put 7 [97] [1]], log, true⟩
    let events : List (Event MemoryLog) := [.openCursor, .write (.delete [97]), .openView, .write (.put [97] [2]),
      .openCursor, .write (.apply [.put [97] [3], .delete [97], .put [98] [4]]), .cursorOf 1, .dropReader 0,
      .dropReader 3, .dropReader 1, .dropReader 2].map .request
    Connection.openOn none {} log = .ok c ∧ (start c).WritesBelow events ∧
      (∀ place ∈ ((start c).run events).readers, place = none) ∧
      ((start c).run events).connection.timeline.versions.stale = .empty := by
  intro log c events
  have hopen : Connection.openOn none {} log = .ok c :=
    Connection.openOn_encodeLog (by decide +kernel) rfl (by decide)
  have hseq : (start c).WritesBelow events := by decide +kernel
  have hgone : ∀ place ∈ ((start c).run events).readers, place = none := by decide +kernel
  obtain ⟨-, -, hfree⟩ := versions_retained hopen events hseq
  exact ⟨hopen, hseq, hgone, (hfree hgone).1⟩

end Session

end OrderedStore
