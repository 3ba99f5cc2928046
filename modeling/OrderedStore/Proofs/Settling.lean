import OrderedStore.Proofs.Recovery

/-!
# What replay leaves behind

A log is replayed record by record, and every record is written as if no reader were below it. Whatever
the sequences of the records are, in whatever order, this leaves one version of each key that is held,
a value, and nothing that could go later.

* `Settled`: one value for each key, and no stale keys;
* `Settled.insert`, `Settled.apply`, `Timeline.settled_ofRecords`: what keeps a version map settled;
* `Timeline.sequence_ofRecords`: the last commit of a replayed log is its largest sequence;
* `Connection.openOn_replays_log_order`: what a connection holds that has been opened on any bytes.
-/

namespace OrderedStore

namespace VersionMap

/-- One version of each key is kept, a value at or below `last`, and no key is stale. -/
structure Settled (m : VersionMap) (last : Sequence) : Prop where
  single : ∀ key chain, m.chains.get? key = some chain → ∃ seq value, seq ≤ last ∧ chain = [⟨seq, some value⟩]
  stale : m.stale = .empty

theorem settled_empty (last : Sequence) : empty.Settled last where
  single _ _ h := nomatch h
  stale := rfl

theorem Settled.mono {m : VersionMap} {last last' : Sequence} (h : m.Settled last) (hle : last ≤ last') :
    m.Settled last' where
  single key chain hchain := by
    obtain ⟨seq, value, hseq, heq⟩ := h.single key chain hchain
    exact ⟨seq, value, UInt64.le_trans hseq hle, heq⟩
  stale := h.stale

/-- A write below which nobody is replaces all that was kept of its key. -/
theorem insert_self (m : VersionMap) (key : Bytes) (seq : Sequence) (value : Option Bytes) :
    m.insert key seq value seq =
      match value with
      | none => ⟨m.chains.erase key, m.stale.erase key⟩
      | some v => ⟨m.chains.insert key [⟨seq, some v⟩], m.stale.erase key⟩ := by
  cases value with
  | none =>
    have hgone : Chain.gone seq [⟨seq, none⟩] = true := decide_eq_true (UInt64.le_refl seq)
    simp only [VersionMap.insert, Chain.prune_write, hgone, if_true]
  | some v =>
    simp only [VersionMap.insert, Chain.prune_write]
    rfl

theorem Settled.insert {m : VersionMap} {last : Sequence} (h : m.Settled last) {seq : Sequence} (hseq : seq ≤ last)
    (key : Bytes) (value : Option Bytes) : (m.insert key seq value seq).Settled last := by
  have hstale : m.stale.erase key = .empty := by
    rw [h.stale]
    rfl
  rw [insert_self]
  cases value with
  | none =>
    refine ⟨fun k chain hchain => ?_, hstale⟩
    rw [KeyMap.get?_erase] at hchain
    split at hchain
    · cases hchain
    · exact h.single k chain hchain
  | some v =>
    refine ⟨fun k chain hchain => ?_, hstale⟩
    rw [KeyMap.get?_insert] at hchain
    split at hchain
    · cases hchain
      exact ⟨seq, v, hseq, rfl⟩
    · exact h.single k chain hchain

theorem Settled.apply {m : VersionMap} {last : Sequence} (h : m.Settled last) {seq : Sequence} (hseq : seq ≤ last)
    (ops : List Operation) : (m.apply ops seq seq).Settled last := by
  induction ops generalizing m with
  | nil => exact h
  | cons op ops ih => exact ih (h.insert hseq op.key op.value?)

/-- Each key is bound to the one value that is kept of it, and the other keys are not there. -/
theorem Settled.view_cases {m : VersionMap} {last : Sequence} (h : m.Settled last) (key : Bytes) :
    (m.chains.get? key = none ∧ (m.view last).get? key = none) ∨
      ∃ seq value, m.chains.get? key = some [⟨seq, some value⟩] ∧ (m.view last).get? key = some value := by
  rw [get?_view, get?]
  cases hchain : m.chains.get? key with
  | none => exact .inl ⟨rfl, rfl⟩
  | some chain =>
    obtain ⟨seq, value, hle, rfl⟩ := h.single key chain hchain
    refine .inr ⟨seq, value, rfl, ?_⟩
    have hselect : Chain.select last [⟨seq, some value⟩] = some ⟨seq, some value⟩ :=
      Chain.select_of_forall_le fun v hv => List.mem_singleton.mp hv ▸ hle
    rw [Option.bind_some, Chain.visible, hselect, Option.bind_some]

end VersionMap

namespace Timeline

theorem settled_replay {t : Timeline} (h : t.versions.Settled t.sequence) (r : Record) :
    (t.replay r).versions.Settled (t.replay r).sequence := by
  obtain ⟨hle, hr⟩ := sequence_le_replay t r
  exact (h.mono hle).apply hr r.operations

/-- By induction from the last record on: no order of the sequences is needed. -/
theorem settled_ofRecords (rs : List Record) : (ofRecords rs).versions.Settled (ofRecords rs).sequence := by
  induction rs using List.reverseRecOn with
  | nil => exact VersionMap.settled_empty _
  | append_singleton rs r ih =>
    rw [ofRecords_append_singleton]
    exact settled_replay ih r

theorem sequence_ofRecords (rs : List Record) : (ofRecords rs).sequence = (rs.map Record.seq).max?.getD 0 := by
  have hfold : (ofRecords rs).sequence = (rs.map Record.seq).foldl max 0 := by
    rw [List.foldl_map]
    exact (List.foldl_hom Timeline.sequence fun t r => rfl).symm
  rw [hfold]
  cases rs with
  | nil => rfl
  | cons r rs =>
    have hzero : max 0 r.seq = r.seq := if_pos UInt64.zero_le
    rw [List.map_cons, List.max?_cons', List.foldl_cons, hzero]
    rfl

end Timeline

namespace Connection

open LogStorage

/-- Whatever bytes a log holds, and whatever the sequences of its records are, opening it carries out the logged
operations in log order on an empty map, stands at the largest sequence, and keeps of each key that is bound the
value that it is bound to and nothing else. -/
theorem openOn_replays_log_order {σ : Type} [LogStorage σ] {holds : σ → Bytes → Prop} (h : Faithful holds) {log : σ}
    {data : Bytes} (hs : holds log data) (path : Option String) {options : EngineOptions}
    (hvalid : options.validate = .ok ()) (hlenient : options.paranoidChecks = false) :
    ∃ c, openOn path options log = .ok c ∧
      let records := (Replay.read data).records
      c.timeline.contents = KeyMap.empty.writeAll (records.flatMap Record.operations) ∧
      (∀ key, c.get key = .ok ((KeyMap.empty.writeAll (records.flatMap Record.operations)).get? key)) ∧
      c.sequence = (records.map Record.seq).max?.getD 0 ∧
      (∀ key chain, c.timeline.versions.chains.get? key = some chain →
        ∃ seq value, seq ≤ c.sequence ∧ chain = [⟨seq, some value⟩]) ∧
      c.timeline.versions.stale = .empty := by
  obtain ⟨c, hopen⟩ := exists_openOn h hs path hvalid (.inl hlenient)
  obtain ⟨-, htimeline, hisOpen⟩ := holds_openOn h.toLawful hs hopen
  have hcontents : c.timeline.contents =
      KeyMap.empty.writeAll ((Replay.read data).records.flatMap Record.operations) := by
    rw [htimeline, Timeline.contents_ofRecords]
  have hsettled : c.timeline.versions.Settled c.sequence := by
    rw [sequence, htimeline]
    exact Timeline.settled_ofRecords _
  refine ⟨c, hopen, hcontents, fun key => ?_, ?_, hsettled.single, hsettled.stale⟩
  · rw [get_of_isOpen hisOpen, hcontents]
  · rw [sequence, htimeline, Timeline.sequence_ofRecords]

/-- A key that is written below its former sequence, erased and bound in one batch, and bound again at an equal
sequence, in front of a torn frame: the last write of each key is what counts. -/
theorem openOn_replays_log_order_descending :
    let front : Bytes := [66, 76, 79, 71, 1, 0, 1, 18, 0, 0, 0, 7, 0, 0, 0, 0, 0, 0, 0, 1, 0, 0, 0, 97, 1, 0, 0, 0,
      1, 225, 104, 124, 77, 66, 76, 79, 71, 1, 0, 3, 29, 0, 0, 0, 3, 0, 0, 0, 0, 0, 0, 0, 2, 0, 0, 0, 1, 1, 0, 0, 0, 98,
      1, 0, 0, 0, 2, 2, 1, 0, 0, 0, 97, 198, 161, 106, 82, 66, 76, 79, 71, 1, 0, 1, 18, 0, 0, 0, 3, 0, 0, 0, 0, 0, 0, 0,
      1, 0, 0, 0, 98, 1, 0, 0, 0, 4, 198, 57, 42, 176]
    let log : MemoryLog := ⟨front ++ [66, 76, 79]⟩
    let options : EngineOptions := {}
    options.validate = .ok () ∧ options.paranoidChecks = false ∧
      ∃ c, openOn none options log = .ok c ∧ c.get [97] = .ok none ∧ c.get [98] = .ok (some [4]) ∧ c.sequence = 7 ∧
        c.timeline.versions.stale = .empty := by
  intro front log options
  have hfront : encodeLog [.put 7 [97] [1], .batch 3 [.put [98] [2], .delete [97]], .put 3 [98] [4]] = .ok front := by
    decide +kernel
  have htorn : Frame.parseWith crc32 [66, 76, 79] = .error .tornHeader := rfl
  have hread : (Replay.read log.data).records =
      [.put 7 [97] [1], .batch 3 [.put [98] [2], .delete [97]], .put 3 [98] [4]] := by
    rw [Replay.read, Replay.readWith_append hfront, Replay.readWith_of_error (by decide) htorn]
    rfl
  have hvalid : options.validate = .ok () := by decide
  have hholds : log.data = front ++ [66, 76, 79] := rfl
  obtain ⟨c, hopen, -, hget, hsequence, -, hstale⟩ :=
    openOn_replays_log_order MemoryLog.faithful hholds none hvalid rfl
  rw [hread] at hget hsequence
  exact ⟨hvalid, rfl, c, hopen, hget [97], hget [98], hsequence, hstale⟩

end Connection

end OrderedStore
