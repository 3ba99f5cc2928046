import OrderedStore.Proofs.Connection
import OrderedStore.Proofs.Storage

/-!
# Recovery

A connection that is opened on bytes holds their undamaged front, and its timeline is that of the
records in them.

* `holds_openOn`: what has been opened, on any lawful storage;
* `exists_openOn`: on a storage that does not fail, opening succeeds unless the options are out of
  range or refuse the damage;
* `openOn_encodeLog`, `contents_openOn_take`: what is recovered from a log of frames, and from one that
  has been cut.
-/

namespace OrderedStore

/-- The part of a log up to its first damage. -/
def Replay.undamaged (data : Bytes) : Bytes := data.take (Replay.read data).validLength

theorem Replay.encodeLog_records (data : Bytes) : encodeLog (Replay.read data).records = .ok (undamaged data) :=
  encodeLogWith_records crc32 data

theorem Replay.undamaged_of_damage_eq_none {data : Bytes} (h : (Replay.read data).damage = none) :
    undamaged data = data := by
  have hlength : (Replay.read data).validLength = data.length := (damage_eq_none_iff crc32 data).mp h
  rw [undamaged, hlength, List.take_length]

/-- The bytes of a list of records are not damaged, and are read back as that list. -/
theorem Replay.read_of_encodeLog {rs : List Record} {data : Bytes} (h : encodeLog rs = .ok data) :
    Replay.read data = ⟨rs, data.length, data.length, none⟩ := by
  have := readWith_encodeLogWith h 0
  rwa [Nat.zero_add] at this

namespace Connection

open LogStorage

variable {σ : Type} [LogStorage σ] {holds : σ → Bytes → Prop} {log : σ} {data : Bytes} {path : Option String}
  {options : EngineOptions}

theorem holds_repair (h : Lawful holds) (hs : holds log data) {log' : σ}
    (hr : repair options (Replay.read data) log = (.ok (), log')) : holds log' (Replay.undamaged data) := by
  unfold repair at hr
  split at hr
  · rename_i hnone
    cases hr
    rw [Replay.undamaged_of_damage_eq_none hnone]
    exact hs
  · split at hr
    · cases hr
    · exact h.truncate_ok hs hr

/-- A connection that has been opened holds the undamaged part of the log, and stands on its records. -/
theorem holds_openOn (h : Lawful holds) (hs : holds log data) {c : Connection σ}
    (hopen : openOn path options log = .ok c) :
    holds c.log (Replay.undamaged data) ∧ c.timeline = .ofRecords (Replay.read data).records ∧
      c.isOpen = true := by
  obtain ⟨replay, log', -, hreplay, hrepair, rfl⟩ := openOn_eq_ok hopen
  cases h.replay hs hreplay
  exact ⟨holds_repair h hs hrepair, rfl, rfl⟩

/-- Nothing but the options stands against opening a log that does not fail. -/
theorem exists_openOn (h : Faithful holds) (hs : holds log data) (path : Option String)
    (hvalid : options.validate = .ok ())
    (haccept : options.paranoidChecks = false ∨ (Replay.read data).damage = none) :
    ∃ c, openOn path options log = .ok c := by
  obtain ⟨log', hrepair⟩ : ∃ log', repair options (Replay.read data) log = (.ok (), log') := by
    unfold repair
    split
    · exact ⟨log, rfl⟩
    · rename_i hdamage
      rcases haccept with hlenient | hnone
      · rw [hlenient, if_neg Bool.false_ne_true]
        exact h.truncates hs (Replay.validLength_le crc32 data)
      · rw [hnone] at hdamage
        cases hdamage
  refine ⟨⟨path, options, .ofRecords (Replay.read data).records, log', true⟩, ?_⟩
  simp only [openOn, hvalid, h.replay hs, hrepair]

/-- A log of frames is opened as it is. -/
theorem openOn_encodeLog {rs : List Record} (hdata : encodeLog rs = .ok data)
    (hread : LogStorage.readAll log = .ok data) (hvalid : options.validate = .ok ()) :
    openOn path options log = .ok ⟨path, options, .ofRecords rs, log, true⟩ := by
  have hreplay : LogStorage.replay log = .ok ⟨rs, data.length, data.length, none⟩ := by
    rw [LogStorage.replay, hread, ← Replay.read_of_encodeLog hdata]
    rfl
  simp only [openOn, hvalid, hreplay, repair]

/-- A log of frames that has been cut is opened with the records whose frames are below the cut. -/
theorem contents_openOn_take (h : Faithful holds) {rs : List Record} {n : Nat} (hdata : encodeLog rs = .ok data)
    (hs : holds log (data.take n)) (path : Option String) (hvalid : options.validate = .ok ())
    (hlenient : options.paranoidChecks = false) :
    ∃ c, openOn path options log = .ok c ∧
      c.timeline.contents =
        KeyMap.empty.writeAll ((Replay.framesWithin crc32 n rs).flatMap Record.operations) := by
  obtain ⟨c, hopen⟩ := exists_openOn h hs path hvalid (.inl hlenient)
  obtain ⟨-, htimeline, -⟩ := holds_openOn h.toLawful hs hopen
  refine ⟨c, hopen, ?_⟩
  rw [htimeline, Timeline.contents_ofRecords, Replay.read, Replay.records_readWith_take hdata]

end Connection

end OrderedStore
