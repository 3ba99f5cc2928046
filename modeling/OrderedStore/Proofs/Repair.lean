import OrderedStore.Proofs.Recovery

/-!
# Opening repairs or refuses

A connection is opened on whatever bytes a log holds. What happens to a damaged log is settled by the options: it is
refused and left as it is, or cut back to its undamaged front, which is then opened as it is by anyone.

* `Connection.openOn_of_unreadable`, `openOn_of_readAll`: the outcomes of an opening, by what its storage calls give;
  `undamaged_of_openOn`: what is opened under paranoid checks is not damaged, and stays as it is;
* `Connection.opening_repairs_or_refuses`: openings of one log in both modes, and of what they leave.
-/

namespace OrderedStore

namespace Connection

open LogStorage

variable {σ : Type} [LogStorage σ] {holds : σ → Bytes → Prop} {log : σ} {data : Bytes} {path : Option String}
  {options : EngineOptions}

/-! ## Outcomes -/

/-- A log that cannot be read is let go of as it is. -/
theorem openOn_of_unreadable (hvalid : options.validate = .ok ()) {e : EngineError} (hread : readAll log = .error e) :
    openOn path options log = .error (e, release log) := by
  have hreplay : LogStorage.replay log = .error e := by
    rw [LogStorage.replay, hread]
    rfl
  simp only [openOn, hvalid, hreplay]

/-- A log that can be read is opened as it is, refused, or cut back; the cut may fail. -/
theorem openOn_of_readAll (path : Option String) (hvalid : options.validate = .ok ())
    (hread : readAll log = .ok data) :
    ((Replay.read data).damage = none ∧
      openOn path options log = .ok ⟨path, options, .ofRecords (Replay.read data).records, log, true⟩) ∨
    ∃ damage, (Replay.read data).damage = some damage ∧
      ((options.paranoidChecks = true ∧
          openOn path options log = .error (.corruption (.log damage), release log)) ∨
        (options.paranoidChecks = false ∧ ∃ e cut, truncate (Replay.read data).validLength log = (.error e, cut) ∧
          openOn path options log = .error (e, release cut)) ∨
        (options.paranoidChecks = false ∧ ∃ cut, truncate (Replay.read data).validLength log = (.ok (), cut) ∧
          openOn path options log = .ok ⟨path, options, .ofRecords (Replay.read data).records, cut, true⟩)) := by
  have hreplay : LogStorage.replay log = .ok (Replay.read data) := by
    rw [LogStorage.replay, hread]
    rfl
  cases hdamage : (Replay.read data).damage with
  | none => exact .inl ⟨rfl, by simp only [openOn, hvalid, hreplay, repair, hdamage]⟩
  | some damage =>
    refine .inr ⟨damage, rfl, ?_⟩
    cases hparanoid : options.paranoidChecks with
    | true => exact .inl ⟨rfl, by simp only [openOn, hvalid, hreplay, repair, hdamage, hparanoid, if_true]⟩
    | false =>
      obtain ⟨result, cut, hcut⟩ : ∃ result cut, truncate (Replay.read data).validLength log = (result, cut) :=
        ⟨_, _, rfl⟩
      cases result with
      | error e =>
        refine .inr (.inl ⟨rfl, e, cut, hcut, ?_⟩)
        simp only [openOn, hvalid, hreplay, repair, hdamage, hparanoid, hcut, Bool.false_eq_true, if_false]
      | ok =>
        refine .inr (.inr ⟨rfl, cut, hcut, ?_⟩)
        simp only [openOn, hvalid, hreplay, repair, hdamage, hparanoid, hcut, Bool.false_eq_true, if_false]

/-- What is opened under paranoid checks is not damaged, and the log stays as it was. -/
theorem undamaged_of_openOn (hvalid : options.validate = .ok ()) (hread : readAll log = .ok data)
    (hparanoid : options.paranoidChecks = true) {c : Connection σ} (hopen : openOn path options log = .ok c) :
    (Replay.read data).damage = none ∧ c.log = log := by
  obtain ⟨hnone, hok⟩ | ⟨damage, -, ⟨-, hrefused⟩ | ⟨hlenient, -⟩ | ⟨hlenient, -⟩⟩ := openOn_of_readAll path hvalid hread
  · cases hok.symm.trans hopen
    exact ⟨hnone, rfl⟩
  · cases hrefused.symm.trans hopen
  · cases hparanoid.symm.trans hlenient
  · cases hparanoid.symm.trans hlenient

/-- An opening that fails leaves the bytes of the log. -/
theorem holds_of_openOn_error (h : Lawful holds) (hs : holds log data) {e : EngineError} {left : σ}
    (hopen : openOn path options log = .error (e, left)) : holds left data := by
  cases hvalid : options.validate with
  | error cause =>
    simp only [openOn, hvalid] at hopen
    cases hopen
    exact h.release hs
  | ok =>
    cases hread : readAll log with
    | error fault =>
      cases (openOn_of_unreadable hvalid hread).symm.trans hopen
      exact h.release hs
    | ok read =>
      obtain rfl := h.readAll hs hread
      obtain ⟨-, hok⟩ | ⟨damage, -, ⟨-, hrefused⟩ | ⟨-, fault, cut, hcut, hfailed⟩ | ⟨-, cut, -, hok⟩⟩ :=
        openOn_of_readAll path hvalid hread
      · cases hok.symm.trans hopen
      · cases hrefused.symm.trans hopen
        exact h.release hs
      · cases hfailed.symm.trans hopen
        exact h.release (h.truncate_error hs hcut)
      · cases hok.symm.trans hopen

/-! ## Both modes -/

/-- Opening a log that does not fail, with any bytes and valid options:

* under paranoid checks it succeeds exactly if the log is not damaged, and leaves the bytes either way;
* otherwise it succeeds and leaves the bytes up to the first damage, and whoever opens a log of these bytes, in either
  mode, stands on the same timeline and leaves that log as it is;
* openings that succeed on the same log stand on the same timeline, that is on the same contents and sequence.

If reading the log or cutting it back fails, the opening fails with that error and leaves the bytes. -/
theorem opening_repairs_or_refuses (h : Faithful holds) (hs : holds log data) (path : Option String)
    (hvalid : options.validate = .ok ()) :
    (options.paranoidChecks = true →
      ((∃ c, openOn path options log = .ok c) ↔ (Replay.read data).damage = none) ∧
        (∀ c, openOn path options log = .ok c → holds c.log data) ∧
        ∀ e left, openOn path options log = .error (e, left) → holds left data) ∧
    (options.paranoidChecks = false →
      ∃ c, openOn path options log = .ok c ∧ holds c.log (data.take (Replay.read data).validLength) ∧
        ∀ {τ : Type} [LogStorage τ] {holds' : τ → Bytes → Prop}, Faithful holds' → ∀ repaired : τ,
          holds' repaired (data.take (Replay.read data).validLength) →
          ∀ (path' : Option String) (options' : EngineOptions), options'.validate = .ok () →
          ∃ d, openOn path' options' repaired = .ok d ∧ d.timeline = c.timeline ∧ d.log = repaired) ∧
    (∀ path' options' c d, openOn path options log = .ok c → openOn path' options' log = .ok d →
      d.timeline = c.timeline) ∧
    ∀ {τ : Type} [LogStorage τ] {holds' : τ → Bytes → Prop}, Lawful holds' → ∀ failing : τ, holds' failing data →
      (∀ e, readAll failing = .error e → ∃ left, openOn path options failing = .error (e, left) ∧ holds' left data) ∧
      ∀ read e cut, readAll failing = .ok read → (Replay.read data).damage ≠ none → options.paranoidChecks = false →
        truncate (Replay.read data).validLength failing = (.error e, cut) →
        ∃ left, openOn path options failing = .error (e, left) ∧ holds' left data := by
  refine ⟨fun hparanoid => ?_, fun hlenient => ?_, fun path' options' c d hc hd => ?_, ?_⟩
  · have hopened : ∀ c, openOn path options log = .ok c → (Replay.read data).damage = none ∧ c.log = log :=
      fun c => undamaged_of_openOn hvalid (h.readAll_eq hs) hparanoid
    exact ⟨⟨fun ⟨c, hopen⟩ => (hopened c hopen).1, fun hnone => exists_openOn h hs path hvalid (.inr hnone)⟩,
      fun c hopen => (hopened c hopen).2.symm ▸ hs, fun e left => holds_of_openOn_error h.toLawful hs⟩
  · obtain ⟨c, hopen⟩ := exists_openOn h hs path hvalid (.inl hlenient)
    obtain ⟨hlog, htimeline, -⟩ := holds_openOn h.toLawful hs hopen
    refine ⟨c, hopen, hlog, fun h' repaired hrepaired path' options' hvalid' => ?_⟩
    -- the bytes that are left are a list of frames, which is opened as it is
    refine ⟨_, openOn_encodeLog (Replay.encodeLog_records data) (h'.readAll_eq hrepaired) hvalid', ?_, rfl⟩
    exact htimeline.symm
  · obtain ⟨-, hctimeline, -⟩ := holds_openOn h.toLawful hs hc
    obtain ⟨-, hdtimeline, -⟩ := holds_openOn h.toLawful hs hd
    rw [hctimeline, hdtimeline]
  · intro τ _ holds' h' failing hfailing
    refine ⟨fun e hread => ⟨_, openOn_of_unreadable hvalid hread, h'.release hfailing⟩, ?_⟩
    intro read e cut hread hdamaged hlenient hcut
    obtain rfl := h'.readAll hfailing hread
    obtain ⟨hnone, -⟩ | ⟨damage, -, ⟨hparanoid, -⟩ | ⟨-, e', cut', hcut', hfailed⟩ | ⟨-, cut', hcut', -⟩⟩ :=
      openOn_of_readAll path hvalid hread
    · exact absurd hnone hdamaged
    · cases hparanoid.symm.trans hlenient
    · cases hcut.symm.trans hcut'
      exact ⟨_, hfailed, h'.release (h'.truncate_error hfailing hcut)⟩
    · cases hcut.symm.trans hcut'

/-- Three bytes behind a frame: refused under paranoid checks, otherwise cut off for good, and kept if the cut fails. -/
theorem opening_repairs_or_refuses_torn :
    let frame : Bytes := [66, 76, 79, 71, 1, 0, 1, 18, 0, 0, 0, 7, 0, 0, 0, 0, 0, 0, 0, 1, 0, 0, 0, 97, 1, 0, 0, 0, 1,
      225, 104, 124, 77]
    let log : MemoryLog := ⟨frame ++ [66, 76, 79]⟩
    let strict : EngineOptions := { paranoidChecks := true }
    let fault : LogFault := ⟨.io (.reported "disk full"), 0⟩
    let failing : FaultyLog := FaultyLog.setFault { log } .truncate (some fault)
    Faithful (fun (log : MemoryLog) bytes => log.data = bytes) ∧ log.data = frame ++ [66, 76, 79] ∧
      ({} : EngineOptions).validate = .ok () ∧ strict.validate = .ok () ∧ (Replay.read log.data).damage ≠ none ∧
      (¬∃ c, openOn none strict log = .ok c) ∧
      (∃ c, openOn none {} log = .ok c ∧ c.log.data = frame ∧
        ∃ d, openOn none strict c.log = .ok d ∧ d.timeline = c.timeline ∧ d.log = c.log) ∧
      ∃ left, openOn none {} failing = .error (fault.error, left) ∧ left.log.data = log.data := by
  intro frame log strict fault failing
  have hdamaged : (Replay.read log.data).damage ≠ none := by decide +kernel
  have hfront : log.data.take (Replay.read log.data).validLength = frame := by decide +kernel
  have hlog : log.data = frame ++ [66, 76, 79] := rfl
  have hlenient : ({} : EngineOptions).validate = .ok () := by decide
  have hstrict : strict.validate = .ok () := by decide
  obtain ⟨hrefuses, -⟩ := opening_repairs_or_refuses MemoryLog.faithful hlog none hstrict
  obtain ⟨-, hrepairs, -, hfails⟩ := opening_repairs_or_refuses MemoryLog.faithful hlog none hlenient
  obtain ⟨c, hopen, hcutBack, hagain⟩ := hrepairs rfl
  have hcut : LogStorage.truncate (Replay.read log.data).validLength failing = (.error fault.error, failing) := rfl
  exact ⟨MemoryLog.faithful, hlog, hlenient, hstrict, hdamaged, fun hok => hdamaged ((hrefuses rfl).1.mp hok),
    ⟨c, hopen, hcutBack.trans hfront, hagain MemoryLog.faithful c.log hcutBack none strict hstrict⟩,
    (hfails FaultyLog.lawful failing rfl).2 log.data fault.error failing rfl hdamaged rfl hcut⟩

end Connection

end OrderedStore
