import OrderedStore.Proofs.Closing

/-!
# What has been logged can be logged again

An entry comes into a connection by a put, by an operation of a batch, or by a record that is recovered, and a closing
writes it as a put. Lengths are kept in four bytes, each way in has a framing of its own, and that of the put takes no
more room than the others do. So what has come in can go out again, at whatever sequence, and if a closing fails, it is
the storage that has failed.

* `exists_frame_put_iff`, `Loggable.encodes`: which puts have a frame, and how long its parts are;
* `Connection.exists_records_openOn`: what is recovered has frames, even if the storage does not tell what it holds;
* `Connection.error_of_close`: the errors of a closing; `LogStorage.Accepts`: a storage that takes any bytes;
* `Session.live_entries_encode`: runs on any storage.
-/

namespace OrderedStore

open LogStorage

/-! ## Puts -/

theorem Payload.length_of_encode_put {seq : Sequence} {key value payload : Bytes}
    (h : encode (.put seq key value) = .ok payload) : payload.length = 16 + key.length + value.length := by
  obtain ⟨fields, hfields, rfl⟩ := encode_eq_ok_iff.mp h
  simp only [encodeFields, bind_eq_ok_iff, pure_eq_ok_iff] at hfields
  obtain ⟨k, hk, v, hv, rfl⟩ := hfields
  rw [List.length_append, List.length_append, Bytes.length_ofNatLE, length_of_field hk, length_of_field hv]
  omega

/-- The put of an entry has a frame if the entry is short enough, and only then. -/
theorem exists_frame_put_iff {sum : Bytes → UInt32} {seq : Sequence} {key value : Bytes} :
    (∃ frame, Frame.encodeWith sum (.put seq key value) = .ok frame) ↔ Loggable key value :=
  ⟨fun ⟨_, hframe⟩ => loggable_of_encodeWith hframe (List.mem_singleton_self _), fun h => h.exists_frame seq⟩

/-- Every length in such a put is below the number that four bytes cannot reach. -/
theorem Loggable.encodes {key value : Bytes} (h : Loggable key value) (seq : Sequence) :
    key.length < UInt32.size ∧ value.length < UInt32.size ∧
      ∃ payload frame, Payload.encode (.put seq key value) = .ok payload ∧
        payload.length = 16 + key.length + value.length ∧ payload.length < UInt32.size ∧
        Frame.encode (.put seq key value) = .ok frame := by
  obtain ⟨frame, hframe⟩ : ∃ frame, Frame.encode (.put seq key value) = .ok frame := exists_frame_put_iff.mpr h
  obtain ⟨payload, hpayload, hlimit, -⟩ := Frame.encodeWith_eq_ok_iff.mp hframe
  have hlength := Payload.length_of_encode_put hpayload
  have hsize : Payload.limit = UInt32.size := rfl
  exact ⟨by omega, by omega, payload, frame, hpayload, hlength, hsize ▸ hlimit, hframe⟩

/-! ## Storages -/

/-- The storage finds no fault with the bytes that it is to hold, whatever else may fail. -/
def LogStorage.Accepts {σ : Type} [LogStorage σ] (log : σ) : Prop :=
  ∀ bytes cause, (rewrite bytes log).1 ≠ .error (.invalidArgument cause) ∧
    (sync (rewrite bytes log).2).1 ≠ .error (.invalidArgument cause)

theorem MemoryLog.accepts (log : MemoryLog) : Accepts log := by
  intro bytes cause
  constructor
  · intro h
    cases h
  · intro h
    cases h

theorem FileOnDisk.accepts (f : FileOnDisk) : Accepts f := by
  intro bytes cause
  constructor
  · intro h
    change (FileOnDisk.rewrite bytes f).1 = .error (.invalidArgument cause) at h
    unfold FileOnDisk.rewrite at h
    split at h
    · cases h
    · split at h
      · cases h
      · split at h <;> cases h
  · intro h
    cases h

/-- A connection on a log in memory or in a directory is on such a storage; a shared log may be told to refuse. -/
theorem Medium.accepts {m : Medium} (h : ∀ number, m.handle ≠ .shared number) : Accepts m := by
  intro bytes cause
  obtain ⟨handle, media⟩ := m
  cases handle with
  | memory log => exact MemoryLog.accepts log bytes cause
  | shared number => exact absurd rfl (h number)
  | directory dir log => exact FileOnDisk.accepts ⟨log, media.disk⟩ bytes cause

/-! ## Connections -/

namespace Connection

variable {σ : Type} [LogStorage σ] {c : Connection σ}

/-- An opened connection stands on records that have frames. The bytes that they have been read from need not be
those that the storage holds. -/
theorem exists_records_openOn {path : Option String} {options : EngineOptions} {log : σ}
    (hopen : openOn path options log = .ok c) :
    ∃ rs data, encodeLog rs = .ok data ∧ c.timeline = .ofRecords rs := by
  obtain ⟨replay, log', -, hreplay, -, rfl⟩ := openOn_eq_ok hopen
  unfold LogStorage.replay at hreplay
  cases hread : readAll log with
  | error e =>
    rw [hread] at hreplay
    cases hreplay
  | ok data =>
    rw [hread] at hreplay
    cases hreplay
    exact ⟨_, _, Replay.encodeLog_records data, rfl⟩

/-- A closing fails only as the storage does, if the compacted records have frames. -/
theorem error_of_close {frames : Bytes} (hframes : encodeLog c.compacted = .ok frames) {e : EngineError}
    (h : c.close.1 = .error e) :
    (rewrite frames c.log).1 = .error e ∨ (sync (rewrite frames c.log).2).1 = .error e := by
  cases hisOpen : c.isOpen with
  | false =>
    rw [close_of_closed hisOpen] at h
    cases h
  | true =>
    obtain ⟨e', kept, hrewrite, hclose⟩ | ⟨written, hrewrite, hclose⟩ := close_cases hisOpen hframes
    · rw [hrewrite]
      exact .inl (hclose.symm.trans h)
    · rw [hrewrite]
      exact .inr (hclose.symm.trans h)

end Connection

/-! ## Sessions -/

namespace Session

variable {σ : Type} [LogStorage σ]

/-- A session on any storage, however it fails and whatever it tells, with writes that succeed or fail, readers that
come and go, and a closing perhaps. At any time every entry that is current has a put at the last sequence whose key,
value and payload have lengths below 2^32, so that the put has a frame, and so have all of them together. A closing
fails with an error of the storage only, and with an invalid argument never, if the storage takes any bytes. -/
theorem live_entries_encode {path : Option String} {options : EngineOptions} {log : σ} {c : Connection σ}
    (hopen : Connection.openOn path options log = .ok c) (events : List (Event σ)) :
    let d := ((start c).run events).connection
    (∀ e ∈ d.timeline.live, e.1.length < UInt32.size ∧ e.2.length < UInt32.size ∧
      ∃ payload frame, Payload.encode (.put d.sequence e.1 e.2) = .ok payload ∧
        payload.length = 16 + e.1.length + e.2.length ∧ payload.length < UInt32.size ∧
        Frame.encode (.put d.sequence e.1 e.2) = .ok frame) ∧
    (∃ frames, encodeLog d.compacted = .ok frames ∧
      ∀ e, d.close.1 = .error e → (rewrite frames d.log).1 = .error e ∨ (sync (rewrite frames d.log).2).1 = .error e) ∧
    (Accepts d.log → ∀ cause, d.close.1 ≠ .error (.invalidArgument cause)) := by
  intro d
  obtain ⟨rs, data, hdata, htimeline⟩ := Connection.exists_records_openOn hopen
  have hstart : c.timeline.Loggable := htimeline ▸ Timeline.loggable_ofRecords hdata
  have hd : d.timeline.Loggable := loggable_run (s := start c) hstart events
  obtain ⟨frames, hframes⟩ := Connection.exists_compacted hd
  refine ⟨fun e he => (hd.of_mem_contents he).encodes d.sequence,
    ⟨frames, hframes, fun e he => Connection.error_of_close hframes he⟩, fun haccepts cause h => ?_⟩
  obtain hrewrite | hsync := Connection.error_of_close hframes h
  · exact (haccepts frames cause).1 hrewrite
  · exact (haccepts frames cause).2 hsync

/-- With an entry that is recovered, one that is put, one from a batch, and one that is refused by the log; then the
rewriting fails. And with an entry that is put into the log of a directory. -/
theorem live_entries_encode_faulty :
    let data : Bytes := [66, 76, 79, 71, 1, 0, 1, 18, 0, 0, 0, 7, 0, 0, 0, 0, 0, 0, 0, 1, 0, 0, 0, 97, 1, 0, 0, 0, 1,
      225, 104, 124, 77]
    let log : FaultyLog := { log := ⟨data⟩ }
    let c : Connection FaultyLog := ⟨none, {}, .ofRecords [.put 7 [97] [1]], log, true⟩
    let fault : LogFault := ⟨.io (.reported "disk full"), 3⟩
    let events : List (Event FaultyLog) := [.request (.write (.put [98] [2])),
      .request (.write (.apply [.put [99] [3], .delete [98]])), .storage (·.setFault .append (some fault)),
      .request (.write (.put [100] [4])), .storage (·.setFault .rewrite (some fault))]
    let d := ((start c).run events).connection
    let file : Medium := ⟨.directory ⟨"", 1⟩ ⟨"LOG", 0, 0⟩, { disk := (({} : Disk).write "LOG" []).2 }⟩
    let stored : Connection Medium := ⟨none, {}, .ofRecords [], file, true⟩
    let events' : List (Event Medium) := [.request (.write (.put [97] [1]))]
    Connection.openOn none {} log = .ok c ∧ d.sequence = 9 ∧ d.timeline.live = [([97], [1]), ([99], [3])] ∧
      (∀ e ∈ d.timeline.live, ∃ frame, Frame.encode (.put 9 e.1 e.2) = .ok frame) ∧
      d.close.1 = .error fault.error ∧
      (∃ frames, encodeLog d.compacted = .ok frames ∧
        ((rewrite frames d.log).1 = .error fault.error ∨ (sync (rewrite frames d.log).2).1 = .error fault.error)) ∧
      Connection.openOn none {} file = .ok stored ∧ Accepts ((start stored).run events').connection.log ∧
      ∀ cause, ((start stored).run events').connection.close.1 ≠ .error (.invalidArgument cause) := by
  intro data log c fault events d file stored events'
  have hopen : Connection.openOn none {} log = .ok c :=
    Connection.openOn_encodeLog (by decide +kernel) rfl (by decide)
  have hstored : Connection.openOn none {} file = .ok stored := Connection.openOn_encodeLog rfl rfl (by decide)
  have hhandle : ((start stored).run events').connection.log.handle = .directory ⟨"", 1⟩ ⟨"LOG", 0, 33⟩ := by
    decide +kernel
  have haccepts : Accepts ((start stored).run events').connection.log :=
    Medium.accepts fun number hshared => by
      rw [hhandle] at hshared
      cases hshared
  have hseq : d.sequence = 9 := by decide +kernel
  have hresult : d.close.1 = .error fault.error := by decide +kernel
  obtain ⟨hentries, ⟨frames, hframes, hfails⟩, -⟩ := live_entries_encode hopen events
  obtain ⟨-, -, hnever⟩ := live_entries_encode hstored events'
  refine ⟨hopen, hseq, by decide +kernel, fun e he => ?_, hresult, ⟨frames, hframes, hfails _ hresult⟩, hstored,
    haccepts, hnever haccepts⟩
  obtain ⟨-, -, payload, frame, -, -, -, hframe⟩ := hentries e he
  exact ⟨frame, hseq ▸ hframe⟩

end Session

end OrderedStore
