import OrderedStore.Proofs.Replay
import OrderedStore.Storage.Faulty

/-!
# What is relied on of a log storage

A relation `holds`, between the states of a storage and byte strings, says what bytes are in it. A
storage is asked three things, each more than the one before:

* `Lawful`: a method that succeeds does what it is for, and one that fails changes nothing, except
  that an append that fails may have written a front of its bytes;
* `Mendable`: besides, cutting the log back never fails;
* `Faithful`: besides, nothing fails.

`MemoryLog.faithful`, `FaultyLog.lawful` and `FaultyLog.mendable` are instances. `appendRecord_ok`,
`appendRecord_error` and `rewriteRecords` say what this makes of the operations on records.
-/

namespace OrderedStore

namespace LogStorage

variable {σ : Type} [LogStorage σ]

/-- What the methods of a storage do to the bytes that it `holds`. -/
structure Lawful (holds : σ → Bytes → Prop) : Prop where
  readAll {s : σ} {bytes read : Bytes} : holds s bytes → LogStorage.readAll s = .ok read → read = bytes
  size {s : σ} {bytes : Bytes} {size : Nat} : holds s bytes → LogStorage.size s = .ok size → size = bytes.length
  append_ok {s s' : σ} {bytes more : Bytes} {offset : Nat} : holds s bytes →
    LogStorage.append more s = (.ok offset, s') → holds s' (bytes ++ more)
  /-- An append that fails has written the first `written` of its bytes, from none to all. -/
  append_error {s s' : σ} {bytes more : Bytes} {e : EngineError} : holds s bytes →
    LogStorage.append more s = (.error e, s') → ∃ written, holds s' (bytes ++ more.take written)
  truncate_ok {s s' : σ} {bytes : Bytes} {length : Nat} : holds s bytes →
    LogStorage.truncate length s = (.ok (), s') → holds s' (bytes.take length)
  truncate_error {s s' : σ} {bytes : Bytes} {length : Nat} {e : EngineError} : holds s bytes →
    LogStorage.truncate length s = (.error e, s') → holds s' bytes
  rewrite_ok {s s' : σ} {bytes data : Bytes} : holds s bytes →
    LogStorage.rewrite data s = (.ok (), s') → holds s' data
  rewrite_error {s s' : σ} {bytes data : Bytes} {e : EngineError} : holds s bytes →
    LogStorage.rewrite data s = (.error e, s') → holds s' bytes
  sync {s : σ} {bytes : Bytes} : holds s bytes → holds (LogStorage.sync s).2 bytes
  release {s : σ} {bytes : Bytes} : holds s bytes → holds (LogStorage.release s) bytes

/-- A storage that can always be cut back. -/
structure Mendable (holds : σ → Bytes → Prop) : Prop extends Lawful holds where
  truncates {s : σ} {bytes : Bytes} {length : Nat} : holds s bytes → length ≤ bytes.length →
    ∃ s', LogStorage.truncate length s = (.ok (), s')

/-- A storage that never fails. -/
structure Faithful (holds : σ → Bytes → Prop) : Prop extends Mendable holds where
  reads {s : σ} {bytes : Bytes} : holds s bytes → ∃ read, LogStorage.readAll s = .ok read
  sizes {s : σ} {bytes : Bytes} : holds s bytes → ∃ size, LogStorage.size s = .ok size
  appends {s : σ} {bytes : Bytes} (more : Bytes) : holds s bytes →
    ∃ offset s', LogStorage.append more s = (.ok offset, s')
  rewrites {s : σ} {bytes : Bytes} (data : Bytes) : holds s bytes → ∃ s', LogStorage.rewrite data s = (.ok (), s')
  syncs {s : σ} {bytes : Bytes} : holds s bytes → ∃ s', LogStorage.sync s = (.ok (), s')

/-- What no method changes may be added to what a storage holds. -/
theorem Lawful.keeping {holds : σ → Bytes → Prop} (h : Lawful holds) {P : σ → Prop}
    (happend : ∀ {s s' more result}, LogStorage.append more s = (result, s') → P s → P s')
    (htruncate : ∀ {s s' length result}, LogStorage.truncate length s = (result, s') → P s → P s')
    (hrewrite : ∀ {s s' data result}, LogStorage.rewrite data s = (result, s') → P s → P s')
    (hsync : ∀ {s}, P s → P (LogStorage.sync s).2) (hrelease : ∀ {s}, P s → P (LogStorage.release s)) :
    Lawful fun s bytes => holds s bytes ∧ P s where
  readAll hs := h.readAll hs.1
  size hs := h.size hs.1
  append_ok hs ha := ⟨h.append_ok hs.1 ha, happend ha hs.2⟩
  append_error hs ha := (h.append_error hs.1 ha).imp fun _ hw => ⟨hw, happend ha hs.2⟩
  truncate_ok hs ht := ⟨h.truncate_ok hs.1 ht, htruncate ht hs.2⟩
  truncate_error hs ht := ⟨h.truncate_error hs.1 ht, htruncate ht hs.2⟩
  rewrite_ok hs hw := ⟨h.rewrite_ok hs.1 hw, hrewrite hw hs.2⟩
  rewrite_error hs hw := ⟨h.rewrite_error hs.1 hw, hrewrite hw hs.2⟩
  sync hs := ⟨h.sync hs.1, hsync hs.2⟩
  release hs := ⟨h.release hs.1, hrelease hs.2⟩

/-! ## In terms of records -/

variable {holds : σ → Bytes → Prop} {s s' : σ} {bytes : Bytes}

theorem Lawful.replay (h : Lawful holds) (hs : holds s bytes) {replay : Replay}
    (hr : LogStorage.replay s = .ok replay) : replay = Replay.read bytes := by
  unfold LogStorage.replay at hr
  cases hread : LogStorage.readAll s with
  | error e =>
    rw [hread] at hr
    cases hr
  | ok read =>
    rw [hread, h.readAll hs hread] at hr
    cases hr
    rfl

theorem Faithful.readAll_eq (h : Faithful holds) (hs : holds s bytes) : LogStorage.readAll s = .ok bytes := by
  obtain ⟨read, hread⟩ := h.reads hs
  rw [hread, h.readAll hs hread]

theorem Faithful.replay (h : Faithful holds) (hs : holds s bytes) :
    LogStorage.replay s = .ok (Replay.read bytes) := by
  rw [LogStorage.replay, h.readAll_eq hs]
  rfl

/-- A record that is added adds its frame. -/
theorem Lawful.appendRecord_ok (h : Lawful holds) (hs : holds s bytes) {r : Record} {offset : Nat}
    (ha : appendRecord r s = (.ok offset, s')) :
    ∃ frame, Frame.encode r = .ok frame ∧ holds s' (bytes ++ frame) := by
  unfold appendRecord at ha
  split at ha
  · cases ha
  · rename_i frame hf
    exact ⟨frame, hf, h.append_ok hs ha⟩

/-- A record that cannot be added may leave a front of its frame, or nothing if it has none. -/
theorem Lawful.appendRecord_error (h : Lawful holds) (hs : holds s bytes) {r : Record} {e : EngineError}
    (ha : appendRecord r s = (.error e, s')) : ∃ torn, holds s' (bytes ++ torn) := by
  unfold appendRecord at ha
  split at ha
  · cases ha
    exact ⟨[], (List.append_nil bytes).symm ▸ hs⟩
  · rename_i frame hf
    obtain ⟨written, hw⟩ := h.append_error hs ha
    exact ⟨_, hw⟩

/-- A rewriting leaves the frames of the records, or what was there. -/
theorem Lawful.rewriteRecords (h : Lawful holds) (hs : holds s bytes) {rs : List Record}
    {result : Except EngineError Unit} (hw : LogStorage.rewriteRecords rs s = (result, s')) :
    holds s' bytes ∨ ∃ data, encodeLog rs = .ok data ∧ holds s' data := by
  unfold LogStorage.rewriteRecords at hw
  split at hw
  · cases hw
    exact .inl hs
  · rename_i data hdata
    cases result with
    | error e => exact .inl (h.rewrite_error hs hw)
    | ok => exact .inr ⟨data, hdata, h.rewrite_ok hs hw⟩

end LogStorage

/-! ## Logs in memory -/

/-- A log in memory never fails. -/
theorem MemoryLog.faithful : LogStorage.Faithful fun (log : MemoryLog) bytes => log.data = bytes where
  readAll := by
    rintro s _ read rfl ⟨⟩
    rfl
  size := by
    rintro s _ size rfl ⟨⟩
    rfl
  append_ok := by
    rintro s s' _ more offset rfl ⟨⟩
    rfl
  append_error := nofun
  truncate_ok := by
    rintro s s' _ length rfl h
    simp only [LogStorage.truncate, truncate] at h
    split at h
    · cases h
    · cases h
      rfl
  truncate_error := by
    rintro s s' _ length e rfl h
    simp only [LogStorage.truncate, truncate] at h
    split at h
    · cases h
      rfl
    · cases h
  rewrite_ok := by
    rintro s s' _ data rfl ⟨⟩
    rfl
  rewrite_error := nofun
  sync := id
  release := id
  truncates := by
    rintro s _ length rfl hle
    exact ⟨_, if_neg (Nat.not_lt.mpr hle)⟩
  reads _ := ⟨_, rfl⟩
  sizes _ := ⟨_, rfl⟩
  appends _ _ := ⟨_, _, rfl⟩
  rewrites _ _ := ⟨_, rfl⟩
  syncs _ := ⟨_, rfl⟩

/-! ## Logs that fail -/

namespace FaultyLog

/-- A method that is not made to fail does what it does in memory. -/
theorem guard_cases {f f' : FaultyLog} {method : LogMethod} {run : MemoryLog → Except EngineError Unit × MemoryLog}
    {result : Except EngineError Unit} (h : f.guard method run = (result, f')) :
    (∃ e, result = .error e ∧ f' = f) ∨ ∃ log, run f.log = (result, log) ∧ f' = { f with log } := by
  unfold guard at h
  split at h
  · cases h
    exact .inl ⟨_, rfl, rfl⟩
  · cases h
    exact .inr ⟨_, rfl, rfl⟩

theorem faults_of_guard {f f' : FaultyLog} {method : LogMethod}
    {run : MemoryLog → Except EngineError Unit × MemoryLog} {result : Except EngineError Unit}
    (h : f.guard method run = (result, f')) : f'.faults = f.faults := by
  obtain ⟨e, -, rfl⟩ | ⟨log, -, rfl⟩ := guard_cases h <;> rfl

theorem faults_of_append {f f' : FaultyLog} {bytes : Bytes} {result : Except EngineError Nat}
    (h : f.append bytes = (result, f')) : f'.faults = f.faults := by
  unfold append at h
  split at h
  all_goals
    cases h
    rfl

/-- Whatever of it fails, a log in memory does what it is for. -/
theorem lawful : LogStorage.Lawful fun (f : FaultyLog) bytes => f.log.data = bytes where
  readAll := by
    rintro f _ read rfl h
    simp only [LogStorage.readAll] at h
    split at h
    · cases h
    · cases h
      rfl
  size := by
    rintro f _ size rfl h
    simp only [LogStorage.size] at h
    split at h
    · cases h
    · cases h
      rfl
  append_ok := by
    rintro f f' _ more offset rfl h
    simp only [LogStorage.append, append] at h
    split at h
    · cases h
    · cases h
      rfl
  append_error := by
    rintro f f' _ more e rfl h
    simp only [LogStorage.append, append] at h
    split at h
    · rename_i fault _
      cases h
      exact ⟨fault.written, rfl⟩
    · cases h
  truncate_ok := by
    rintro f f' _ length rfl h
    obtain ⟨e, h', -⟩ | ⟨log, h', rfl⟩ := guard_cases h
    · cases h'
    · exact MemoryLog.faithful.truncate_ok rfl h'
  truncate_error := by
    rintro f f' _ length e rfl h
    obtain ⟨e, -, rfl⟩ | ⟨log, h', rfl⟩ := guard_cases h
    · rfl
    · exact MemoryLog.faithful.truncate_error rfl h'
  rewrite_ok := by
    rintro f f' _ data rfl h
    obtain ⟨e, h', -⟩ | ⟨log, h', rfl⟩ := guard_cases h
    · cases h'
    · exact MemoryLog.faithful.rewrite_ok rfl h'
  rewrite_error := by
    rintro f f' _ data e rfl h
    obtain ⟨e, -, rfl⟩ | ⟨log, h', rfl⟩ := guard_cases h
    · rfl
    · exact MemoryLog.faithful.rewrite_error rfl h'
  sync := by
    rintro f _ rfl
    obtain ⟨result, f', h⟩ : ∃ result f', LogStorage.sync f = (result, f') := ⟨_, _, rfl⟩
    rw [h]
    obtain ⟨e, -, rfl⟩ | ⟨log, h', rfl⟩ := guard_cases h
    · rfl
    · cases h'
      rfl
  release := id

/-- A log in memory in which cutting back does not fail. -/
def Holds (f : FaultyLog) (bytes : Bytes) : Prop := f.log.data = bytes ∧ f.faults .truncate = none

/-- Whatever else of it fails, such a log can be cut back. -/
theorem mendable : LogStorage.Mendable Holds where
  toLawful := lawful.keeping (P := fun f => f.faults .truncate = none)
    (fun h hcut => (congrFun (faults_of_append h) _).trans hcut)
    (fun h hcut => (congrFun (faults_of_guard h) _).trans hcut)
    (fun h hcut => (congrFun (faults_of_guard h) _).trans hcut)
    (fun {f} hcut => (congrFun (faults_of_guard (Prod.eta (LogStorage.sync f)).symm) _).trans hcut) id
  truncates := by
    rintro f _ length ⟨rfl, hcut⟩ hle
    obtain ⟨log, hlog⟩ := MemoryLog.faithful.truncates (s := f.log) rfl hle
    refine ⟨{ f with log }, ?_⟩
    simp only [LogStorage.truncate, guard, hcut]
    rw [show f.log.truncate length = _ from hlog]

theorem holds_setFault {f : FaultyLog} {bytes : Bytes} (h : f.Holds bytes) {method : LogMethod}
    (hmethod : method ≠ .truncate) (fault : Option LogFault) : (f.setFault method fault).Holds bytes :=
  ⟨h.1, (if_neg hmethod.symm).trans h.2⟩

end FaultyLog

end OrderedStore
