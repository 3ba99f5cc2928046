import OrderedStore.Proofs.Disk
import OrderedStore.Storage.File
import OrderedStore.Storage.Memory

/-!
# Logs in files answer as logs in memory

A log file and a log in memory are asked the same. The file is reopened at will, and other files on its disk
change in between. As long as the system refuses nothing, both answer the same, and the file has the bytes of the
log in memory.

* `LogCall.answer`: the answer of a log storage to a call; `FileOnDisk.trace`, `MemoryLog.trace`: its answers to events;
* `FileOnDisk.Undisturbed`: the file itself is not changed by others;
* `FileOnDisk.Holds`: the file, the open handle and the remembered size are those of a byte string;
* `Holds.answer`, `Holds.reopen`, `Holds.run`: one call, a reopening, and a run preserve it.
-/

namespace OrderedStore

/-! ## Calls and events -/

/-- What a log storage is asked. -/
inductive LogCall where
  | append (bytes : Bytes)
  | readAll
  | sync
  | size
  | truncate (length : Nat)
  | rewrite (bytes : Bytes)
  deriving DecidableEq

/-- What a log storage answers. -/
inductive LogAnswer where
  /-- The offset at which bytes were added. -/
  | offset (result : Except EngineError Nat)
  | content (result : Except EngineError Bytes)
  | size (result : Except EngineError Nat)
  | done (result : Except EngineError Unit)

/-- The error of an answer, if any. -/
def LogAnswer.error? : LogAnswer → Option EngineError
  | offset (.error e) | content (.error e) | size (.error e) | done (.error e) => some e
  | _ => none

/-- The input or output has failed. -/
def LogAnswer.isFault (answer : LogAnswer) : Bool :=
  match answer.error? with
  | some (.io _) => true
  | _ => false

/-- The answer of a storage to a call, and the storage afterwards. -/
def LogCall.answer {σ : Type} [LogStorage σ] (s : σ) : LogCall → LogAnswer × σ
  | .append bytes =>
    let (result, s) := LogStorage.append bytes s
    (.offset result, s)
  | .readAll => (.content (LogStorage.readAll s), s)
  | .sync =>
    let (result, s) := LogStorage.sync s
    (.done result, s)
  | .size => (.size (LogStorage.size s), s)
  | .truncate length =>
    let (result, s) := LogStorage.truncate length s
    (.done result, s)
  | .rewrite bytes =>
    let (result, s) := LogStorage.rewrite bytes s
    (.done result, s)

/-- What happens to a log file. -/
inductive FileEvent where
  | call (q : LogCall)
  /-- The log is let go of, and opened again. -/
  | reopen
  /-- Something else changes the disk. -/
  | elsewhere (change : Disk → Disk)

namespace FileOnDisk

/-- Opens the log again; the old one stays if that fails. -/
def reopen (f : FileOnDisk) : LogAnswer × FileOnDisk :=
  match FileLog.openAt f.log.path f.disk with
  | (.error e, disk) => (.done (.error e), { f with disk })
  | (.ok log, disk) => (.done (.ok ()), ⟨log, disk⟩)

/-- The log file after an event. -/
def next (f : FileOnDisk) : FileEvent → FileOnDisk
  | .call q => (q.answer f).2
  | .reopen => f.reopen.2
  | .elsewhere change => { f with disk := change f.disk }

/-- The log file after events. -/
def run (f : FileOnDisk) (events : List FileEvent) : FileOnDisk := events.foldl next f

/-- What is answered at events. -/
def trace (f : FileOnDisk) : List FileEvent → List LogAnswer
  | [] => []
  | .call q :: events => (q.answer f).1 :: (f.next (.call q)).trace events
  | .reopen :: events => f.reopen.1 :: (f.next .reopen).trace events
  | .elsewhere change :: events => (f.next (.elsewhere change)).trace events

/-- What else changes the disk leaves the log's file where it is, and its bytes. -/
def Undisturbed (f : FileOnDisk) : List FileEvent → Prop
  | [] => True
  | .elsewhere change :: events =>
    ((change f.disk).Sound ∧ (change f.disk).find f.log.path = f.disk.find f.log.path ∧
      (change f.disk).content f.log.file = f.raw) ∧ (f.next (.elsewhere change)).Undisturbed events
  | event :: events => (f.next event).Undisturbed events

end FileOnDisk

namespace MemoryLog

/-- A log in memory has nothing to reopen, and no disk. -/
def next (m : MemoryLog) : FileEvent → MemoryLog
  | .call q => (q.answer m).2
  | .reopen | .elsewhere _ => m

def run (m : MemoryLog) (events : List FileEvent) : MemoryLog := events.foldl next m

def trace (m : MemoryLog) : List FileEvent → List LogAnswer
  | [] => []
  | .call q :: events => (q.answer m).1 :: (m.next (.call q)).trace events
  | .reopen :: events => .done (.ok ()) :: m.trace events
  | .elsewhere _ :: events => m.trace events

end MemoryLog

namespace FileOnDisk

/-! ## What is in a log file -/

/-- The file at a path has the bytes, is the open one, and has the size that is remembered. -/
structure Holds (path : String) (f : FileOnDisk) (bytes : Bytes) : Prop where
  sound : f.disk.Sound
  path_eq : f.log.path = path
  found : f.disk.find path = .ok (.file f.log.file)
  raw : f.raw = bytes
  size : f.log.size = bytes.length

variable {path : String} {f f' : FileOnDisk} {bytes : Bytes}

theorem Holds.read (h : Holds path f bytes) : f.disk.read path = .ok bytes := by
  rw [Disk.read, h.found, ← h.raw]
  rfl

/-- An opened log file holds what is in the file. -/
theorem holds_openAt {disk disk' : Disk} (hsound : disk.Sound) {log : FileLog}
    (hopen : FileLog.openAt path disk = (.ok log, disk')) :
    Holds path ⟨log, disk'⟩ (disk'.content log.file) := by
  unfold FileLog.openAt at hopen
  split at hopen
  · cases hopen
  · rename_i file disk₁ hfile
    cases hopen
    exact {
      sound := hsound.openFile hfile
      path_eq := rfl
      found := (hsound.find_openFile hfile).1
      raw := rfl
      size := rfl }

/-- Opening the log file once more leads to the same log. -/
theorem Holds.openAt (h : Holds path f bytes) : FileLog.openAt path f.disk = (.ok f.log, f.disk) := by
  have hsize : (f.disk.content f.log.file).length = f.log.size := by
    rw [h.size, ← h.raw]
    rfl
  rw [FileLog.openAt, Disk.openFile_of_find h.found]
  dsimp only
  rw [hsize, ← h.path_eq]

/-- The file gets other bytes, and their size is remembered. -/
theorem Holds.set (h : Holds path f bytes) (more : Bytes) : Holds path (f.set more more.length) more where
  sound := h.sound.setContent f.log.file more
  path_eq := h.path_eq
  found := (Disk.find_setContent ..).trans h.found
  raw := by
    obtain ⟨-, place, name, -, -, -, hnode⟩ := Disk.find_eq_file_iff.mp h.found
    have hlt : f.log.file < f.disk.contents.length := h.sound.files hnode
    exact Disk.content_setContent hlt more
  size := rfl

theorem Holds.append (h : Holds path f bytes) (more : Bytes) :
    ∃ f', f.append more = (.ok bytes.length, f') ∧ Holds path f' (bytes ++ more) := by
  unfold FileOnDisk.append
  by_cases hmore : more = []
  · rw [if_pos hmore, hmore, List.append_nil, h.size]
    exact ⟨f, rfl, h⟩
  · rw [if_neg hmore, h.raw, h.size, ← List.length_append]
    exact ⟨_, rfl, h.set _⟩

theorem Holds.truncate (h : Holds path f bytes) {length : Nat} (hlength : length ≤ bytes.length) :
    ∃ f', f.truncate length = (.ok (), f') ∧ Holds path f' (bytes.take length) := by
  -- the file has all the bytes that are kept, so none are filled in
  have hkept : bytes.take length ++ List.replicate (length - (bytes.take length).length) 0 = bytes.take length := by
    rw [List.length_take, Nat.min_eq_left hlength, Nat.sub_self, List.replicate_zero, List.append_nil]
  have hset := h.set (bytes.take length)
  rw [List.length_take, Nat.min_eq_left hlength] at hset
  simp only [FileOnDisk.truncate, h.size, h.raw, Nat.not_lt.mpr hlength, if_false, hkept]
  exact ⟨_, rfl, hset⟩

/-- A rewriting is refused before its sibling has replaced the file at the path, or leaves the new bytes in it. -/
theorem Holds.rewrite_cases (h : Holds path f bytes) (more : Bytes) :
    (∃ result written fault, f.disk.write f.log.sibling more = (result, written) ∧
        f.rewrite more = (.error (.ofSystem fault), { f with disk := written })) ∨
      ∃ written renamed file, f.disk.write f.log.sibling more = (.ok (), written) ∧
        written.rename f.log.sibling f.log.path = (.ok (), renamed) ∧
        f.rewrite more = (.ok (), ⟨⟨f.log.path, file, more.length⟩, renamed⟩) ∧
        Holds path ⟨⟨f.log.path, file, more.length⟩, renamed⟩ more := by
  unfold FileOnDisk.rewrite
  split
  · rename_i fault written hwrite
    exact .inl ⟨_, written, fault, hwrite, rfl⟩
  rename_i written hwrite
  split
  · rename_i fault renamed hrename
    obtain ⟨-, rfl⟩ | ⟨_, _, _, _, _, _, _, hok, -⟩ := Disk.rename_cases hrename
    · exact .inl ⟨_, _, fault, hwrite, rfl⟩
    · cases hok
  rename_i renamed hrename
  -- the file at the path is still found when its sibling has been written, and replaced by it then
  have hkeeps : ∀ kept, f.disk.Keeps kept written := fun _ => h.sound.keeps_write hwrite
  obtain ⟨id, hsibling, hcontent⟩ := h.sound.find_write hwrite
  have hpath : written.find f.log.path = .ok (.file f.log.file) := by
    rw [h.path_eq]
    exact Disk.find_file_of_keeps h.sound hkeeps h.found
  obtain ⟨hfind, hcontents⟩ := (hkeeps "").sound.find_rename hsibling hpath hrename
  rw [Disk.openFile_of_find hfind]
  refine .inr ⟨written, renamed, id, hwrite, hrename, rfl, ?_⟩
  exact {
    sound := (hkeeps "").sound.rename hrename
    path_eq := h.path_eq
    found := h.path_eq ▸ hfind
    raw := by
      rw [← hcontent]
      simp only [FileOnDisk.raw, Disk.content, hcontents]
    size := rfl }

/-- A rewriting that the system does not refuse leaves the new bytes in the file at the path. -/
theorem Holds.rewrite (h : Holds path f bytes) (more : Bytes) :
    (∃ fault f', f.rewrite more = (.error (.ofSystem fault), f')) ∨
      ∃ f', f.rewrite more = (.ok (), f') ∧ Holds path f' more := by
  obtain ⟨_, written, fault, -, hrewrite⟩ | ⟨written, renamed, file, -, -, hrewrite, hholds⟩ := h.rewrite_cases more
  · exact .inl ⟨fault, _, hrewrite⟩
  · exact .inr ⟨_, hrewrite, hholds⟩

/-! ## Calls and runs -/

variable {m : MemoryLog}

/-- A call that the system does not refuse is answered as by a log in memory, and does there what it does here. -/
theorem Holds.answer (h : Holds path f m.data) {q : LogCall} (hfault : (q.answer f).1.isFault = false) :
    (q.answer f).1 = (q.answer m).1 ∧ Holds path (q.answer f).2 (q.answer m).2.data := by
  cases q with
  | append more =>
    obtain ⟨f', happend, hholds⟩ := h.append more
    have happend : LogStorage.append more f = (.ok m.data.length, f') := happend
    simp only [LogCall.answer, happend]
    exact ⟨rfl, hholds⟩
  | readAll =>
    refine ⟨congrArg (fun read => LogAnswer.content (.ok read)) ?_, h⟩
    rw [h.raw, h.size, List.take_length]
  | sync => exact ⟨rfl, h⟩
  | size => exact ⟨congrArg (fun size => LogAnswer.size (.ok size)) h.size, h⟩
  | truncate length =>
    by_cases hlength : length ≤ m.data.length
    · obtain ⟨f', htruncate, hholds⟩ := h.truncate hlength
      have htruncate : LogStorage.truncate length f = (.ok (), f') := htruncate
      have hmemory : LogStorage.truncate length m = (.ok (), ⟨m.data.take length⟩) :=
        if_neg (Nat.not_lt.mpr hlength)
      simp only [LogCall.answer, htruncate, hmemory, true_and]
      exact hholds
    · have hlt : m.data.length < length := Nat.lt_of_not_le hlength
      have htruncate : LogStorage.truncate length f =
          (.error (.invalidArgument (.truncateBeyond length m.data.length)), f) := by
        rw [← h.size]
        exact if_pos (h.size ▸ hlt)
      have hmemory : LogStorage.truncate length m =
          (.error (.invalidArgument (.truncateBeyond length m.data.length)), m) := if_pos hlt
      simp only [LogCall.answer, htruncate, hmemory, true_and]
      exact h
  | rewrite more =>
    obtain ⟨fault, f', hrewrite⟩ | ⟨f', hrewrite, hholds⟩ := h.rewrite more
    · have hrewrite : LogStorage.rewrite more f = (.error (.ofSystem fault), f') := hrewrite
      simp only [LogCall.answer, hrewrite] at hfault
      cases hfault
    · have hrewrite : LogStorage.rewrite more f = (.ok (), f') := hrewrite
      simp only [LogCall.answer, hrewrite]
      exact ⟨rfl, hholds⟩

/-- Opening the log again finds it as it is. -/
theorem Holds.reopen (h : Holds path f bytes) : f.reopen.1 = .done (.ok ()) ∧ Holds path f.reopen.2 bytes := by
  have hopen : FileLog.openAt f.log.path f.disk = (.ok f.log, f.disk) := h.path_eq.symm ▸ h.openAt
  rw [FileOnDisk.reopen, hopen]
  exact ⟨rfl, h⟩

theorem Holds.run (h : Holds path f m.data) {events : List FileEvent} (hundisturbed : f.Undisturbed events)
    (hfaults : ∀ answer ∈ f.trace events, answer.isFault = false) :
    f.trace events = m.trace events ∧ Holds path (f.run events) (m.run events).data := by
  induction events generalizing f m with
  | nil => exact ⟨rfl, h⟩
  | cons event events ih =>
    cases event with
    | call q =>
      obtain ⟨hanswer, hnext⟩ := h.answer (q := q) (hfaults _ List.mem_cons_self)
      obtain ⟨htrace, hrun⟩ := ih (f := f.next (.call q)) (m := m.next (.call q)) hnext hundisturbed
        fun answer hmem => hfaults answer (List.mem_cons_of_mem _ hmem)
      exact ⟨by rw [trace, MemoryLog.trace, hanswer, htrace], hrun⟩
    | reopen =>
      obtain ⟨hanswer, hnext⟩ := h.reopen
      obtain ⟨htrace, hrun⟩ := ih (f := f.next .reopen) hnext hundisturbed
        fun answer hmem => hfaults answer (List.mem_cons_of_mem _ hmem)
      exact ⟨by rw [trace, MemoryLog.trace, hanswer, htrace], hrun⟩
    | elsewhere change =>
      obtain ⟨⟨hsound, hfind, hcontent⟩, hrest⟩ := hundisturbed
      have hnext : Holds path (f.next (.elsewhere change)) m.data := {
        sound := hsound
        path_eq := h.path_eq
        found := by
          rw [h.path_eq] at hfind
          exact hfind.trans h.found
        raw := hcontent.trans h.raw
        size := h.size }
      exact ih hnext hrest hfaults

/-- **File and memory.** A log file that has been opened on `data` and a log in memory with `data` answer the same to
the same calls, wherever the file is reopened in between, unless the system refuses an access or something else
changes the file; and then the file, read through its path or through the open handle, has the bytes that are in
memory, and the remembered size is theirs. -/
theorem trace_eq_memory {disk disk' : Disk} (hsound : disk.Sound) {path : String} {log : FileLog}
    (hopen : FileLog.openAt path disk = (.ok log, disk')) {data : Bytes} (hdata : disk'.read path = .ok data)
    (events : List FileEvent) (hundisturbed : FileOnDisk.Undisturbed ⟨log, disk'⟩ events)
    (hfaults : ∀ answer ∈ trace ⟨log, disk'⟩ events, answer.isFault = false) :
    let file := run ⟨log, disk'⟩ events
    let memory := MemoryLog.run ⟨data⟩ events
    trace ⟨log, disk'⟩ events = MemoryLog.trace ⟨data⟩ events ∧ file.disk.read path = .ok memory.data ∧
      file.raw = memory.data ∧ file.log.size = memory.data.length := by
  have hholds := holds_openAt hsound hopen
  obtain rfl : data = disk'.content log.file := Except.ok.inj (hdata.symm.trans hholds.read)
  obtain ⟨htrace, hrun⟩ := Holds.run (m := ⟨disk'.content log.file⟩) hholds hundisturbed hfaults
  exact ⟨htrace, hrun.read, hrun.raw, hrun.size⟩

/-- A log that is cut, rewritten and reopened, with another file written beside it; what lies beyond it is not cut. -/
theorem trace_eq_memory_rewritten :
    let disk : Disk := (Disk.write {} "LOG" [1, 2, 3]).2
    let log : FileLog := ⟨"LOG", 0, 3⟩
    let events : List FileEvent := [.call (.append [4]), .elsewhere (fun disk => (disk.write "LOG.tmp" [0]).2),
      .call (.truncate 2), .call (.rewrite [5, 6]), .reopen, .call (.append [7]), .call (.truncate 9), .call .readAll]
    disk.Sound ∧ FileLog.openAt "LOG" disk = (.ok log, disk) ∧ disk.read "LOG" = .ok [1, 2, 3] ∧
      Undisturbed ⟨log, disk⟩ events ∧ (∀ answer ∈ trace ⟨log, disk⟩ events, answer.isFault = false) ∧
      trace ⟨log, disk⟩ events = MemoryLog.trace ⟨[1, 2, 3]⟩ events ∧
      (run ⟨log, disk⟩ events).disk.read "LOG" = .ok [5, 6, 7] := by
  intro disk log events
  have hsound : disk.Sound := Disk.sound_empty.write (Prod.eta _).symm
  have hopen : FileLog.openAt "LOG" disk = (.ok log, disk) := rfl
  have hdata : disk.read "LOG" = .ok [1, 2, 3] := rfl
  have hundisturbed : Undisturbed ⟨log, disk⟩ events := by
    have happended : (disk.setContent 0 [1, 2, 3, 4]).Sound := hsound.setContent 0 [1, 2, 3, 4]
    have hfind : (disk.setContent 0 [1, 2, 3, 4]).find "LOG" = .ok (.file 0) := (Disk.find_setContent ..).trans rfl
    have hbeside := Disk.find_file_of_keeps happended
      (fun _ => happended.keeps_write (Prod.eta (Disk.write _ "LOG.tmp" [0])).symm) hfind
    exact ⟨⟨happended.write (Prod.eta _).symm, hbeside.trans hfind.symm, by decide +kernel⟩, trivial⟩
  have hfaults : ∀ answer ∈ trace ⟨log, disk⟩ events, answer.isFault = false := by decide +kernel
  obtain ⟨htrace, hread, -⟩ := trace_eq_memory hsound hopen hdata events hundisturbed hfaults
  exact ⟨hsound, hopen, hdata, hundisturbed, hfaults, htrace, hread⟩

end FileOnDisk

end OrderedStore
