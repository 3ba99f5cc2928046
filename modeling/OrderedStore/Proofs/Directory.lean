import OrderedStore.Connection.Media
import OrderedStore.Proofs.Connection
import OrderedStore.Proofs.Disk

/-!
# What is done in a store directory

Opening a store directory takes the lock of its file `LOCK`, and gives it back if anything fails behind it. The work
on the log of a directory never touches that file.

* `LogStorage.Preserves`: what the methods of a log storage keep; so do the operations of a connection on it;
* `FileOnDisk.preserves`, `Preserves.onDirectory`, `Medium.preserves`: the log of a directory and its disk;
* `Directory.Reaches`: an attempt to open a directory gets as far as its lock;
* `Directory.openAt_cases`, `openDirectory_cases`: how an attempt ends.
-/

namespace OrderedStore

/-! ## What every method keeps -/

namespace LogStorage

variable {σ : Type} [LogStorage σ]

/-- Every method but the release keeps a property of the storage. -/
structure Preserves (P : σ → Prop) : Prop where
  append {s : σ} (bytes : Bytes) : P s → P (LogStorage.append bytes s).2
  sync {s : σ} : P s → P (LogStorage.sync s).2
  truncate {s : σ} (length : Nat) : P s → P (LogStorage.truncate length s).2
  rewrite {s : σ} (bytes : Bytes) : P s → P (LogStorage.rewrite bytes s).2

variable {P : σ → Prop} {s : σ}

theorem Preserves.appendRecord (h : Preserves P) (r : Record) (hs : P s) : P (LogStorage.appendRecord r s).2 := by
  unfold LogStorage.appendRecord
  split
  · exact hs
  · exact h.append _ hs

theorem Preserves.rewriteRecords (h : Preserves P) (rs : List Record) (hs : P s) :
    P (LogStorage.rewriteRecords rs s).2 := by
  unfold LogStorage.rewriteRecords
  split
  · exact hs
  · exact h.rewrite _ hs

theorem Preserves.repair (h : Preserves P) (options : EngineOptions) (replay : Replay) (hs : P s) :
    P (Connection.repair options replay s).2 := by
  unfold Connection.repair
  split
  · exact hs
  · split
    · exact hs
    · exact h.truncate _ hs

theorem Preserves.write (h : Preserves P) {c : Connection σ} (w : Write) (hs : P c.log) : P (c.write w).2.log := by
  obtain ⟨make, -, heq⟩ | ⟨-, heq⟩ := c.write_eq w
  · obtain ⟨result, c', hcommit⟩ : ∃ result c', c.commit make = (result, c') := ⟨_, _, rfl⟩
    have hlog := h.appendRecord (make (c.sequence + 1)) hs
    rw [heq, hcommit]
    obtain ⟨-, -, rfl⟩ | ⟨-, e, -, -, rfl⟩ | ⟨-, size, -, ⟨e, log, happend, -, rfl⟩ | ⟨offset, log, happend, -, rfl⟩⟩ :=
      Connection.commit_cases hcommit
    · exact hs
    · exact hs
    · rw [happend] at hlog
      exact h.truncate size hlog
    · rwa [happend] at hlog
  · rw [heq]
    exact hs

theorem Preserves.compact (h : Preserves P) {c : Connection σ} (hs : P c.log) : P c.compact.2 := by
  have hrewrite := h.rewriteRecords c.compacted hs
  unfold Connection.compact
  split
  · rename_i hfailed
    rwa [hfailed] at hrewrite
  · rename_i hdone
    rw [hdone] at hrewrite
    exact h.sync hrewrite

/-- A connection is opened with what is kept, or released with it. -/
theorem Preserves.openOn (h : Preserves P) {path : Option String} {options : EngineOptions} (hs : P s) :
    (∃ e log, Connection.openOn path options s = .error (e, LogStorage.release log) ∧ P log) ∨
      ∃ c, Connection.openOn path options s = .ok c ∧ P c.log ∧ c.isOpen = true ∧ c.path = path := by
  unfold Connection.openOn
  split
  · exact .inl ⟨_, s, rfl, hs⟩
  · split
    · exact .inl ⟨_, s, rfl, hs⟩
    · rename_i replay hreplay
      have hrepair := h.repair options replay hs
      split
      · rename_i e log hfailed
        rw [hfailed] at hrepair
        exact .inl ⟨e, log, rfl, hrepair⟩
      · rename_i log hdone
        rw [hdone] at hrepair
        exact .inr ⟨_, rfl, hrepair, rfl, rfl⟩

end LogStorage

/-! ## Logs in files -/

variable {kept : String}

theorem FileLog.openAt_cases {path : String} {disk disk' : Disk} (hs : disk.Sound) {result : Except EngineError FileLog}
    (h : openAt path disk = (result, disk')) : disk.Keeps kept disk' ∧
      ((∃ fault, result = .error (.ofSystem fault)) ∨ ∃ log, result = .ok log ∧ log.path = path) := by
  unfold openAt at h
  split at h
  · rename_i fault opened hopen
    cases h
    exact ⟨hs.keeps_openFile hopen, .inl ⟨fault, rfl⟩⟩
  · rename_i file opened hopen
    cases h
    exact ⟨hs.keeps_openFile hopen, .inr ⟨_, rfl, rfl⟩⟩

/-- The methods of a log file change the disk at its path and at that of the sibling only. -/
theorem FileOnDisk.preserves {path : String} (d : Disk) (hpath : (Route.split path).getLast? ≠ some kept)
    (hsibling : (Route.split (path ++ ".tmp")).getLast? ≠ some kept) :
    LogStorage.Preserves fun f : FileOnDisk => f.log.path = path ∧ d.Keeps kept f.disk where
  append {f} bytes hf := by
    show (f.append bytes).2.log.path = path ∧ d.Keeps kept (f.append bytes).2.disk
    unfold FileOnDisk.append
    split
    · exact hf
    · exact ⟨hf.1, hf.2.trans (hf.2.sound.keeps_setContent ..)⟩
  sync hf := hf
  truncate {f} length hf := by
    show (f.truncate length).2.log.path = path ∧ d.Keeps kept (f.truncate length).2.disk
    unfold FileOnDisk.truncate
    split
    · exact hf
    · exact ⟨hf.1, hf.2.trans (hf.2.sound.keeps_setContent ..)⟩
  rewrite {f} bytes hf := by
    obtain ⟨rfl, hkeeps⟩ := hf
    show (f.rewrite bytes).2.log.path = f.log.path ∧ d.Keeps kept (f.rewrite bytes).2.disk
    unfold FileOnDisk.rewrite
    split
    · rename_i hwrite
      exact ⟨rfl, hkeeps.trans (hkeeps.sound.keeps_write hwrite)⟩
    rename_i written hwrite
    have hwritten := hkeeps.trans (hkeeps.sound.keeps_write hwrite)
    split
    · rename_i hrename
      exact ⟨rfl, hwritten.trans (hwritten.sound.keeps_rename hrename hsibling hpath)⟩
    rename_i renamed hrename
    have hrenamed := hwritten.trans (hwritten.sound.keeps_rename hrename hsibling hpath)
    split
    · rename_i hopen
      exact ⟨rfl, hrenamed.trans (hrenamed.sound.keeps_openFile hopen)⟩
    · rename_i hopen
      exact ⟨rfl, hrenamed.trans (hrenamed.sound.keeps_openFile hopen)⟩

/-- The medium is the log of a directory, which has a property as a log in its file. -/
def Medium.OnDirectory (dir : Directory) (P : FileOnDisk → Prop) (m : Medium) : Prop :=
  ∃ log, m.handle = .directory dir log ∧ P ⟨log, m.media.disk⟩

/-- What the methods of a log file keep, those of the log of a directory keep. -/
theorem LogStorage.Preserves.onDirectory {P : FileOnDisk → Prop} (h : LogStorage.Preserves P) (dir : Directory) :
    LogStorage.Preserves (Medium.OnDirectory dir P) where
  append {m} bytes := by
    rintro ⟨log, hhandle, hm⟩
    simp only [LogStorage.append, Medium.run, hhandle]
    exact ⟨_, rfl, h.append bytes hm⟩
  sync {m} := by
    rintro ⟨log, hhandle, hm⟩
    simp only [LogStorage.sync, Medium.run, hhandle]
    exact ⟨_, rfl, h.sync hm⟩
  truncate {m} length := by
    rintro ⟨log, hhandle, hm⟩
    simp only [LogStorage.truncate, Medium.run, hhandle]
    exact ⟨_, rfl, h.truncate length hm⟩
  rewrite {m} bytes := by
    rintro ⟨log, hhandle, hm⟩
    simp only [LogStorage.rewrite, Medium.run, hhandle]
    exact ⟨_, rfl, h.rewrite bytes hm⟩

/-- The methods of the log of a directory leave its lock alone. -/
theorem Medium.preserves {path : String} (dir : Directory) (d : Disk) (hpath : (Route.split path).getLast? ≠ some kept)
    (hsibling : (Route.split (path ++ ".tmp")).getLast? ≠ some kept) :
    LogStorage.Preserves fun m : Medium =>
      ∃ log, m.handle = .directory dir log ∧ log.path = path ∧ d.Keeps kept m.media.disk :=
  (FileOnDisk.preserves d hpath hsibling).onDirectory dir

/-! ## The files of a directory -/

/-- The error says that another connection holds the store. -/
def EngineError.isLocked : EngineError → Bool
  | locked _ => true
  | _ => false

theorem joinPath_append (path name suffix : String) :
    joinPath path name ++ suffix = joinPath path (name ++ suffix) := by
  unfold joinPath
  split <;> simp only [String.append_assoc]

theorem getLast?_split_joinPath (path : String) {name : String} (hslash : '/' ∉ name.toList) (hname : name ≠ "") :
    (Route.split (joinPath path name)).getLast? = some name := by
  rw [Route.split_joinPath path hslash hname, List.getLast?_concat]

/-- A file of a directory does not have the name of another one. -/
theorem getLast?_split_joinPath_ne (path : String) {name kept : String} (hslash : '/' ∉ name.toList) (hname : name ≠ "")
    (hne : name ≠ kept) : (Route.split (joinPath path name)).getLast? ≠ some kept := by
  rw [getLast?_split_joinPath path hslash hname]
  exact fun heq => hne (Option.some.inj heq)

namespace Directory

variable {path : String} {options : EngineOptions} {disk disk' : Disk} {lock : FileId}

theorem getLast?_split_logPath_ne (path : String) : (Route.split (logPath path)).getLast? ≠ some "LOCK" :=
  getLast?_split_joinPath_ne path (by decide) (by decide) (by decide)

theorem getLast?_split_sibling_ne (path : String) : (Route.split (logPath path ++ ".tmp")).getLast? ≠ some "LOCK" := by
  rw [logPath, joinPath_append]
  exact getLast?_split_joinPath_ne path (by decide) (by decide) (by decide)

/-! ## Attempts -/

/-- An attempt to open a directory gets as far as its lock: the store is there or may be made, it may be there, the
directory is made, and its file `LOCK` is opened. -/
structure Reaches (path : String) (options : EngineOptions) (disk : Disk) (lock : FileId) (disk' : Disk) : Prop where
  wanted : isPresent disk path = true ∨ options.createIfMissing = true
  allowed : isPresent disk path = false ∨ options.errorIfExists = false
  opened : ∃ made, disk.makeDirectories path = (.ok (), made) ∧ made.isDirectory path = true ∧
    made.openFile (lockPath path) = (.ok lock, disk')

theorem Reaches.keeps (h : Reaches path options disk lock disk') (hs : disk.Sound) : disk.Keeps kept disk' := by
  obtain ⟨made, hmake, -, hopen⟩ := h.opened
  have hmade : disk.Keeps kept made := hs.keeps_makeDirectories hmake
  exact hmade.trans (hmade.sound.keeps_openFile hopen)

/-- The opened file is that of the folder to which the path leads. -/
theorem Reaches.place (h : Reaches path options disk lock disk') (hs : disk.Sound) :
    ∃ place, disk'.find path = .ok (.directory place) ∧ disk'.node? place "LOCK" = some (.file lock) := by
  obtain ⟨made, hmake, hdirectory, hopen⟩ := h.opened
  have hmade : disk.Keeps "LOCK" made := hs.keeps_makeDirectories hmake
  have hopened : made.Keeps "LOCK" disk' := hmade.sound.keeps_openFile hopen
  unfold Disk.isDirectory at hdirectory
  split at hdirectory
  · rename_i place hplace
    have hfind := hopened.toExtends.find_directory hmade.sound hplace
    exact ⟨place, hfind,
      Disk.node?_of_find_joinPath (by decide) (by decide) hfind (hmade.sound.find_openFile hopen).1⟩
  · cases hdirectory

theorem Reaches.unique {lock' : FileId} {disk₁ disk₂ : Disk} (h : Reaches path options disk lock disk₁)
    (h' : Reaches path options disk lock' disk₂) : lock' = lock ∧ disk₂ = disk₁ := by
  obtain ⟨made, hmake, -, hopen⟩ := h.opened
  obtain ⟨made', hmake', -, hopen'⟩ := h'.opened
  cases hmake.symm.trans hmake'
  cases hopen.symm.trans hopen'
  exact ⟨rfl, rfl⟩

/-- The format is written without touching the lock. -/
theorem keeps_writeFormat (hs : disk.Sound) {result : Except EngineError Unit}
    (h : writeFormat disk path = (result, disk')) :
    disk.Keeps "LOCK" disk' ∧ ∀ e, result = .error e → e.isLocked = false := by
  unfold writeFormat at h
  dsimp only at h
  split at h
  · rename_i hwrite
    cases h
    exact ⟨hs.keeps_write hwrite, fun e he => Except.error.inj he ▸ rfl⟩
  · rename_i written hwrite
    have hwritten : disk.Keeps "LOCK" written := hs.keeps_write hwrite
    have hkeeps : ∀ {result disk'}, written.rename (joinPath path "CURRENT.tmp") (currentPath path) = (result, disk') →
        disk.Keeps "LOCK" disk' := fun hrename => hwritten.trans (hwritten.sound.keeps_rename hrename
      (getLast?_split_joinPath_ne path (by decide) (by decide) (by decide))
      (getLast?_split_joinPath_ne path (by decide) (by decide) (by decide)))
    split at h
    · rename_i hrename
      cases h
      exact ⟨hkeeps hrename, fun e he => Except.error.inj he ▸ rfl⟩
    · rename_i hrename
      cases h
      exact ⟨hkeeps hrename, fun e he => by cases he⟩

theorem isLocked_of_checkFormat {e : EngineError} (h : checkFormat disk path = .error e) : e.isLocked = false := by
  unfold checkFormat at h
  split at h
  · cases h
    rfl
  · split at h
    · cases h
      rfl
    · dsimp only at h
      split at h
      · cases h
      · cases h
        rfl

/-- An attempt that has the lock open finds it held, gives it back, or keeps it. -/
theorem enter_cases (hs : disk.Sound) {present : Bool} {opened : Disk}
    (hopen : disk.openFile (lockPath path) = (.ok lock, opened)) {result : Except EngineError Directory}
    (h : enter path present disk = (result, disk')) :
    lock ∈ opened.locks ∧ result = .error (.locked path) ∧ disk' = opened ∨
      lock ∉ opened.locks ∧
        ((∃ e inside, result = .error e ∧ e.isLocked = false ∧ (opened.lock lock).Keeps "LOCK" inside ∧
            disk' = inside.unlock lock) ∨
          result = .ok ⟨path, lock⟩ ∧ (opened.lock lock).Keeps "LOCK" disk') := by
  have hsound : (opened.lock lock).Sound := (hs.openFile hopen).lock lock
  unfold enter at h
  rw [hopen] at h
  dsimp only at h
  split at h
  · rename_i hlocked
    cases h
    exact .inl ⟨by simpa [Disk.isLocked] using hlocked, rfl, rfl⟩
  · rename_i hfree
    refine .inr ⟨by simpa [Disk.isLocked] using hfree, ?_⟩
    -- the format is checked, which changes nothing, or written
    obtain ⟨checked, inside, heq, hkeeps, hlocked⟩ : ∃ checked inside,
        (if present = true then (checkFormat opened path, opened.lock lock)
          else writeFormat (opened.lock lock) path) = (checked, inside) ∧
        (opened.lock lock).Keeps "LOCK" inside ∧ ∀ e, checked = .error e → e.isLocked = false := by
      split
      · exact ⟨_, _, rfl, hsound.keeps_refl, fun e he => isLocked_of_checkFormat he⟩
      · exact ⟨_, _, rfl, keeps_writeFormat hsound rfl⟩
    rw [heq] at h
    cases checked with
    | error e =>
      cases h
      exact .inl ⟨e, inside, rfl, hlocked e rfl, hkeeps, rfl⟩
    | ok =>
      cases h
      exact .inr ⟨rfl, hkeeps⟩

/-- An attempt to open a directory ends before its lock, or as `enter_cases` says. -/
theorem openAt_cases (hs : disk.Sound) {result : Except EngineError Directory}
    (h : openAt path options disk = (result, disk')) :
    (∃ e, result = .error e ∧ e.isLocked = false ∧ (∀ lock opened, ¬Reaches path options disk lock opened) ∧
        disk.Keeps "LOCK" disk') ∨
      ∃ lock opened, Reaches path options disk lock opened ∧
        (lock ∈ opened.locks ∧ result = .error (.locked path) ∧ disk' = opened ∨
          lock ∉ opened.locks ∧
            ((∃ e inside, result = .error e ∧ e.isLocked = false ∧ (opened.lock lock).Keeps "LOCK" inside ∧
                disk' = inside.unlock lock) ∨
              result = .ok ⟨path, lock⟩ ∧ (opened.lock lock).Keeps "LOCK" disk')) := by
  unfold openAt at h
  dsimp only at h
  split at h
  · rename_i hmissing
    simp only [Bool.and_eq_true, Bool.not_eq_eq_eq_not, Bool.not_true] at hmissing
    cases h
    refine .inl ⟨_, rfl, rfl, fun lock opened hreach => ?_, hs.keeps_refl⟩
    obtain hpresent | hcreate := hreach.wanted
    · exact absurd (hpresent.symm.trans hmissing.1) (by decide)
    · exact absurd (hcreate.symm.trans hmissing.2) (by decide)
  rename_i hwanted
  split at h
  · rename_i hexists
    simp only [Bool.and_eq_true] at hexists
    cases h
    refine .inl ⟨_, rfl, rfl, fun lock opened hreach => ?_, hs.keeps_refl⟩
    obtain hpresent | herror := hreach.allowed
    · exact absurd (hpresent.symm.trans hexists.1) (by decide)
    · exact absurd (herror.symm.trans hexists.2) (by decide)
  rename_i hallowed
  split at h
  · rename_i hmake
    cases h
    refine .inl ⟨_, rfl, rfl, fun lock opened hreach => ?_, hs.keeps_makeDirectories hmake⟩
    obtain ⟨made, hmade, -⟩ := hreach.opened
    cases hmake.symm.trans hmade
  rename_i made hmake
  have hmade : disk.Keeps "LOCK" made := hs.keeps_makeDirectories hmake
  split at h
  · rename_i hdirectory
    obtain ⟨fault | lock, opened, hopen⟩ : ∃ locked opened, made.openFile (lockPath path) = (locked, opened) :=
      ⟨_, _, rfl⟩
    · unfold enter at h
      rw [hopen] at h
      cases h
      refine .inl ⟨_, rfl, rfl, fun lock opened hreach => ?_, hmade.trans (hmade.sound.keeps_openFile hopen)⟩
      obtain ⟨made, hmade, -, hopened⟩ := hreach.opened
      cases hmake.symm.trans hmade
      cases hopen.symm.trans hopened
    · refine .inr ⟨lock, opened, ?_, enter_cases hmade.sound hopen h⟩
      exact {
        wanted := by
          simp only [Bool.and_eq_true, Bool.not_eq_eq_eq_not, Bool.not_true, not_and_or, Bool.not_eq_false] at hwanted
          exact hwanted
        allowed := by
          simp only [Bool.and_eq_true, not_and_or, Bool.not_eq_true] at hallowed
          exact hallowed
        opened := ⟨made, hmake, hdirectory, hopen⟩ }
  · rename_i hdirectory
    cases h
    refine .inl ⟨_, rfl, rfl, fun lock opened hreach => ?_, hmade⟩
    obtain ⟨made, hmade, hreached, -⟩ := hreach.opened
    cases hmake.symm.trans hmade
    exact hdirectory hreached

end Directory

namespace Connection

theorem isLocked_of_validate {options : EngineOptions} {e : EngineError} (h : options.validate = .error e) :
    e.isLocked = false := by
  unfold EngineOptions.validate at h
  split at h
  · cases h
    rfl
  · cases h

/-- The log of a directory is read, and refused only for what is in it. -/
theorem isLocked_of_openOn {path : Option String} {options : EngineOptions} {m m' : Medium} {dir : Directory}
    {log : FileLog} (hhandle : m.handle = .directory dir log) {e : EngineError}
    (h : openOn path options m = .error (e, m')) : e.isLocked = false := by
  unfold openOn at h
  split at h
  · rename_i hinvalid
    cases h
    exact isLocked_of_validate hinvalid
  · split at h
    · rename_i hreplay
      simp only [LogStorage.replay, LogStorage.readAll, Medium.ask, hhandle] at hreplay
      cases hreplay
    · split at h
      · rename_i hrepair
        cases h
        unfold repair at hrepair
        split at hrepair
        · cases hrepair
        · split at hrepair
          · cases hrepair
            rfl
          · simp only [LogStorage.truncate, Medium.run, hhandle, FileOnDisk.truncate] at hrepair
            split at hrepair
            · cases hrepair
              rfl
            · cases hrepair
      · cases h

/-- Opening a connection on the log of a directory gives the lock back, or leaves it taken. -/
theorem openHandle_cases {place : String} {dir : Directory} {log : FileLog} {media media' : Media} {d : Disk}
    (hpath : log.path = Directory.logPath place) (hkeeps : d.Keeps "LOCK" media.disk) {path : Option String}
    {options : EngineOptions} {result : Except EngineError DetachedConnection}
    (h : openHandle path options (.directory dir log) media = (result, media')) :
    (∃ e inside, result = .error e ∧ e.isLocked = false ∧ d.Keeps "LOCK" inside ∧
        media'.disk = inside.unlock dir.lock) ∨
      ∃ c log, result = .ok c ∧ c.isOpen = true ∧ c.path = path ∧ c.log = .directory dir log ∧
        log.path = Directory.logPath place ∧ d.Keeps "LOCK" media'.disk := by
  have hpreserves := Medium.preserves dir d (Directory.getLast?_split_logPath_ne place)
    (Directory.getLast?_split_sibling_ne place)
  unfold openHandle at h
  obtain ⟨e, m, hrefused, log', hhandle, -, hinside⟩ | ⟨c, hmade, ⟨log', hhandle, hlog', hinside⟩, hisOpen, hcpath⟩ :=
    hpreserves.openOn (s := ⟨.directory dir log, media⟩) ⟨log, rfl, hpath, hkeeps⟩
  · rw [hrefused] at h
    cases h
    refine .inl ⟨e, m.media.disk, rfl, isLocked_of_openOn rfl hrefused, hinside, ?_⟩
    simp only [LogStorage.release, Medium.release, hhandle, Directory.close]
  · rw [hmade] at h
    cases h
    exact .inr ⟨_, log', rfl, hisOpen, hcpath, hhandle, hlog', hinside⟩

/-- An attempt to open the store directory at a path leaves all locks as they were and fails, as locked if it reaches a
lock that is held; or it reaches one that is free and takes it. -/
theorem openDirectory_cases {path : String} {options : EngineOptions} {media media' : Media} (hs : media.disk.Sound)
    {result : Except EngineError DetachedConnection} (h : openDirectory path options media = (result, media')) :
    (∃ e, result = .error e ∧ media.disk.Keeps "LOCK" media'.disk ∧ ∀ p, e = .locked p ↔ p = path ∧
        options.validate = .ok () ∧ ∃ lock opened, Directory.Reaches path options media.disk lock opened ∧
          lock ∈ opened.locks) ∨
      ∃ c lock opened log, result = .ok c ∧ options.validate = .ok () ∧
        Directory.Reaches path options media.disk lock opened ∧ lock ∉ opened.locks ∧ c.isOpen = true ∧
        c.path = some path ∧ c.log = .directory ⟨path, lock⟩ log ∧ log.path = Directory.logPath path ∧
        (opened.lock lock).Keeps "LOCK" media'.disk := by
  unfold openDirectory at h
  split at h
  · rename_i e hinvalid
    cases h
    refine .inl ⟨e, rfl, hs.keeps_refl, fun p => ⟨fun heq => ?_, fun ⟨_, hvalid, _⟩ => ?_⟩⟩
    · have hne := isLocked_of_validate hinvalid
      rw [heq] at hne
      cases hne
    · cases hinvalid.symm.trans hvalid
  rename_i hvalid
  obtain ⟨opening, disk, hopening⟩ : ∃ opening disk, Directory.openAt path options media.disk = (opening, disk) :=
    ⟨_, _, rfl⟩
  rw [hopening] at h
  obtain ⟨e, rfl, hne, hearly, hkeeps⟩ | ⟨lock, opened, hreach, hend⟩ := Directory.openAt_cases hs hopening
  · cases h
    refine .inl ⟨e, rfl, hkeeps, fun p => ⟨fun heq => ?_, fun ⟨_, _, lock, opened, hreach, _⟩ => ?_⟩⟩
    · rw [heq] at hne
      cases hne
    · exact absurd hreach (hearly lock opened)
  have hopened : media.disk.Keeps "LOCK" opened := hreach.keeps hs
  obtain ⟨hheld, rfl, rfl⟩ | ⟨hfree, hend⟩ := hend
  · cases h
    refine .inl ⟨_, rfl, hopened, fun p => ⟨fun heq => ?_, fun ⟨heq, _⟩ => heq ▸ rfl⟩⟩
    cases heq
    exact ⟨rfl, hvalid, lock, disk, hreach, hheld⟩
  -- what fails behind a free lock gives it back, and does not call it held
  have hfails : ∀ {e : EngineError} {inside : Disk}, e.isLocked = false → (opened.lock lock).Keeps "LOCK" inside →
      media.disk.Keeps "LOCK" (inside.unlock lock) ∧ ∀ p, e = .locked p ↔ p = path ∧ options.validate = .ok () ∧
        ∃ lock opened, Directory.Reaches path options media.disk lock opened ∧ lock ∈ opened.locks := by
    intro e inside hne hinside
    refine ⟨hopened.trans (hinside.unlock hfree), fun p => ⟨fun heq => ?_, ?_⟩⟩
    · rw [heq] at hne
      cases hne
    · rintro ⟨-, -, lock', opened', hreach', hheld⟩
      obtain ⟨rfl, rfl⟩ := hreach.unique hreach'
      exact absurd hheld hfree
  obtain ⟨e, inside, rfl, hne, hinside, rfl⟩ | ⟨rfl, hinside⟩ := hend
  · cases h
    exact .inl ⟨e, rfl, hfails hne hinside⟩
  dsimp only at h
  split at h
  · rename_i e logged hlog
    cases h
    obtain ⟨hlogged, ⟨fault, hfault⟩ | ⟨log, hok, -⟩⟩ := FileLog.openAt_cases hinside.sound hlog
    · cases hfault
      exact .inl ⟨_, rfl, hfails rfl (hinside.trans hlogged)⟩
    · cases hok
  · rename_i log logged hlog
    obtain ⟨hlogged, ⟨fault, hfault⟩ | ⟨log, hok, hpath⟩⟩ := FileLog.openAt_cases hinside.sound hlog
    · cases hfault
    · cases hok
      obtain ⟨e, inside, rfl, hne, hkeeps, hdisk⟩ | ⟨c, log', rfl, hisOpen, hcpath, hhandle, hlog', hkeeps⟩ :=
        openHandle_cases hpath (hinside.trans hlogged) h
      · rw [hdisk]
        exact .inl ⟨e, rfl, hfails hne hkeeps⟩
      · exact .inr ⟨c, lock, opened, log', rfl, hvalid, hreach, hfree, hisOpen, hcpath, hhandle, hlog', hkeeps⟩

end Connection

end OrderedStore
