import OrderedStore.Proofs.Serving
import OrderedStore.Proofs.Vacancy

/-!
# Opening a store directory

A directory at rest is opened as it is. Where nothing is, a new one is made if the options allow: its file `LOCK` is
new, `CURRENT` names the format, and the log is empty.

* `Directory.Vacant`: nothing is at a path; `vacant_of_find`: paths that do not go up;
* `Connection.Opens`: an opening gives a connection that serves a map, and has no readers yet;
* `AtRest.openDirectory`, `Vacant.openDirectory`: the openings of either;
* `Vacant.openDirectory_eq`: an opening that must not make anything.
-/

namespace OrderedStore

namespace Directory

variable {path : String} {options : EngineOptions} {disk disk' : Disk}

/-- Nothing is at a path. On a path that goes up from a directory that is missing, something may come to light when that
one is made; so nothing is in the directory that is made at the path either. -/
structure Vacant (path : String) (disk : Disk) : Prop where
  missing : ∀ node, disk.find path ≠ .ok node
  empty {made : Disk} {place : FolderId} : disk.makeDirectories path = (.ok (), made) →
    made.find path = .ok (.directory place) → (made.folder place).entries = []

/-- On a path that does not go up, a directory that is made is empty anyway. -/
theorem vacant_of_find (hs : disk.Sound) (hup : ".." ∉ Route.split path)
    (hmissing : ∀ node, disk.find path ≠ .ok node) : Vacant path disk :=
  ⟨hmissing, hs.entries_makeDirectories hup hmissing⟩

/-! ## The format -/

theorem checkFormat_of_read (h : disk.read (currentPath path) = .ok formatFile) : checkFormat disk path = .ok () := by
  have htext : Bytes.toText? formatFile = some (formatTag ++ "\n") := by decide +kernel
  have htrim : Text.trim (formatTag ++ "\n") = formatTag := by decide +kernel
  simp only [checkFormat, h, htext, htrim, if_true]

theorem isPresent_of_read {bytes : Bytes} (h : disk.read (currentPath path) = .ok bytes) :
    isPresent disk path = true := by
  obtain ⟨id, hid, -⟩ := Disk.read_eq_ok_iff.mp h
  simp only [isPresent, Disk.isFile, hid]

/-- The format is written into `CURRENT`, past the log. -/
theorem writeFormat_cases (hs : disk.Sound) {result : Except EngineError Unit}
    (h : writeFormat disk path = (result, disk')) :
    (∃ fault, result = .error (.ofSystem fault)) ∨
      result = .ok () ∧ disk'.read (currentPath path) = .ok formatFile ∧ disk.Spares "LOG" disk' := by
  have hsibling : (Route.split (joinPath path "CURRENT.tmp")).getLast? ≠ some "LOG" :=
    getLast?_split_joinPath_ne path (by decide) (by decide) (by decide)
  have hcurrent : (Route.split (currentPath path)).getLast? ≠ some "LOG" :=
    getLast?_split_joinPath_ne path (by decide) (by decide) (by decide)
  unfold writeFormat at h
  dsimp only at h
  split at h
  · cases h
    exact .inl ⟨_, rfl⟩
  rename_i written hwrite
  split at h
  · cases h
    exact .inl ⟨_, rfl⟩
  rename_i renamed hrename
  cases h
  have hwritten := hs.write hwrite
  obtain ⟨id, hfind, hcontent⟩ := hs.find_write hwrite
  obtain ⟨hmoved, hcontents⟩ := hwritten.find_rename_of_slash hfind
    (fun route hroute => slash_joinPath (by decide) (by decide) hroute) hrename
  refine .inr ⟨rfl, Disk.read_eq_ok_iff.mpr ⟨id, hmoved, ?_⟩, ?_⟩
  · rw [Disk.content, hcontents]
    exact hcontent
  · exact (hs.spares_write hwrite hsibling).trans (hwritten.spares_rename hrename hsibling hcurrent)

/-! ## Directories at rest -/

/-- The files of a directory whose lock is free are found as they are. -/
theorem Houses.openAt {lock : FileId} {log : FileLog} {bytes : Bytes} (h : Houses ⟨path, lock⟩ ⟨log, disk⟩ bytes)
    (hfree : lock ∉ disk.locks) (hallowed : options.errorIfExists = false) :
    openAt path options disk = (.ok ⟨path, lock⟩, disk.lock lock) := by
  obtain ⟨place, hplace⟩ := h.folder
  have hpresent : isPresent disk path = true := isPresent_of_read h.format
  have hdirectory : disk.isDirectory path = true := by simp only [Disk.isDirectory, hplace]
  have hunlocked : disk.isLocked lock = false := by simpa [Disk.isLocked] using hfree
  have henter : enter path true disk = (.ok ⟨path, lock⟩, disk.lock lock) := by
    simp only [enter, Disk.openFile_of_find h.lock, hunlocked, checkFormat_of_read h.format, Bool.false_eq_true,
      if_false, if_true]
  simp only [Directory.openAt, hpresent, hallowed, Disk.makeDirectories_of_find hplace, hdirectory, henter,
    Bool.not_true, Bool.false_and, Bool.and_false, Bool.false_eq_true, if_false, if_true]

/-! ## Directories that are made -/

/-- A store directory before its log is opened for the first time. -/
structure Founded (dir : Directory) (disk : Disk) : Prop where
  sound : disk.Sound
  folder : ∃ place, disk.find dir.path = .ok (.directory place) ∧ disk.node? place "LOG" = none
  format : disk.read (currentPath dir.path) = .ok formatFile
  lock : disk.find (lockPath dir.path) = .ok (.file dir.lock)

/-- Its log is empty. -/
theorem Founded.openLog {dir : Directory} (h : Founded dir disk) :
    (∃ fault disk', FileLog.openAt (logPath dir.path) disk = (.error (.ofSystem fault), disk')) ∨
      ∃ log disk', FileLog.openAt (logPath dir.path) disk = (.ok log, disk') ∧ dir.Houses ⟨log, disk'⟩ [] := by
  obtain ⟨fault | file, opened, hopen⟩ : ∃ result opened, disk.openFile (logPath dir.path) = (result, opened) :=
    ⟨_, _, rfl⟩
  · exact .inl ⟨fault, opened, by rw [FileLog.openAt, hopen]⟩
  have hlog : FileLog.openAt (logPath dir.path) disk =
      (.ok ⟨logPath dir.path, file, (opened.content file).length⟩, opened) := by rw [FileLog.openAt, hopen]
  obtain ⟨place, hplace, hnone⟩ := h.folder
  have hempty : opened.content file = [] := by
    obtain ⟨-, ⟨hfound, -⟩ | hnew⟩ := h.sound.find_openFile hopen
    · have hnode := Disk.node?_of_find_joinPath (by decide) (by decide) hplace hfound
      cases hnone.symm.trans hnode
    · exact hnew
  have hkeeps : ∀ kept, disk.Keeps kept opened := fun _ => h.sound.keeps_openFile hopen
  refine .inr ⟨_, opened, hlog, {
    log := hempty ▸ FileOnDisk.holds_openAt h.sound hlog
    folder := ⟨place, (hkeeps "").toExtends.find_directory h.sound hplace⟩
    format := Disk.read_of_keeps h.format fun id hid => ⟨Disk.find_file_of_keeps h.sound hkeeps hid,
      Disk.content_openFile hopen (h.sound.lt_of_find hid)⟩
    lock := Disk.find_file_of_keeps h.sound hkeeps h.lock }⟩

/-- In an empty directory the file `LOCK` is new, so that nobody holds it, and the format is written. -/
theorem enter_of_empty (hs : disk.Sound) (hlocks : ∀ id ∈ disk.locks, id < disk.contents.length) {place : FolderId}
    (hplace : disk.find path = .ok (.directory place)) (hempty : (disk.folder place).entries = [])
    {result : Except EngineError Directory} (h : enter path false disk = (result, disk')) :
    (∃ fault, result = .error (.ofSystem fault)) ∨ ∃ lock, result = .ok ⟨path, lock⟩ ∧ Founded ⟨path, lock⟩ disk' := by
  have hnone : ∀ name, disk.node? place name = none := fun name => by
    rw [Disk.node?, hempty]
    rfl
  obtain ⟨fault | lock, opened, hopen⟩ : ∃ result opened, disk.openFile (lockPath path) = (result, opened) :=
    ⟨_, _, rfl⟩
  · rw [enter, hopen] at h
    cases h
    exact .inl ⟨_, rfl⟩
  have hopened : disk.Keeps "LOCK" opened := hs.keeps_openFile hopen
  have hfree : lock ∉ opened.locks := by
    obtain ⟨fault, heq⟩ | ⟨id, -, hfound⟩ | ⟨_, _, _, -, -, -, -, heq⟩ := disk.openFile_cases (lockPath path)
    · cases heq.symm.trans hopen
    · cases (hnone "LOCK").symm.trans (Disk.node?_of_find_joinPath (by decide) (by decide) hplace hfound)
    · cases heq.symm.trans hopen
      exact fun hlock => Nat.lt_irrefl _ (hlocks _ (hopened.locks ▸ hlock))
  have hspares : disk.Spares "LOG" opened :=
    hs.spares_openFile hopen (getLast?_split_joinPath_ne path (by decide) (by decide) (by decide))
  have hunlocked : opened.isLocked lock = false := by simpa [Disk.isLocked] using hfree
  obtain ⟨written, inside, hwrite⟩ : ∃ written inside, writeFormat (opened.lock lock) path = (written, inside) :=
    ⟨_, _, rfl⟩
  have hlocked : (opened.lock lock).Sound := hopened.sound.lock lock
  have hfind : ∀ p, (opened.lock lock).find p = opened.find p := Disk.find_of_folders rfl
  have hkeeps := (keeps_writeFormat hlocked hwrite).1
  simp only [enter, hopen, hunlocked, hwrite, Bool.false_eq_true, if_false] at h
  obtain ⟨fault, rfl⟩ | ⟨rfl, hread, hspares'⟩ := writeFormat_cases hlocked hwrite
  · cases h
    exact .inl ⟨_, rfl⟩
  · cases h
    refine .inr ⟨lock, rfl, {
      sound := hkeeps.sound
      folder := ⟨place, ?_, ?_⟩
      format := hread
      lock := ?_ }⟩
    · exact hkeeps.toExtends.find_directory hlocked ((hfind _).trans (hopened.toExtends.find_directory hs hplace))
    · exact (hspares' place).trans ((hspares place).trans (hnone "LOG"))
    · exact hkeeps.find_file hlocked (getLast?_split_lockPath path) ((hfind _).trans (hs.find_openFile hopen).1)

/-! ## Where nothing is -/

theorem Vacant.isPresent (h : Vacant path disk) (hpath : path ≠ "") : isPresent disk path = false := by
  unfold Directory.isPresent Disk.isFile
  split
  · rename_i id hfind
    obtain ⟨place, hplace⟩ := Disk.find_of_find_joinPath (by decide) (by decide) hpath hfind
    exact absurd hplace (h.missing _)
  · rfl

/-- An opening that may make a directory founds one. -/
theorem Vacant.openAt (h : Vacant path disk) (hs : disk.Sound) (hlocks : ∀ id ∈ disk.locks, id < disk.contents.length)
    (hpath : path ≠ "") (hcreate : options.createIfMissing = true) {result : Except EngineError Directory}
    (hopen : openAt path options disk = (result, disk')) :
    (∃ fault, result = .error (.ofSystem fault)) ∨ ∃ lock, result = .ok ⟨path, lock⟩ ∧ Founded ⟨path, lock⟩ disk' := by
  simp only [Directory.openAt, h.isPresent hpath, hcreate, Bool.not_true, Bool.and_false, Bool.false_and,
    Bool.false_eq_true, if_false] at hopen
  split at hopen
  · cases hopen
    exact .inl ⟨_, rfl⟩
  rename_i made hmake
  obtain ⟨place, hplace⟩ := hs.find_makeDirectories hpath hmake
  have hdirectory : made.isDirectory path = true := by simp only [Disk.isDirectory, hplace]
  rw [if_pos hdirectory] at hopen
  have hmade : disk.Keeps "LOCK" made := hs.keeps_makeDirectories hmake
  refine enter_of_empty hmade.sound (fun id hid => ?_) hplace (h.empty hmake hplace) hopen
  rw [Disk.contents_makeDirectories hmake]
  exact hlocks id (hmade.locks ▸ hid)

end Directory

/-! ## Connections -/

namespace Connection

variable {path : String} {options : EngineOptions} {media media' : Media}

/-- An opening gives a connection that serves a map, and has no readers yet. -/
def Opens (path : String) (options : EngineOptions) (m : Contents) (n : Nat)
    (opening : Except EngineError DetachedConnection × Media) : Prop :=
  ∃ c, opening.1 = .ok c ∧ (c.attach opening.2).Serves path m n ∧ (Session.start (c.attach opening.2)).Pinned ∧
    c.options = options

/-- The log of a directory is opened as it is. -/
theorem opens_openHandle {lock : FileId} {log : FileLog} {rs : List Record} {data : Bytes} {n : Nat}
    (h : Directory.Houses ⟨path, lock⟩ ⟨log, media.disk⟩ data) (hdata : encodeLog rs = .ok data)
    (hseq : (Timeline.ofRecords rs).sequence.toNat ≤ n) (hvalid : options.validate = .ok ()) :
    Opens path options (Timeline.ofRecords rs).contents n
      (openHandle (some path) options (.directory ⟨path, lock⟩ log) media) := by
  have hread : LogStorage.readAll (Medium.mk (.directory ⟨path, lock⟩ log) media) = .ok data := by
    show Except.ok ((FileOnDisk.mk log media.disk).raw.take log.size) = _
    rw [h.log.raw, h.log.size, List.take_length]
  have hopen : openOn (some path) options (Medium.mk (.directory ⟨path, lock⟩ log) media) = .ok _ :=
    openOn_encodeLog hdata hread hvalid
  rw [openHandle, hopen]
  exact ⟨_, rfl, ⟨rfl, ⟨lock, rs, data, hdata, ⟨log, rfl, h⟩, rfl, UInt64.le_refl _⟩, rfl, hseq⟩,
    Session.pinned_start hopen, rfl⟩

end Connection

namespace Directory

variable {path : String} {options : EngineOptions} {media : Media} {m : Contents} {n : Nat}

/-- A directory at rest is opened, and its map served. -/
theorem AtRest.openDirectory (h : AtRest path media.disk m n) (hallowed : options.errorIfExists = false)
    (hvalid : options.validate = .ok ()) :
    Connection.Opens path options m n (Connection.openDirectory path options media) := by
  obtain ⟨lock, log, seq, hfree, hn, rs, data, hdata, hhouses, rfl, hseq⟩ := h
  have hlocked : Houses ⟨path, lock⟩ ⟨log, media.disk.lock lock⟩ data := hhouses.of_locks rfl rfl
  simp only [Connection.openDirectory, hvalid, hhouses.openAt hfree hallowed, hlocked.log.openAt]
  exact Connection.opens_openHandle hlocked hdata (Nat.le_trans (UInt64.le_iff_toNat_le.mp hseq) hn) hvalid

/-- Where nothing is, a store is made, and serves the empty map, unless the system refuses it. -/
theorem Vacant.openDirectory (h : Vacant path media.disk) (hs : media.disk.Sound)
    (hlocks : ∀ id ∈ media.disk.locks, id < media.disk.contents.length) (hpath : path ≠ "")
    (hcreate : options.createIfMissing = true) (hvalid : options.validate = .ok ()) :
    (∃ fault, (Connection.openDirectory path options media).1 = .error (.ofSystem fault)) ∨
      Connection.Opens path options .empty 0 (Connection.openDirectory path options media) := by
  obtain ⟨result, disk, hopen⟩ : ∃ result disk, Directory.openAt path options media.disk = (result, disk) :=
    ⟨_, _, rfl⟩
  obtain ⟨fault, rfl⟩ | ⟨lock, rfl, hfounded⟩ := h.openAt hs hlocks hpath hcreate hopen
  · simp only [Connection.openDirectory, hvalid, hopen]
    exact .inl ⟨fault, rfl⟩
  obtain ⟨fault, disk', hlog⟩ | ⟨log, disk', hlog, hhouses⟩ := hfounded.openLog
  · simp only [Connection.openDirectory, hvalid, hopen, hlog]
    exact .inl ⟨fault, rfl⟩
  · simp only [Connection.openDirectory, hvalid, hopen, hlog]
    have hempty : encodeLog [] = .ok [] := rfl
    exact .inr (Connection.opens_openHandle hhouses hempty (Nat.le_refl _) hvalid)

/-- If nothing may be made, nothing is. -/
theorem Vacant.openDirectory_eq (h : Vacant path media.disk) (hpath : path ≠ "")
    (hcreate : options.createIfMissing = false) (hvalid : options.validate = .ok ()) :
    Connection.openDirectory path options media = (.error (.notFound path), media) := by
  simp only [Connection.openDirectory, hvalid, Directory.openAt, h.isPresent hpath, hcreate, Bool.not_false,
    Bool.and_true, if_true]

end Directory

end OrderedStore
