import OrderedStore.Proofs.Folder
import OrderedStore.Proofs.Opening
import OrderedStore.Proofs.Repair

/-!
# What decides an opening

An attempt to open a store directory checks the options, then whether a store is there, the lock, the format, and the
log, and the first check that fails is what it reports. Whatever fails, the files `CURRENT` and `LOG` that were there
have their bytes, and the lock is not kept.

* `Directory.refusal?`, `Directory.innerRefusal?`: the first check that fails, of all and of those in the directory;
  `Directory.Accessible`: the system refuses nothing;
* `Directory.Enters`, `Directory.enter_decides`: lock and format; `Connection.openHandle_decides`: the log;
* `Connection.openDirectory_decides`: attempts as a whole.
-/

namespace OrderedStore

/-- The error is found before anything on the disk is touched. -/
def EngineError.isEarly : EngineError → Bool
  | notFound _ | alreadyExists _ | invalidArgument _ => true
  | _ => false

namespace Directory

open Disk

variable {path : String} {options : EngineOptions} {disk d d' : Disk} {place : FolderId}

/-! ## Checks -/

/-- The lock of the store at a path is held. -/
def isHeld (disk : Disk) (path : String) : Bool :=
  match disk.find (lockPath path) with
  | .ok (.file id) => disk.isLocked id
  | _ => false

/-- The format of the store at a path, if it is a text and not the format known here. -/
def strangeTag? (disk : Disk) (path : String) : Option String :=
  (((disk.read (currentPath path)).toOption.bind Bytes.toText?).map Text.trim).filter (· ≠ formatTag)

/-- The bytes of the log at a path, none if there is no log. -/
def logBytes (disk : Disk) (path : String) : Bytes := (disk.read (logPath path)).toOption.getD []

/-- Why a store directory is not opened that is there: the first check that fails of the lock, the format and the log.
The format is that of `disk`; lock and log are those that are found on `made`. -/
def innerRefusal? (path : String) (options : EngineOptions) (disk made : Disk) : Option EngineError :=
  if isHeld made path = true then some (.locked path)
  else match strangeTag? disk path with
    | some tag => some (.corruption (.format tag (currentPath path)))
    | none =>
      if options.paranoidChecks = true then
        (Replay.read (logBytes made path)).damage.map fun damage => .corruption (.log damage)
      else none

/-- Why the store directory at a path is not opened: the first check that fails. Lock and log are those that are found
when the directories of the path have been made. -/
def refusal? (path : String) (options : EngineOptions) (disk : Disk) : Option EngineError :=
  if maxBloomBitsPerKey < options.bloomBitsPerKey.toNat then
    some (.invalidArgument (.bloomBits options.bloomBitsPerKey.toNat))
  else if isPresent disk path = false ∧ options.createIfMissing = false then some (.notFound path)
  else if isPresent disk path = true ∧ options.errorIfExists = true then some (.alreadyExists path)
  else if path = "" then some (.invalidArgument (.notADirectory path))
  else innerRefusal? path options disk (disk.makeDirectories path).2

/-- The checks have nothing to do with what the system refuses. -/
theorem innerRefusal?_ne_io {made : Disk} {fault : IoFault} :
    innerRefusal? path options disk made ≠ some (.io fault) := by
  unfold innerRefusal?
  split
  · nofun
  split
  · nofun
  split
  · intro h
    obtain ⟨damage, -, hdamage⟩ := Option.map_eq_some_iff.mp h
    cases hdamage
  · nofun

theorem refusal?_ne_io {fault : IoFault} : refusal? path options disk ≠ some (.io fault) := by
  unfold refusal?
  split
  · nofun
  split
  · nofun
  split
  · nofun
  split
  · nofun
  · exact innerRefusal?_ne_io

/-- The files of a store directory while it is opened. -/
def fileNames : List String := ["CURRENT", "CURRENT.tmp", "LOCK", "LOG"]

theorem plain_of_mem {name : String} (h : name ∈ fileNames) : Plain name := by
  revert name
  decide

/-- The system refuses nothing at a path: its directories can be made, no directory is in the place of a file of the
store, and `CURRENT` is a text if it is there. -/
structure Accessible (path : String) (disk : Disk) : Prop where
  made : (disk.makeDirectories path).1 = .ok ()
  files : ∀ name ∈ fileNames, ¬(disk.makeDirectories path).2.Blocks (joinPath path name)
  text : ∀ bytes, disk.read (currentPath path) = .ok bytes → Bytes.toText? bytes ≠ none

/-! ## Behind the lock -/

/-- What is done in the folder of a path leaves the log, and `CURRENT` if the store is present. -/
structure Spared (path : String) (place : FolderId) (present : Bool) (d d' : Disk) : Prop where
  sound : d'.Sound
  folder : d'.find path = .ok (.directory place)
  log : SameAt (logPath path) d d'
  current : present = true → SameAt (currentPath path) d d'

variable {present : Bool}

theorem Spared.trans {d'' : Disk} (h : Spared path place present d d') (h' : Spared path place present d' d'') :
    Spared path place present d d'' :=
  ⟨h'.sound, h'.folder, h.log.trans h'.log, fun hpresent => (h.current hpresent).trans (h'.current hpresent)⟩

theorem Spared.lock (h : Spared path place present d d') (id : FileId) : Spared path place present d (d'.lock id) :=
  h.trans ⟨h.sound.lock id, (find_lock ..).trans h.folder, sameAt_lock id, fun _ => sameAt_lock id⟩

theorem Spared.unlock (h : Spared path place present d d') (id : FileId) : Spared path place present d (d'.unlock id) :=
  h.trans ⟨h.sound.unlock id, (find_unlock ..).trans h.folder, sameAt_unlock id, fun _ => sameAt_unlock id⟩

/-- A lock that has been opened is held if that of the store is; a new one is not. -/
theorem isLocked_of_openFile (hlocks : ∀ id ∈ d.locks, id < d.contents.length) {lock : FileId}
    (hopen : d.openFile (lockPath path) = (.ok lock, d')) : d'.isLocked lock = isHeld d path := by
  obtain ⟨fault, heq⟩ | ⟨id, heq, hfind⟩ | ⟨route, inside, name, hroute, -, hlocate, hnone, heq⟩ :=
    d.openFile_cases (lockPath path)
  · cases heq.symm.trans hopen
  · cases heq.symm.trans hopen
    simp only [isHeld, hfind]
  · cases heq.symm.trans hopen
    have hmissing := find_of_node?_eq_none hroute hlocate hnone
    have hnew : d.contents.length ∉ d.locks := fun hmem => Nat.lt_irrefl _ (hlocks _ hmem)
    simp only [isHeld, hmissing]
    exact Bool.eq_false_iff.mpr fun hlocked => hnew (List.contains_iff_mem.mp hlocked)

/-- The format is written unless its file is blocked, and the log is left alone. -/
theorem writeFormat_decides (hs : d.Sound) (hplace : d.find path = .ok (.directory place))
    {result : Except EngineError Unit} (h : writeFormat d path = (result, d')) : Spared path place false d d' ∧
      ((∃ fault, result = .error (.ofSystem fault) ∧
          ∃ name ∈ fileNames, name ≠ "LOCK" ∧ d.Blocks (joinPath path name)) ∨ result = .ok ()) := by
  have hsibling : Plain "CURRENT.tmp" := by decide
  have hcurrent : Plain "CURRENT" := by decide
  have hlog : Plain "LOG" := by decide
  unfold writeFormat at h
  dsimp only at h
  obtain ⟨written, d₁, hwrite⟩ : ∃ written d₁,
      d.write (joinPath path "CURRENT.tmp") (Bytes.ofText (formatTag ++ "\n")) = (written, d₁) := ⟨_, _, rfl⟩
  have hkeeps : d.Keeps "" d₁ := hs.keeps_write hwrite
  have hplace₁ := hkeeps.toExtends.find_directory hs hplace
  have hspared : Spared path place false d d₁ :=
    ⟨hkeeps.sound, hplace₁, sameAt_write hs hlog hsibling (by decide) hplace hwrite, nofun⟩
  rw [hwrite] at h
  cases written with
  | error fault =>
    cases h
    exact ⟨hspared, .inl ⟨fault, rfl, _, by decide, by decide, blocks_of_write hsibling hplace hwrite⟩⟩
  | ok =>
    obtain ⟨renamed, d₂, hrename⟩ : ∃ renamed d₂,
        d₁.rename (joinPath path "CURRENT.tmp") (joinPath path "CURRENT") = (renamed, d₂) := ⟨_, _, rfl⟩
    have hkeeps₁ : d₁.Keeps "" d₂ := hkeeps.sound.keeps_rename hrename
      (getLast?_split_joinPath_ne path (by decide) (by decide) (by decide))
      (getLast?_split_joinPath_ne path (by decide) (by decide) (by decide))
    have hspared₁ : Spared path place false d₁ d₂ :=
      ⟨hkeeps₁.sound, hkeeps₁.toExtends.find_directory hkeeps.sound hplace₁,
        sameAt_rename hkeeps.sound hlog hsibling (by decide) hplace₁ hcurrent (by decide) hrename, nofun⟩
    simp only [currentPath, hrename] at h
    cases renamed with
    | error fault =>
      cases h
      obtain ⟨id, hfile, -⟩ := hs.find_write hwrite
      have hblocks := blocks_of_rename hsibling hcurrent hplace₁ hfile hrename
      have hsame := sameAt_write hs hcurrent hsibling (by decide) hplace hwrite
      exact ⟨hspared.trans hspared₁, .inl ⟨fault, rfl, _, by decide, by decide, hsame.blocks hblocks⟩⟩
    | ok =>
      cases h
      exact ⟨hspared.trans hspared₁, .inr rfl⟩

/-- The format of a store is checked by its text. -/
theorem checkFormat_decides {bytes : Bytes} (hread : d.read (currentPath path) = .ok bytes) :
    (Bytes.toText? bytes = none ∧ checkFormat d path = .error (.ofSystem .notUtf8)) ∨
      (∃ tag, strangeTag? d path = some tag ∧
        checkFormat d path = .error (.corruption (.format tag (currentPath path)))) ∨
      (strangeTag? d path = none ∧ checkFormat d path = .ok ()) := by
  unfold checkFormat strangeTag?
  rw [hread]
  cases htext : Bytes.toText? bytes with
  | none => exact .inl ⟨rfl, by simp only [htext]⟩
  | some text =>
    refine .inr ?_
    by_cases htag : Text.trim text = formatTag
    · simp [Except.toOption, htext, htag]
    · simp [Except.toOption, htext, htag]

/-- What is decided in the folder of a path, about a store that is present or not. -/
inductive Enters (path : String) (present : Bool) (d : Disk) : Except EngineError Directory → Prop where
  | blocked {fault : SystemFault} {name : String} (hname : name ∈ fileNames) (hblocks : d.Blocks (joinPath path name)) :
      Enters path present d (.error (.ofSystem fault))
  /-- The format is no text at all. -/
  | unreadable {fault : SystemFault} {bytes : Bytes} (hpresent : present = true)
      (hread : d.read (currentPath path) = .ok bytes) (hnone : Bytes.toText? bytes = none) :
      Enters path present d (.error (.ofSystem fault))
  | held (hheld : isHeld d path = true) : Enters path present d (.error (.locked path))
  | strange {tag : String} (hpresent : present = true) (hfree : isHeld d path = false)
      (htag : strangeTag? d path = some tag) :
      Enters path present d (.error (.corruption (.format tag (currentPath path))))
  | entered {lock : FileId} (hfree : isHeld d path = false) (hknown : present = true → strangeTag? d path = none) :
      Enters path present d (.ok ⟨path, lock⟩)

/-- Behind the lock, the format of a store that is present is checked. -/
theorem enters_checked {opened : Disk} {bytes : Bytes} (hread : d.read (currentPath path) = .ok bytes)
    (hsame : SameAt (currentPath path) d opened) (hfree : isHeld d path = false) (lock : FileId) :
    Enters path true d ((checkFormat opened path).map fun _ => ⟨path, lock⟩) := by
  have hstrange : strangeTag? opened path = strangeTag? d path := by rw [strangeTag?, strangeTag?, hsame.read]
  obtain ⟨hnone, hcheck⟩ | ⟨tag, htag, hcheck⟩ | ⟨hnone, hcheck⟩ := checkFormat_decides (hsame.read.trans hread)
  · rw [hcheck]
    exact .unreadable rfl hread hnone
  · rw [hcheck]
    exact .strange rfl hfree (hstrange ▸ htag)
  · rw [hcheck]
    exact .entered hfree fun _ => hstrange ▸ hnone

/-- That of a new one is written. -/
theorem enters_written {opened : Disk} (hopened : Spared path place false d opened)
    (hsame : ∀ name ∈ fileNames, name ≠ "LOCK" → SameAt (joinPath path name) d opened) (hfree : isHeld d path = false)
    (lock : FileId) {result : Except EngineError Unit} (h : writeFormat opened path = (result, d')) :
    Spared path place false d d' ∧ Enters path false d (result.map fun _ => ⟨path, lock⟩) := by
  obtain ⟨hwritten, ⟨fault, rfl, name, hname, hne, hblocks⟩ | rfl⟩ := writeFormat_decides hopened.sound hopened.folder h
  · exact ⟨hopened.trans hwritten, .blocked hname ((hsame name hname hne).blocks hblocks)⟩
  · exact ⟨hopened.trans hwritten, .entered hfree nofun⟩

theorem enter_decides (hs : d.Sound) (hlocks : ∀ id ∈ d.locks, id < d.contents.length)
    (hplace : d.find path = .ok (.directory place))
    (hpresent : present = true → ∃ bytes, d.read (currentPath path) = .ok bytes)
    {result : Except EngineError Directory} (h : enter path present d = (result, d')) :
    Spared path place present d d' ∧ Enters path present d result := by
  have hlock : Plain "LOCK" := by decide
  obtain ⟨locked, opened, hopen⟩ : ∃ locked opened, d.openFile (lockPath path) = (locked, opened) := ⟨_, _, rfl⟩
  have hkeeps : d.Keeps "" opened := hs.keeps_openFile hopen
  have hsame : ∀ name ∈ fileNames, name ≠ "LOCK" → SameAt (joinPath path name) d opened :=
    fun name hname hne => sameAt_openFile hs (plain_of_mem hname) hlock hne.symm hplace hopen
  have hopened : Spared path place present d opened :=
    ⟨hkeeps.sound, hkeeps.toExtends.find_directory hs hplace, hsame "LOG" (by decide) (by decide),
      fun _ => hsame "CURRENT" (by decide) (by decide)⟩
  unfold enter at h
  rw [hopen] at h
  cases locked with
  | error fault =>
    cases h
    exact ⟨hopened, .blocked (by decide) (blocks_of_openFile hlock hplace hopen)⟩
  | ok lock =>
    have hheld := isLocked_of_openFile hlocks hopen
    dsimp only at h
    split at h
    · rename_i hlocked
      cases h
      exact ⟨hopened, .held (hheld.symm.trans hlocked)⟩
    rename_i hfree
    have hfree : isHeld d path = false := hheld.symm.trans (Bool.eq_false_iff.mpr hfree)
    cases present with
    | true =>
      obtain ⟨bytes, hread⟩ := hpresent rfl
      have henters := enters_checked hread (hopened.current rfl) hfree lock
      simp only [if_true] at h
      cases hcheck : checkFormat opened path with
      | error e =>
        rw [hcheck] at h henters
        cases h
        exact ⟨(hopened.lock lock).unlock lock, henters⟩
      | ok =>
        rw [hcheck] at h henters
        cases h
        exact ⟨hopened.lock lock, henters⟩
    | false =>
      obtain ⟨written, inside, hwrite⟩ : ∃ written inside, writeFormat (opened.lock lock) path = (written, inside) :=
        ⟨_, _, rfl⟩
      obtain ⟨hwritten, henters⟩ := enters_written (hopened.lock lock)
        (fun name hname hne => (hsame name hname hne).trans (sameAt_lock lock)) hfree lock hwrite
      simp only [Bool.false_eq_true, if_false, hwrite] at h
      cases written with
      | error e =>
        cases h
        exact ⟨hwritten.unlock lock, henters⟩
      | ok =>
        cases h
        exact ⟨hwritten, henters⟩

/-- The log is opened unless it is blocked, with the bytes that are there; it is new if it was not there. -/
theorem openLog_decides (hs : d.Sound) (hplace : d.find path = .ok (.directory place))
    {result : Except EngineError FileLog} (h : FileLog.openAt (logPath path) d = (result, d')) :
    (∃ fault, result = .error (.ofSystem fault) ∧ d' = d ∧ d.Blocks (logPath path)) ∨
      ∃ log, result = .ok log ∧ d'.content log.file = logBytes d path ∧ log.size = (logBytes d path).length ∧
        SameAt (currentPath path) d d' ∧ ∀ bytes, d.read (logPath path) = .ok bytes → d' = d := by
  have hlog : Plain "LOG" := by decide
  have hcurrent : Plain "CURRENT" := by decide
  obtain ⟨fault, hopen⟩ | ⟨id, hopen, hfind⟩ | ⟨route, inside, name, hroute, -, hlocate, hnone, hopen⟩ :=
    d.openFile_cases (logPath path)
  · rw [FileLog.openAt, hopen] at h
    cases h
    exact .inl ⟨fault, rfl, rfl, blocks_of_openFile hlog hplace hopen⟩
  · rw [FileLog.openAt, hopen] at h
    cases h
    have hbytes : logBytes d path = d.content id := by
      rw [logBytes, read_eq_ok_iff.mpr ⟨id, hfind, rfl⟩]
      rfl
    exact .inr ⟨_, rfl, hbytes.symm, congrArg List.length hbytes.symm, .refl .., fun _ _ => rfl⟩
  · have hsame := sameAt_openFile hs hcurrent hlog (by decide) hplace hopen
    rw [FileLog.openAt, hopen] at h
    cases h
    have hmissing := find_of_node?_eq_none hroute hlocate hnone
    have hbytes : logBytes d path = [] := by
      simp only [logBytes, Disk.read, hmissing]
      rfl
    rw [hbytes]
    refine .inr ⟨_, rfl, content_addFile d inside name, ?_, hsame, fun bytes hread => ?_⟩
    · rw [content_addFile]
    · obtain ⟨id, hfind, -⟩ := read_eq_ok_iff.mp hread
      cases hmissing.symm.trans hfind

/-! ## Before the lock -/

/-- Where a file is in the folder of a path, no directory has to be made. -/
theorem makeDirectories_of_read {name : String} (hname : Plain name) {bytes : Bytes}
    (hread : disk.read (joinPath path name) = .ok bytes) : disk.makeDirectories path = (.ok (), disk) := by
  by_cases hpath : path = ""
  · exact if_pos hpath
  · obtain ⟨id, hfind, -⟩ := read_eq_ok_iff.mp hread
    obtain ⟨place, hplace⟩ := find_of_find_joinPath hname.1 hname.2.1 hpath hfind
    exact makeDirectories_of_find hplace

theorem read_of_isPresent (h : isPresent disk path = true) : ∃ bytes, disk.read (currentPath path) = .ok bytes := by
  unfold isPresent isFile at h
  split at h
  · rename_i id hfind
    exact ⟨_, read_eq_ok_iff.mpr ⟨id, hfind, rfl⟩⟩
  · cases h

theorem strangeTag?_of_not_isPresent (h : isPresent disk path = false) : strangeTag? disk path = none := by
  cases hread : disk.read (currentPath path) with
  | error fault =>
    simp only [strangeTag?, hread, Except.toOption, Option.bind_none, Option.map_none, Option.filter_none]
  | ok bytes => cases (isPresent_of_read hread).symm.trans h

theorem not_held_of_find_ne (h : ∀ id, disk.find (lockPath path) ≠ .ok (.file id)) : isHeld disk path = false := by
  unfold isHeld
  split
  · rename_i id hfind
    exact absurd hfind (h id)
  · rfl

theorem logBytes_of_find_ne (h : ∀ id, disk.find (logPath path) ≠ .ok (.file id)) : logBytes disk path = [] := by
  cases hread : disk.read (logPath path) with
  | error fault => simp only [logBytes, hread, Except.toOption, Option.getD_none]
  | ok bytes =>
    obtain ⟨id, hfind, -⟩ := read_eq_ok_iff.mp hread
    exact absurd hfind (h id)

/-- On a path that does not go up, making its directories brings no lock and no log to light. -/
theorem seen_of_not_up (hs : disk.Sound) (hup : ".." ∉ Route.split path) {made : Disk}
    (hmake : disk.makeDirectories path = (.ok (), made)) :
    isHeld made path = isHeld disk path ∧ logBytes made path = logBytes disk path := by
  by_cases hthere : path = "" ∨ ∃ place, disk.find path = .ok (.directory place)
  · obtain rfl : made = disk := by
      obtain rfl | ⟨place, hplace⟩ := hthere
      · cases hmake
        rfl
      · cases (makeDirectories_of_find hplace).symm.trans hmake
        rfl
    exact ⟨rfl, rfl⟩
  obtain ⟨hpath, hnone⟩ := not_or.mp hthere
  obtain ⟨place, hplace⟩ := hs.find_makeDirectories hpath hmake
  have hmissing : ∀ node, disk.find path ≠ .ok node := by
    rintro (inside | id) hfind
    · exact hnone ⟨inside, hfind⟩
    · cases (find_file_of_keeps hs (fun _ => hs.keeps_makeDirectories hmake) hfind).symm.trans hplace
  have hempty := hs.entries_makeDirectories hup hmissing hmake hplace
  -- neither the old nor the new disk has a file in the directory
  have hbefore : ∀ {name : String}, Plain name → ∀ id, disk.find (joinPath path name) ≠ .ok (.file id) :=
    fun hname id hfind => hnone (find_of_find_joinPath hname.1 hname.2.1 hpath hfind)
  have hafter : ∀ {name : String}, Plain name → ∀ id, made.find (joinPath path name) ≠ .ok (.file id) := by
    intro name hname id hfind
    have hnode := node?_of_find_joinPath hname.1 hname.2.1 hplace hfind
    rw [node?, hempty] at hnode
    cases hnode
  rw [not_held_of_find_ne (hafter (by decide)), not_held_of_find_ne (hbefore (by decide)),
    logBytes_of_find_ne (hafter (by decide)), logBytes_of_find_ne (hbefore (by decide))]
  exact ⟨rfl, rfl⟩

/-- The files `CURRENT` and `LOG` that were there have their bytes. -/
def Retains (path : String) (disk disk' : Disk) : Prop :=
  ∀ name ∈ ["CURRENT", "LOG"], ∀ bytes, disk.read (joinPath path name) = .ok bytes →
    disk'.read (joinPath path name) = .ok bytes

theorem Retains.trans {disk'' : Disk} (h : Retains path disk d) (h' : Retains path d disk'') :
    Retains path disk disk'' := fun name hname bytes hread => h' name hname bytes (h name hname bytes hread)

theorem retains_of_spared {made : Disk} (hmake : disk.makeDirectories path = (.ok (), made))
    (h : Spared path place (isPresent disk path) made d') : Retains path disk d' := by
  intro name hname bytes hread
  have hplain : Plain name := plain_of_mem ((by decide : ["CURRENT", "LOG"] ⊆ fileNames) hname)
  cases (makeDirectories_of_read hplain hread).symm.trans hmake
  simp only [List.mem_cons, List.not_mem_nil, or_false] at hname
  obtain rfl | rfl := hname
  · exact (h.current (isPresent_of_read hread)).read.trans hread
  · exact h.log.read.trans hread

end Directory

/-! ## Attempts as a whole -/

namespace Connection

open Disk Directory

variable {path : String} {options : EngineOptions} {media media' : Media}

/-- On the log of a directory a connection is opened unless the log is damaged and paranoid checks refuse that. -/
theorem openHandle_decides (hvalid : options.validate = .ok ()) {dir : Directory} {log : FileLog} {data : Bytes}
    (hcontent : media.disk.content log.file = data) (hsize : log.size = data.length)
    {place : Option String} {result : Except EngineError DetachedConnection}
    (h : openHandle place options (.directory dir log) media = (result, media')) :
    (options.paranoidChecks = true ∧ ∃ damage, (Replay.read data).damage = some damage ∧
        result = .error (.corruption (.log damage)) ∧ media'.disk = media.disk.unlock dir.lock) ∨
      (options.paranoidChecks = true → (Replay.read data).damage = none) ∧
        ∃ c, result = .ok c ∧ c.isOpen = true ∧ c.path = place ∧ c.options = options := by
  have hread : LogStorage.readAll (Medium.mk (.directory dir log) media) = .ok data := by
    show Except.ok ((media.disk.content log.file).take log.size) = _
    rw [hcontent, hsize, List.take_length]
  unfold openHandle at h
  obtain ⟨hnone, hopen⟩ | ⟨damage, hdamage, ⟨hparanoid, hopen⟩ | ⟨-, e, cut, hcut, -⟩ | ⟨hlenient, cut, -, hopen⟩⟩ :=
    openOn_of_readAll place hvalid hread
  · rw [hopen] at h
    cases h
    exact .inr ⟨fun _ => hnone, _, rfl, rfl, rfl, rfl⟩
  · rw [hopen] at h
    cases h
    exact .inl ⟨hparanoid, damage, hdamage, rfl, rfl⟩
  · -- the log is not cut behind its end
    have hle : ¬log.size < (Replay.read data).validLength := by
      rw [hsize]
      exact Nat.not_lt.mpr (Replay.validLength_le crc32 data)
    simp only [LogStorage.truncate, Medium.run, FileOnDisk.truncate, hle, if_false] at hcut
    cases hcut
  · rw [hopen] at h
    cases h
    exact .inr ⟨fun hparanoid => absurd (hparanoid.symm.trans hlenient) (by decide), _, rfl, rfl, rfl, rfl⟩

/-- Behind the lock, the log is opened; what fails leaves the files that were there. -/
theorem openLog_outcomes {inside : Disk} {place : FolderId} (hs : inside.Sound)
    (hplace : inside.find path = .ok (.directory place)) (hvalid : options.validate = .ok ()) {dir : Directory}
    {logs : List FaultyLog} {result : Except EngineError DetachedConnection}
    (h : (match FileLog.openAt (logPath path) inside with
      | (.error e, disk) => (.error e, ⟨dir.close disk, logs⟩)
      | (.ok log, disk) => openHandle (some path) options (.directory dir log) ⟨disk, logs⟩) = (result, media')) :
    (∃ fault, result = .error (.ofSystem fault) ∧ inside.Blocks (logPath path) ∧ Retains path inside media'.disk) ∨
      (options.paranoidChecks = true ∧ ∃ damage, (Replay.read (logBytes inside path)).damage = some damage ∧
        result = .error (.corruption (.log damage)) ∧ Retains path inside media'.disk) ∨
      (options.paranoidChecks = true → (Replay.read (logBytes inside path)).damage = none) ∧
        ∃ c, result = .ok c ∧ c.isOpen = true ∧ c.path = some path ∧ c.options = options := by
  obtain ⟨opened, logged, hlog⟩ : ∃ opened logged, FileLog.openAt (logPath path) inside = (opened, logged) :=
    ⟨_, _, rfl⟩
  rw [hlog] at h
  obtain ⟨fault, rfl, rfl, hblocks⟩ | ⟨log, rfl, hcontent, hsize, hcurrent, hfound⟩ := openLog_decides hs hplace hlog
  · cases h
    refine .inl ⟨fault, rfl, hblocks, fun name _ bytes hread => ?_⟩
    exact (sameAt_unlock dir.lock).read.trans hread
  · obtain ⟨hparanoid, damage, hdamage, rfl, hdisk⟩ | hopened := openHandle_decides hvalid hcontent hsize h
    · refine .inr (.inl ⟨hparanoid, damage, hdamage, rfl, fun name hname bytes hread => ?_⟩)
      rw [hdisk, (sameAt_unlock dir.lock).read]
      simp only [List.mem_cons, List.not_mem_nil, or_false] at hname
      obtain rfl | rfl := hname
      · exact hcurrent.read.trans hread
      · exact hfound bytes hread ▸ hread
    · exact .inr (.inr hopened)

/-- How an attempt ends: the system refuses it, the first check that fails is reported, or it gives a connection. -/
inductive Outcome (path : String) (options : EngineOptions) (media media' : Media) :
    Except EngineError DetachedConnection → Prop where
  | refused {fault : SystemFault} : ¬Accessible path media.disk → Retains path media.disk media'.disk →
      Outcome path options media media' (.error (.ofSystem fault))
  | failed {e : EngineError} : refusal? path options media.disk = some e → Retains path media.disk media'.disk →
      (e.isEarly = true → media' = media) → Outcome path options media media' (.error e)
  | opened {c : DetachedConnection} : refusal? path options media.disk = none → c.isOpen = true →
      c.path = some path → c.options = options → Outcome path options media media' (.ok c)

/-- The checks in the folder of a path, once its directories are there. -/
theorem outcome_of_enter (hs : media.disk.Sound) (hlocks : ∀ id ∈ media.disk.locks, id < media.disk.contents.length)
    (hvalid : options.validate = .ok ()) {made inside : Disk}
    (hmake : media.disk.makeDirectories path = (.ok (), made)) {place : FolderId}
    (hplace : made.find path = .ok (.directory place))
    (hrefusal : refusal? path options media.disk = innerRefusal? path options media.disk made)
    {entered : Except EngineError Directory}
    (henter : enter path (isPresent media.disk path) made = (entered, inside))
    {result : Except EngineError DetachedConnection}
    (h : (match (entered, inside) with
      | (.error e, disk) => (.error e, { media with disk })
      | (.ok dir, disk) =>
        match FileLog.openAt (logPath path) disk with
        | (.error e, disk) => (.error e, { media with disk := dir.close disk })
        | (.ok log, disk) => openHandle (some path) options (.directory dir log) { media with disk }) =
      (result, media')) : Outcome path options media media' result := by
  have hmade : media.disk.Keeps "LOCK" made := hs.keeps_makeDirectories hmake
  have hlocks' : ∀ id ∈ made.locks, id < made.contents.length := fun id hid => by
    rw [contents_makeDirectories hmake]
    exact hlocks id (hmade.locks ▸ hid)
  -- if the store is present, no directory has been made
  have hsame : isPresent media.disk path = true → made = media.disk := fun hpresent => by
    obtain ⟨bytes, hread⟩ := read_of_isPresent hpresent
    cases (makeDirectories_of_read (by decide) hread).symm.trans hmake
    rfl
  have hblocked : ∀ {name : String}, name ∈ fileNames → made.Blocks (joinPath path name) →
      ¬Accessible path media.disk := fun hname hblocks haccess => haccess.files _ hname (by rwa [hmake])
  obtain ⟨hspared, henters⟩ :=
    enter_decides hmade.sound hlocks' hplace (fun hpresent => hsame hpresent ▸ read_of_isPresent hpresent) henter
  have hretains := retains_of_spared hmake hspared
  rw [innerRefusal?] at hrefusal
  cases henters with
  | blocked hname hblocks =>
    cases h
    exact .refused (hblocked hname hblocks) hretains
  | unreadable hpresent hread hnone =>
    cases h
    exact .refused (fun haccess => haccess.text _ (hsame hpresent ▸ hread) hnone) hretains
  | held hheld =>
    cases h
    refine .failed ?_ hretains nofun
    rw [hrefusal, if_pos hheld]
  | strange hpresent hfree htag =>
    cases h
    refine .failed ?_ hretains nofun
    rw [hsame hpresent] at htag
    rw [hrefusal, if_neg (Bool.eq_false_iff.mp hfree), htag]
  | @entered lock hfree hknown =>
    have hknown : strangeTag? media.disk path = none := by
      cases hpresent : isPresent media.disk path with
      | true => exact hsame hpresent ▸ hknown hpresent
      | false => exact strangeTag?_of_not_isPresent hpresent
    have hbytes : logBytes inside path = logBytes made path := by rw [logBytes, logBytes, hspared.log.read]
    rw [if_neg (Bool.eq_false_iff.mp hfree), hknown, ← hbytes] at hrefusal
    obtain ⟨fault, rfl, hblocks, hleft⟩ | ⟨hparanoid, damage, hdamage, rfl, hleft⟩ |
        ⟨hundamaged, c, rfl, hisOpen, hcpath, hoptions⟩ :=
      openLog_outcomes hspared.sound hspared.folder hvalid h
    · exact .refused (hblocked (by decide) (hspared.log.blocks hblocks)) (hretains.trans hleft)
    · refine .failed ?_ (hretains.trans hleft) nofun
      simp only [hrefusal, hparanoid, hdamage, if_true, Option.map_some]
    · refine .opened ?_ hisOpen hcpath hoptions
      cases hparanoid : options.paranoidChecks with
      | true => simp only [hrefusal, hparanoid, hundamaged hparanoid, if_true, Option.map_none]
      | false => simp only [hrefusal, hparanoid, Bool.false_eq_true, if_false]

theorem outcome_openDirectory (hs : media.disk.Sound)
    (hlocks : ∀ id ∈ media.disk.locks, id < media.disk.contents.length)
    {result : Except EngineError DetachedConnection} (h : openDirectory path options media = (result, media')) :
    Outcome path options media media' result := by
  have hretains : Retains path media.disk media.disk := fun _ _ _ hread => hread
  unfold openDirectory at h
  by_cases hbits : maxBloomBitsPerKey < options.bloomBitsPerKey.toNat
  · simp only [EngineOptions.validate, if_pos hbits] at h
    cases h
    exact .failed (if_pos hbits) hretains fun _ => rfl
  have hvalid : options.validate = .ok () := if_neg hbits
  simp only [hvalid, openAt] at h
  by_cases hmissing : isPresent media.disk path = false ∧ options.createIfMissing = false
  · simp only [hmissing, Bool.not_false, Bool.and_self, if_true] at h
    cases h
    refine .failed ?_ hretains fun _ => rfl
    simp only [refusal?, if_neg hbits, if_pos hmissing]
  have hwanted : (!isPresent media.disk path && !options.createIfMissing) = false := by simpa using hmissing
  simp only [hwanted, Bool.false_eq_true, if_false] at h
  by_cases hexists : isPresent media.disk path = true ∧ options.errorIfExists = true
  · simp only [hexists, Bool.and_self, if_true] at h
    cases h
    refine .failed ?_ hretains fun _ => rfl
    simp only [refusal?, if_neg hbits, if_neg hmissing, if_pos hexists]
  have hallowed : (isPresent media.disk path && options.errorIfExists) = false := by simpa using hexists
  simp only [hallowed, Bool.false_eq_true, if_false] at h
  by_cases hpath : path = ""
  · -- nothing is made for the empty path, and it leads nowhere
    subst hpath
    cases h
    refine .failed ?_ hretains fun _ => rfl
    simp only [refusal?, if_neg hbits, if_neg hmissing, if_neg hexists, if_true]
  obtain ⟨making, made, hmake⟩ : ∃ making made, media.disk.makeDirectories path = (making, made) := ⟨_, _, rfl⟩
  rw [hmake] at h
  cases making with
  | error fault =>
    cases h
    refine .refused (fun haccess => ?_) fun name hname bytes hread => ?_
    · have hmade := haccess.made
      rw [hmake] at hmade
      cases hmade
    · have hplain : Plain name := plain_of_mem ((by decide : ["CURRENT", "LOG"] ⊆ fileNames) hname)
      cases (makeDirectories_of_read hplain hread).symm.trans hmake
  | ok =>
    obtain ⟨place, hplace⟩ := hs.find_makeDirectories hpath hmake
    have hdirectory : made.isDirectory path = true := by simp only [Disk.isDirectory, hplace]
    simp only [hdirectory, if_true] at h
    refine outcome_of_enter hs hlocks hvalid hmake hplace ?_ (Prod.eta _).symm h
    simp only [refusal?, if_neg hbits, if_neg hmissing, if_neg hexists, if_neg hpath, hmake]

/-- An attempt to open a store directory, on any disk and with any options.

* The system refuses it only if the path is not accessible. Otherwise the first check that fails is reported, in the
  order of `Directory.refusal?`, and if none fails there is an open connection.
* On a path that does not go up, the lock and the log of these checks are those that are there.
* If it fails, no lock is kept, `CURRENT` and `LOG` have the bytes that they had, and nothing at all has changed if the
  options, a missing or unwanted store, or the empty path are the reason. -/
theorem openDirectory_decides (hs : media.disk.Sound)
    (hlocks : ∀ id ∈ media.disk.locks, id < media.disk.contents.length) (path : String) (options : EngineOptions) :
    let attempt := openDirectory path options media
    (Accessible path media.disk → ∀ fault, attempt.1 ≠ .error (.io fault)) ∧
      ((∀ fault, attempt.1 ≠ .error (.io fault)) →
        (∀ e, attempt.1 = .error e ↔ refusal? path options media.disk = some e) ∧
          (refusal? path options media.disk = none →
            ∃ c, attempt.1 = .ok c ∧ c.isOpen = true ∧ c.path = some path ∧ c.options = options)) ∧
      (".." ∉ Route.split path → ∀ made, media.disk.makeDirectories path = (.ok (), made) →
        isHeld made path = isHeld media.disk path ∧ logBytes made path = logBytes media.disk path) ∧
      ∀ e, attempt.1 = .error e → attempt.2.disk.locks = media.disk.locks ∧
        Retains path media.disk attempt.2.disk ∧ (e.isEarly = true → attempt.2 = media) := by
  intro attempt
  obtain ⟨result, media', hattempt⟩ : ∃ result media', openDirectory path options media = (result, media') :=
    ⟨_, _, rfl⟩
  have hlocked : ∀ e, result = .error e → media'.disk.locks = media.disk.locks := by
    rintro e rfl
    obtain ⟨-, -, hkeeps, -⟩ | ⟨c, lock, opened, log, hok, -⟩ := openDirectory_cases hs hattempt
    · exact hkeeps.locks
    · cases hok
  have houtcome := outcome_openDirectory hs hlocks hattempt
  simp only [attempt, hattempt]
  refine ⟨?_, ?_, fun hup made hmake => seen_of_not_up hs hup hmake, fun e he => ⟨hlocked e he, ?_⟩⟩
  · rintro haccess fault rfl
    cases houtcome with
    | refused hblocked => exact hblocked haccess
    | failed hrefusal => exact refusal?_ne_io hrefusal
  · intro hsystem
    cases houtcome with
    | refused => exact absurd rfl (hsystem _)
    | failed hrefusal =>
      refine ⟨fun e => ⟨fun he => ?_, fun he => ?_⟩, fun hnone => ?_⟩
      · cases he
        exact hrefusal
      · cases hrefusal.symm.trans he
        rfl
      · cases hnone.symm.trans hrefusal
    | opened hnone hisOpen hcpath hoptions =>
      refine ⟨fun e => ⟨nofun, fun he => ?_⟩, fun _ => ⟨_, rfl, hisOpen, hcpath, hoptions⟩⟩
      cases hnone.symm.trans he
  · subst he
    cases houtcome with
    | refused hblocked hretains => exact ⟨hretains, nofun⟩
    | failed hrefusal hretains hearly => exact ⟨hretains, hearly⟩

/-- A store with blanks around its format and a torn log: it is refused under paranoid checks, and has its bytes and a
free lock then. It is locked for as long as somebody holds `LOCK`, whatever else is wrong with it. -/
theorem openDirectory_decides_torn :
    let founded := (({} : Disk).makeDirectories "db").2
    let formatted := (founded.write "db/CURRENT" (Bytes.ofText " burrow-1\n\n")).2
    let logged := (formatted.write "db/LOG" [66, 76, 79]).2
    let media : Media := { disk := logged }
    let paranoid : EngineOptions := { paranoidChecks := true }
    let held : Media := { disk := ((logged.openFile "db/LOCK").2.write "db/CURRENT" []).2.lock 2 }
    media.disk.Sound ∧ (∀ id ∈ media.disk.locks, id < media.disk.contents.length) ∧ Accessible "db" media.disk ∧
      (∃ after, openDirectory "db" paranoid media = (.error (.corruption (.log ⟨.tornHeader, 0⟩)), after) ∧
        after.disk.locks = [] ∧ after.disk.read (joinPath "db" "LOG") = .ok [66, 76, 79]) ∧
      (∃ c, (openDirectory "db" {} media).1 = .ok c ∧ c.isOpen = true) ∧
      (openDirectory "db" paranoid held).1 = .error (.locked "db") ∧
      (openDirectory "db" { createIfMissing := false } {}).1 = .error (.notFound "db") := by
  intro founded formatted logged media paranoid held
  have hfounded : founded.Sound :=
    have hkeeps : ({} : Disk).Keeps "" founded := Disk.sound_empty.keeps_makeDirectories (Prod.eta _).symm
    hkeeps.sound
  have hlogged : logged.Sound := (hfounded.write (Prod.eta _).symm).write (Prod.eta _).symm
  have hsound : media.disk.Sound := hlogged
  have hlocks : ∀ id ∈ media.disk.locks, id < media.disk.contents.length := by decide +kernel
  have haccess : Accessible "db" media.disk := by
    have hmade : (media.disk.makeDirectories "db").1 = .ok () := by decide +kernel
    have hfiles : ∀ name ∈ fileNames, ¬(media.disk.makeDirectories "db").2.Blocks (joinPath "db" name) := by
      decide +kernel
    have hformat : media.disk.read (currentPath "db") = .ok (Bytes.ofText " burrow-1\n\n") := by decide +kernel
    have htext : Bytes.toText? (Bytes.ofText " burrow-1\n\n") ≠ none := by decide +kernel
    exact ⟨hmade, hfiles, fun bytes hread => Except.ok.inj (hformat.symm.trans hread) ▸ htext⟩
  obtain ⟨result, after, hattempt⟩ : ∃ result after, openDirectory "db" paranoid media = (result, after) :=
    ⟨_, _, (Prod.eta _).symm⟩
  obtain ⟨hsystem, hdecided, -, hfailed⟩ := openDirectory_decides hsound hlocks "db" paranoid
  simp only [hattempt] at hsystem hdecided hfailed
  have hrefusal : refusal? "db" paranoid media.disk = some (.corruption (.log ⟨.tornHeader, 0⟩)) := by decide +kernel
  have herror := ((hdecided (hsystem haccess)).1 _).mpr hrefusal
  rw [herror] at hattempt
  obtain ⟨hunlocked, hretains, -⟩ := hfailed _ herror
  have hfree : media.disk.locks = [] := by decide +kernel
  have hbytes : media.disk.read (joinPath "db" "LOG") = .ok [66, 76, 79] := by decide +kernel
  have hlog := hretains "LOG" (by decide) _ hbytes
  obtain ⟨hsystem', hdecided', -⟩ := openDirectory_decides hsound hlocks "db" {}
  obtain ⟨c, hc, hisOpen, -⟩ := (hdecided' (hsystem' haccess)).2 (by decide +kernel)
  have hheld : (openDirectory "db" paranoid held).1 = .error (.locked "db") := by decide +kernel
  have hmissing : (openDirectory "db" { createIfMissing := false } {}).1 = .error (.notFound "db") := by decide +kernel
  exact ⟨hsound, hlocks, haccess, ⟨after, hattempt, hunlocked.trans hfree, hlog⟩, ⟨c, hc, hisOpen⟩, hheld, hmissing⟩

/-- For the empty path there is no store, and the options allow to make one, but it is refused: it leads nowhere, and
nothing is made for it. -/
theorem openDirectory_of_empty_path :
    let options : EngineOptions := {}
    options.bloomBitsPerKey.toNat ≤ maxBloomBitsPerKey ∧ options.createIfMissing = true ∧
      isPresent {} "" = false ∧ (openDirectory "" options {}).1 = .error (.invalidArgument (.notADirectory "")) ∧
      ∀ fault, (openDirectory "" options {}).1 ≠ .error (.io fault) := by
  intro options
  have hrefused : (openDirectory "" options {}).1 = .error (.invalidArgument (.notADirectory "")) := by decide +kernel
  refine ⟨by decide, rfl, by decide +kernel, hrefused, fun fault hfault => ?_⟩
  cases hrefused.symm.trans hfault

end Connection

end OrderedStore
