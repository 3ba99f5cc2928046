import OrderedStore.Proofs.Closing
import OrderedStore.Proofs.Separation

/-!
# What a store directory holds

A store directory has three files: `CURRENT` names the format, `LOCK` is locked while the store is open, and `LOG` is
the log. What a connection does to its log, and the release of its lock, keep all three, and the bytes of the log are
those of a log in memory, or the old ones if the system has refused a rewriting.

* `Directory.Houses`: a directory with its files, and the bytes of its log;
* `Directory.mendable_houses`: what the methods of the log file do to them;
* `Medium.mendable_houses`: so do those of the log of a directory, which also gives the lock back.
-/

namespace OrderedStore

open LogStorage

/-! ## Log files -/

namespace FileOnDisk

variable {path : String} {f : FileOnDisk} {bytes : Bytes}

/-- A file on which a sibling has been written still holds its bytes. -/
theorem Holds.write (h : Holds path f bytes) {other : String} {more : Bytes} {result : Except SystemFault Unit}
    {written : Disk} (hwrite : f.disk.write other more = (result, written))
    (hother : (Route.split other).getLast? ≠ (Route.split path).getLast?) :
    Holds path { f with disk := written } bytes where
  sound := h.sound.write hwrite
  path_eq := h.path_eq
  found := Disk.find_file_of_keeps h.sound (fun _ => h.sound.keeps_write hwrite) h.found
  raw := (h.sound.content_write hwrite h.found hother).trans h.raw
  size := h.size

end FileOnDisk

/-! ## The files of a directory -/

namespace Directory

/-- The bytes of the file `CURRENT`. -/
def formatFile : Bytes := Bytes.ofText (formatTag ++ "\n")

/-- The directory is there, with the format in `CURRENT`, the locked file `LOCK`, and the bytes in `LOG`. -/
structure Houses (dir : Directory) (f : FileOnDisk) (bytes : Bytes) : Prop where
  log : f.Holds (logPath dir.path) bytes
  folder : ∃ place, f.disk.find dir.path = .ok (.directory place)
  format : f.disk.read (currentPath dir.path) = .ok formatFile
  lock : f.disk.find (lockPath dir.path) = .ok (.file dir.lock)

variable {dir : Directory} {f f' : FileOnDisk} {bytes bytes' : Bytes}

theorem getLast?_split_logPath (path : String) : (Route.split (logPath path)).getLast? = some "LOG" :=
  getLast?_split_joinPath path (by decide) (by decide)

theorem getLast?_split_sibling (path : String) : (Route.split (logPath path ++ ".tmp")).getLast? = some "LOG.tmp" := by
  rw [logPath, joinPath_append]
  exact getLast?_split_joinPath path (by decide) (by decide)

theorem getLast?_split_currentPath (path : String) : (Route.split (currentPath path)).getLast? = some "CURRENT" :=
  getLast?_split_joinPath path (by decide) (by decide)

theorem getLast?_split_lockPath (path : String) : (Route.split (lockPath path)).getLast? = some "LOCK" :=
  getLast?_split_joinPath path (by decide) (by decide)

/-- A change that keeps the other two files leaves a directory with the new log. -/
theorem Houses.of_keeps (h : dir.Houses f bytes) (hlog : f'.Holds (logPath dir.path) bytes')
    (hlock : f.disk.Keeps "LOCK" f'.disk) (hcurrent : f.disk.Keeps "CURRENT" f'.disk)
    (hcontent : ∀ id, f.disk.find (currentPath dir.path) = .ok (.file id) → f'.disk.content id = f.disk.content id) :
    dir.Houses f' bytes' where
  log := hlog
  folder := h.folder.imp fun _ => hlock.toExtends.find_directory h.log.sound
  format := Disk.read_of_keeps h.format fun id hid =>
    ⟨hcurrent.find_file h.log.sound (getLast?_split_currentPath dir.path) hid, hcontent id hid⟩
  lock := hlock.find_file h.log.sound (getLast?_split_lockPath dir.path) h.lock

/-- The log file gets other bytes. -/
theorem Houses.set (h : dir.Houses f bytes) {more : Bytes} {size : Nat}
    (hlog : (f.set more size).Holds (logPath dir.path) bytes') : dir.Houses (f.set more size) bytes' := by
  refine h.of_keeps hlog (h.log.sound.keeps_setContent ..) (h.log.sound.keeps_setContent ..) fun id hid => ?_
  have hlast : (Route.split (logPath dir.path)).getLast? ≠ (Route.split (currentPath dir.path)).getLast? := by
    rw [getLast?_split_logPath, getLast?_split_currentPath]
    decide
  exact Disk.content_setContent_of_ne (h.log.sound.ne_of_find h.log.found hid hlast) more

theorem Houses.append (h : dir.Houses f bytes) (more : Bytes) :
    ∃ f', f.append more = (.ok bytes.length, f') ∧ dir.Houses f' (bytes ++ more) := by
  obtain ⟨f', happend, hlog⟩ := h.log.append more
  refine ⟨f', happend, ?_⟩
  unfold FileOnDisk.append at happend
  split at happend
  · rename_i hmore
    obtain rfl : f = f' := (Prod.mk.inj happend).2
    rwa [hmore, List.append_nil]
  · obtain rfl : f.set _ _ = f' := (Prod.mk.inj happend).2
    exact h.set hlog

theorem Houses.truncate (h : dir.Houses f bytes) {length : Nat} (hlength : length ≤ bytes.length) :
    ∃ f', f.truncate length = (.ok (), f') ∧ dir.Houses f' (bytes.take length) := by
  obtain ⟨f', htruncate, hlog⟩ := h.log.truncate hlength
  refine ⟨f', htruncate, ?_⟩
  unfold FileOnDisk.truncate at htruncate
  split at htruncate
  · cases htruncate
  · cases htruncate
    exact h.set hlog

/-- A rewriting that the system refuses leaves the old bytes. -/
theorem Houses.rewrite (h : dir.Houses f bytes) (more : Bytes) :
    (∃ fault f', f.rewrite more = (.error (.ofSystem fault), f') ∧ dir.Houses f' bytes) ∨
      ∃ f', f.rewrite more = (.ok (), f') ∧ dir.Houses f' more := by
  have hsound := h.log.sound
  have hsibling : (Route.split f.log.sibling).getLast? = some "LOG.tmp" := by
    rw [FileLog.sibling, h.log.path_eq, getLast?_split_sibling]
  have hcurrent : ∀ {result written}, f.disk.write f.log.sibling more = (result, written) → ∀ id,
      f.disk.find (currentPath dir.path) = .ok (.file id) → written.content id = f.disk.content id := by
    intro result written hwrite id hid
    refine hsound.content_write hwrite hid ?_
    rw [hsibling, getLast?_split_currentPath]
    decide
  obtain ⟨result, written, fault, hwrite, hrewrite⟩ | ⟨written, renamed, file, hwrite, hrename, hrewrite, hlog⟩ :=
    h.log.rewrite_cases more
  · have hother : (Route.split f.log.sibling).getLast? ≠ (Route.split (logPath dir.path)).getLast? := by
      rw [hsibling, getLast?_split_logPath]
      decide
    exact .inl ⟨fault, _, hrewrite, h.of_keeps (h.log.write hwrite hother) (hsound.keeps_write hwrite)
      (hsound.keeps_write hwrite) (hcurrent hwrite)⟩
  · have hkeeps : ∀ {kept : String}, kept ≠ "LOG.tmp" → kept ≠ "LOG" → f.disk.Keeps kept renamed := by
      intro kept hsource htarget
      have hwritten : f.disk.Keeps kept written := hsound.keeps_write hwrite
      refine hwritten.trans (hwritten.sound.keeps_rename hrename ?_ ?_)
      · rw [hsibling]
        exact fun heq => hsource (Option.some.inj heq).symm
      · rw [h.log.path_eq, getLast?_split_logPath]
        exact fun heq => htarget (Option.some.inj heq).symm
    refine .inr ⟨_, hrewrite, h.of_keeps hlog (hkeeps (by decide) (by decide)) (hkeeps (by decide) (by decide))
      fun id hid => ?_⟩
    have hcontents : renamed.content id = written.content id := by
      rw [Disk.content, Disk.content, Disk.contents_rename hrename]
    exact hcontents.trans (hcurrent hwrite id hid)

/-- The log of a store directory: only a rewriting can fail in it, or a cut at an offset that it does not reach. -/
theorem mendable_houses (dir : Directory) : Mendable dir.Houses where
  readAll := by
    rintro f bytes read h ⟨⟩
    rw [h.log.raw, h.log.size, List.take_length]
  size := by
    rintro f bytes size h ⟨⟩
    exact h.log.size
  append_ok {f f' bytes more offset} h happend := by
    obtain ⟨f'', happend', hhouses⟩ := h.append more
    cases happend'.symm.trans happend
    exact hhouses
  append_error {f f' bytes more e} h happend := by
    obtain ⟨f'', happend', -⟩ := h.append more
    cases happend'.symm.trans happend
  truncate_ok {f f' bytes length} h htruncate := by
    by_cases hlength : length ≤ bytes.length
    · obtain ⟨f'', htruncate', hhouses⟩ := h.truncate hlength
      cases htruncate'.symm.trans htruncate
      exact hhouses
    · have hrefused : f.truncate length = (.error _, f) := if_pos (h.log.size ▸ Nat.lt_of_not_le hlength)
      cases hrefused.symm.trans htruncate
  truncate_error {f f' bytes length e} h htruncate := by
    by_cases hlength : length ≤ bytes.length
    · obtain ⟨f'', htruncate', -⟩ := h.truncate hlength
      cases htruncate'.symm.trans htruncate
    · have hrefused : f.truncate length = (.error _, f) := if_pos (h.log.size ▸ Nat.lt_of_not_le hlength)
      cases hrefused.symm.trans htruncate
      exact h
  rewrite_ok {f f' bytes data} h hrewrite := by
    obtain ⟨fault, f'', hrefused, -⟩ | ⟨f'', hrewrite', hhouses⟩ := h.rewrite data
    · cases hrefused.symm.trans hrewrite
    · cases hrewrite'.symm.trans hrewrite
      exact hhouses
  rewrite_error {f f' bytes data e} h hrewrite := by
    obtain ⟨fault, f'', hrefused, hhouses⟩ | ⟨f'', hrewrite', -⟩ := h.rewrite data
    · cases hrefused.symm.trans hrewrite
      exact hhouses
    · cases hrewrite'.symm.trans hrewrite
  sync h := h
  release h := h
  truncates h hlength := (h.truncate hlength).imp fun _ htruncate => htruncate.1

/-- Locks are no matter of the files. -/
theorem Houses.of_locks {log : FileLog} {disk disk' : Disk} (h : dir.Houses ⟨log, disk⟩ bytes)
    (hfolders : disk'.folders = disk.folders) (hcontents : disk'.contents = disk.contents) :
    dir.Houses ⟨log, disk'⟩ bytes := by
  have hcontent : ∀ id, disk'.content id = disk.content id := fun id => by rw [Disk.content, Disk.content, hcontents]
  have hfind := Disk.find_of_folders hfolders
  exact {
    log := {
      sound := h.log.sound.of_folders hfolders (congrArg List.length hcontents)
      path_eq := h.log.path_eq
      found := (hfind _).trans h.log.found
      raw := (hcontent _).trans h.log.raw
      size := h.log.size }
    folder := h.folder.imp fun _ => (hfind _).trans
    format := Disk.read_of_keeps h.format fun id hid => ⟨(hfind _).trans hid, hcontent id⟩
    lock := (hfind _).trans h.lock }

end Directory

/-! ## The log of a directory -/

namespace Medium

variable {dir : Directory} {log : FileLog} {m m' : Medium}

/-- What is done to the log of a directory is done to its file. -/
theorem run_directory (hhandle : m.handle = .directory dir log) {α : Type}
    {g : {σ : Type} → [LogStorage σ] → σ → Except EngineError α × σ} {result : Except EngineError α}
    (hrun : m.run g = (result, m')) :
    ∃ f : FileOnDisk, g (FileOnDisk.mk log m.media.disk) = (result, f) ∧ m'.handle = .directory dir f.log ∧
      m'.media.disk = f.disk := by
  unfold run at hrun
  rw [hhandle] at hrun
  cases hrun
  exact ⟨_, rfl, rfl, rfl⟩

/-- The medium is the log of a store directory, and its file holds the bytes. -/
def Houses (dir : Directory) (m : Medium) (bytes : Bytes) : Prop := m.OnDirectory dir (dir.Houses · bytes)

theorem mendable_houses (dir : Directory) : Mendable (Houses dir) := by
  have h := Directory.mendable_houses dir
  -- an operation on the log ends as on its file, and leaves what it leaves there
  have hstep : ∀ {m m' : Medium} {α : Type} {g : {σ : Type} → [LogStorage σ] → σ → Except EngineError α × σ}
      {result : Except EngineError α} {bytes : Bytes}, Houses dir m bytes → m.run g = (result, m') →
      ∃ f f' : FileOnDisk, dir.Houses f bytes ∧ g f = (result, f') ∧
        ∀ bytes', dir.Houses f' bytes' → Houses dir m' bytes' := by
    rintro m m' α g result bytes ⟨log, hhandle, hm⟩ hrun
    obtain ⟨f', hop, hhandle', hdisk⟩ := run_directory hhandle hrun
    exact ⟨_, f', hm, hop, fun bytes' hf => ⟨f'.log, hhandle', hdisk ▸ hf⟩⟩
  exact {
    readAll := by
      rintro m bytes read ⟨log, hhandle, hm⟩ hread
      simp only [LogStorage.readAll, Medium.ask, hhandle] at hread
      exact h.readAll hm hread
    size := by
      rintro m bytes size ⟨log, hhandle, hm⟩ hsize
      simp only [LogStorage.size, Medium.ask, hhandle] at hsize
      exact h.size hm hsize
    append_ok := by
      intro m m' bytes more offset hm hrun
      obtain ⟨f, f', hf, hop, hafter⟩ := hstep (g := LogStorage.append more) hm hrun
      exact hafter _ (h.append_ok hf hop)
    append_error := by
      intro m m' bytes more e hm hrun
      obtain ⟨f, f', hf, hop, hafter⟩ := hstep (g := LogStorage.append more) hm hrun
      exact (h.append_error hf hop).imp fun _ => hafter _
    truncate_ok := by
      intro m m' bytes length hm hrun
      obtain ⟨f, f', hf, hop, hafter⟩ := hstep (g := LogStorage.truncate length) hm hrun
      exact hafter _ (h.truncate_ok hf hop)
    truncate_error := by
      intro m m' bytes length e hm hrun
      obtain ⟨f, f', hf, hop, hafter⟩ := hstep (g := LogStorage.truncate length) hm hrun
      exact hafter _ (h.truncate_error hf hop)
    rewrite_ok := by
      intro m m' bytes data hm hrun
      obtain ⟨f, f', hf, hop, hafter⟩ := hstep (g := LogStorage.rewrite data) hm hrun
      exact hafter _ (h.rewrite_ok hf hop)
    rewrite_error := by
      intro m m' bytes data e hm hrun
      obtain ⟨f, f', hf, hop, hafter⟩ := hstep (g := LogStorage.rewrite data) hm hrun
      exact hafter _ (h.rewrite_error hf hop)
    sync := by
      intro m bytes hm
      obtain ⟨f, f', hf, hop, hafter⟩ := hstep (g := LogStorage.sync) hm (Prod.eta (m.run LogStorage.sync)).symm
      have hsynced := h.sync hf
      rw [hop] at hsynced
      exact hafter _ hsynced
    release := by
      rintro m bytes ⟨log, hhandle, hm⟩
      simp only [LogStorage.release, Medium.release, hhandle]
      exact ⟨log, rfl, hm.of_locks rfl rfl⟩
    truncates := by
      rintro m bytes length ⟨log, hhandle, hm⟩ hlength
      obtain ⟨f', htruncate⟩ := h.truncates hm hlength
      simp only [LogStorage.truncate, Medium.run, hhandle] at htruncate ⊢
      rw [htruncate]
      exact ⟨_, rfl⟩ }

end Medium

end OrderedStore
