import OrderedStore.Proofs.Paths

/-!
# What changes of a disk keep

Every change of a disk leaves it sound and keeps its folders. The files keep their names but for the one whose name the
change is about.

* `keeps_setContent`, `keeps_addFile`, `keeps_addFolder`, `keeps_moveFile`: changes of one file or one name;
* `openFile_cases`, `write_cases`, `rename_cases`, `makeDirectory_cases`: the outcomes of the operations;
* `keeps_openFile`, `keeps_write`, `keeps_rename`, `keeps_makeDirectories`: what they keep;
* `find_openFile`, `find_write`, `find_rename`: where their paths lead afterwards.
-/

namespace OrderedStore

namespace Disk

variable {d d' : Disk} {kept : String}

/-! ## Changes -/

/-- Soundness is a matter of names and of how many files there are. -/
theorem Sound.of_folders (h : d.Sound) (hfolders : d'.folders = d.folders)
    (hlength : d'.contents.length = d.contents.length) : d'.Sound where
  root := hfolders ▸ h.root
  above place := by simpa only [folder, hfolders] using h.above place
  directories hnode := by
    simp only [node?, folder, hfolders] at hnode ⊢
    exact h.directories hnode
  files hnode := by
    simp only [node?, folder, hfolders, hlength] at hnode ⊢
    exact h.files hnode
  alone hnode hnode' := by
    simp only [node?, folder, hfolders] at hnode hnode'
    exact h.alone hnode hnode'

theorem Sound.lock (h : d.Sound) (id : FileId) : (d.lock id).Sound := h.of_folders rfl rfl

theorem Sound.unlock (h : d.Sound) (id : FileId) : (d.unlock id).Sound := h.of_folders rfl rfl

/-- A lock that was free is given back. -/
theorem Keeps.unlock {id : FileId} (h : (d.lock id).Keeps kept d') (hfree : id ∉ d.locks) :
    d.Keeps kept (d'.unlock id) where
  size := h.size
  above := h.above
  directories := h.directories
  sound := h.sound.unlock id
  files := h.files
  locks := by
    have hother : ∀ other ∈ d.locks, decide (other ≠ id) = true := fun other hmem =>
      decide_eq_true fun heq => hfree (heq ▸ hmem)
    show d'.locks.filter (· ≠ id) = d.locks
    rw [h.locks, Disk.lock, List.filter_cons_of_neg (by simp), List.filter_eq_self.mpr hother]

theorem content_setContent {id : FileId} (hid : id < d.contents.length) (bytes : Bytes) :
    (d.setContent id bytes).content id = bytes := by
  simp [content, setContent, List.getD_eq_getElem?_getD, hid]

theorem Sound.setContent (h : d.Sound) (id : FileId) (bytes : Bytes) : (d.setContent id bytes).Sound :=
  h.of_folders rfl (List.length_set ..)

theorem Sound.keeps_setContent (h : d.Sound) (id : FileId) (bytes : Bytes) : d.Keeps kept (d.setContent id bytes) where
  size := Nat.le_refl _
  above _ := rfl
  directories hnode := hnode
  sound := h.setContent id bytes
  files hnode := hnode
  locks := rfl

/-- The disk with a new file at a free name. -/
def addFile (d : Disk) (place : FolderId) (name : String) : Disk :=
  { d.setNode place name (.file d.contents.length) with contents := d.contents ++ [[]] }

theorem node?_addFile {place : FolderId} (hplace : place < d.folders.size) (name : String) (q : FolderId) (m : String) :
    (d.addFile place name).node? q m = if q = place ∧ m = name then some (.file d.contents.length) else d.node? q m :=
  node?_setNode hplace name _ q m

theorem size_addFile (d : Disk) (place : FolderId) (name : String) :
    (d.addFile place name).folders.size = d.folders.size := Array.size_modify ..

theorem above_addFile (d : Disk) (place : FolderId) (name : String) (q : FolderId) :
    ((d.addFile place name).folder q).above = (d.folder q).above := by
  show ((d.setNode place name (.file d.contents.length)).folder q).above = _
  exact above_edit ..

theorem content_addFile (d : Disk) (place : FolderId) (name : String) :
    (d.addFile place name).content d.contents.length = [] := by
  simp [content, addFile]

/-- What has a name is not at a free one. -/
theorem ne_of_node? {place q : FolderId} {name m : String} {node : Node} (hfree : d.node? place name = none)
    (h : d.node? q m = some node) : ¬(q = place ∧ m = name) := by
  rintro ⟨rfl, rfl⟩
  cases hfree.symm.trans h

theorem extends_addFile {place : FolderId} {name : String} (hplace : place < d.folders.size)
    (hfree : d.node? place name = none) : d.Extends (d.addFile place name) where
  size := Nat.le_of_eq (size_addFile d place name).symm
  above _ := above_addFile ..
  directories hnode := by rwa [node?_addFile hplace, if_neg (ne_of_node? hfree hnode)]

theorem Sound.addFile (h : d.Sound) {place : FolderId} (hplace : place < d.folders.size) (name : String) :
    (d.addFile place name).Sound where
  root := size_addFile d place name ▸ h.root
  above := fun q => by
    rw [size_addFile, above_addFile]
    exact h.above q
  directories := fun hnode => by
    rw [node?_addFile hplace] at hnode
    rw [size_addFile]
    split at hnode
    · cases hnode
    · exact h.directories hnode
  files := fun hnode => by
    rw [node?_addFile hplace] at hnode
    show _ < (d.contents ++ [[]]).length
    rw [List.length_append, List.length_singleton]
    split at hnode
    · cases hnode
      exact Nat.lt_succ_self _
    · exact Nat.lt_succ_of_lt (h.files hnode)
  alone := fun hnode hnode' => by
    rw [node?_addFile hplace] at hnode hnode'
    split at hnode
    · rename_i hnew
      cases hnode
      split at hnode'
      · rename_i hnew'
        exact ⟨hnew.1.trans hnew'.1.symm, hnew.2.trans hnew'.2.symm⟩
      · exact absurd (h.files hnode') (Nat.lt_irrefl _)
    · split at hnode'
      · cases hnode'
        exact absurd (h.files hnode) (Nat.lt_irrefl _)
      · exact h.alone hnode hnode'

theorem Sound.keeps_addFile (h : d.Sound) {place : FolderId} {name : String} (hplace : place < d.folders.size)
    (hfree : d.node? place name = none) : d.Keeps kept (d.addFile place name) where
  toExtends := extends_addFile hplace hfree
  sound := h.addFile hplace name
  files hnode := by rwa [node?_addFile hplace, if_neg (ne_of_node? hfree hnode)]
  locks := rfl

/-- The disk with a new folder at a free name. -/
def addFolder (d : Disk) (place : FolderId) (name : String) : Disk :=
  let named := d.setNode place name (.directory d.folders.size)
  { named with folders := named.folders.push { above := place } }

theorem size_addFolder (d : Disk) (place : FolderId) (name : String) :
    (d.addFolder place name).folders.size = d.folders.size + 1 := by
  exact (Array.size_push _).trans (congrArg (· + 1) (Array.size_modify ..))

theorem folder_addFolder (d : Disk) (place : FolderId) (name : String) (q : FolderId) :
    (d.addFolder place name).folder q =
      if q = d.folders.size then { above := place }
      else (d.setNode place name (.directory d.folders.size)).folder q := by
  have hsize : (d.setNode place name (.directory d.folders.size)).folders.size = d.folders.size := Array.size_modify ..
  simp only [addFolder, folder, Array.getD_eq_getD_getElem?, Array.getElem?_push, hsize]
  split <;> rfl

theorem node?_addFolder {place : FolderId} (hplace : place < d.folders.size) (name : String) (q : FolderId)
    (m : String) :
    (d.addFolder place name).node? q m =
      if q = place ∧ m = name then some (.directory d.folders.size) else d.node? q m := by
  rw [← node?_setNode hplace]
  by_cases hq : q = d.folders.size
  · have hnone : (d.setNode place name (.directory d.folders.size)).node? q m = none :=
      Option.eq_none_iff_forall_ne_some.mpr fun node hnode =>
        Nat.ne_of_lt (Nat.lt_of_lt_of_eq (lt_of_node? hnode) (Array.size_modify ..)) hq
    rw [hnone, node?, folder_addFolder, if_pos hq]
    rfl
  · rw [node?, folder_addFolder, if_neg hq, node?]

theorem Sound.keeps_addFolder (h : d.Sound) {place : FolderId} {name : String} (hplace : place < d.folders.size)
    (hfree : d.node? place name = none) : d.Keeps kept (d.addFolder place name) where
  size := size_addFolder d place name ▸ Nat.le_succ _
  above {q} hq := by
    rw [folder_addFolder, if_neg (Nat.ne_of_lt hq)]
    exact above_edit ..
  directories hnode := by rwa [node?_addFolder hplace, if_neg (ne_of_node? hfree hnode)]
  files hnode := by rwa [node?_addFolder hplace, if_neg (ne_of_node? hfree hnode)]
  locks := rfl
  sound := {
    root := size_addFolder d place name ▸ Nat.zero_lt_succ _
    above := fun q => by
      rw [size_addFolder, folder_addFolder]
      split
      · exact Nat.lt_succ_of_lt hplace
      · exact Nat.lt_succ_of_lt ((above_edit d place q _).symm ▸ h.above q)
    directories := fun hnode => by
      rw [node?_addFolder hplace] at hnode
      rw [size_addFolder]
      split at hnode
      · cases hnode
        exact Nat.lt_succ_self _
      · exact Nat.lt_succ_of_lt (h.directories hnode)
    files := fun hnode => by
      rw [node?_addFolder hplace] at hnode
      split at hnode
      · cases hnode
      · exact h.files hnode
    alone := fun hnode hnode' => by
      rw [node?_addFolder hplace] at hnode hnode'
      split at hnode
      · cases hnode
      · split at hnode'
        · cases hnode'
        · exact h.alone hnode hnode' }

/-- The disk with a file at another name. -/
def moveFile (d : Disk) (fromPlace : FolderId) (fromName : String) (toPlace : FolderId) (toName : String)
    (id : FileId) : Disk :=
  (d.dropNode fromPlace fromName).setNode toPlace toName (.file id)

section Move

variable {fromPlace toPlace : FolderId} {fromName toName : String} {id : FileId}

theorem size_moveFile : (d.moveFile fromPlace fromName toPlace toName id).folders.size = d.folders.size :=
  (Array.size_modify ..).trans (Array.size_modify ..)

theorem above_moveFile (q : FolderId) :
    ((d.moveFile fromPlace fromName toPlace toName id).folder q).above = (d.folder q).above :=
  (above_edit ..).trans (above_edit ..)

theorem node?_moveFile (hto : toPlace < d.folders.size) (q : FolderId) (m : String) :
    (d.moveFile fromPlace fromName toPlace toName id).node? q m =
      if q = toPlace ∧ m = toName then some (.file id)
      else if q = fromPlace ∧ m = fromName then none
      else d.node? q m := by
  rw [moveFile, node?_setNode (Nat.lt_of_lt_of_eq hto (Array.size_modify ..).symm), node?_dropNode]

/-- What is neither at the old nor at the new name of a moved file is where it was. -/
theorem node?_moveFile_of_ne (hto : toPlace < d.folders.size) {q : FolderId} {m : String}
    (hnew : ¬(q = toPlace ∧ m = toName)) (hold : ¬(q = fromPlace ∧ m = fromName)) :
    (d.moveFile fromPlace fromName toPlace toName id).node? q m = d.node? q m := by
  rw [node?_moveFile hto, if_neg hnew, if_neg hold]

theorem extends_moveFile (hto : toPlace < d.folders.size) (hfile : d.node? fromPlace fromName = some (.file id))
    (hreplaced : ∀ place, d.node? toPlace toName ≠ some (.directory place)) :
    d.Extends (d.moveFile fromPlace fromName toPlace toName id) where
  size := Nat.le_of_eq size_moveFile.symm
  above _ := above_moveFile _
  directories {q place m} hnode := by
    rw [node?_moveFile_of_ne hto]
    · exact hnode
    · rintro ⟨rfl, rfl⟩
      exact hreplaced _ hnode
    · rintro ⟨rfl, rfl⟩
      cases hfile.symm.trans hnode

theorem Sound.moveFile (h : d.Sound) (hto : toPlace < d.folders.size)
    (hfile : d.node? fromPlace fromName = some (.file id)) :
    (d.moveFile fromPlace fromName toPlace toName id).Sound := by
  -- a file that has a name now is the moved one at its new name, or has the name it had
  have hcases : ∀ {q : FolderId} {m : String} {node : Node},
      (d.moveFile fromPlace fromName toPlace toName id).node? q m = some node →
        q = toPlace ∧ m = toName ∧ node = .file id ∨ ¬(q = fromPlace ∧ m = fromName) ∧ d.node? q m = some node := by
    intro q m node hnode
    rw [node?_moveFile hto] at hnode
    split at hnode
    · rename_i hnew
      exact .inl ⟨hnew.1, hnew.2, (Option.some.inj hnode).symm⟩
    · split at hnode
      · cases hnode
      · rename_i hold
        exact .inr ⟨hold, hnode⟩
  refine {
    root := size_moveFile.symm ▸ h.root
    above := fun q => by
      rw [size_moveFile, above_moveFile]
      exact h.above q
    directories := fun hnode => ?_
    files := fun hnode => ?_
    alone := fun {q q' m m' other} hnode hnode' => ?_ }
  · obtain ⟨-, -, heq⟩ | ⟨-, hnode⟩ := hcases hnode
    · cases heq
    · exact size_moveFile.symm ▸ h.directories hnode
  · obtain ⟨-, -, heq⟩ | ⟨-, hnode⟩ := hcases hnode
    · cases heq
      exact h.files hfile
    · exact h.files hnode
  · obtain ⟨rfl, rfl, heq⟩ | ⟨hold, hwas⟩ := hcases hnode
    · cases heq
      obtain ⟨rfl, rfl, -⟩ | ⟨hold', hwas'⟩ := hcases hnode'
      · exact ⟨rfl, rfl⟩
      · exact absurd (h.alone hwas' hfile) hold'
    · obtain ⟨-, -, heq⟩ | ⟨-, hwas'⟩ := hcases hnode'
      · cases heq
        exact absurd (h.alone hwas hfile) hold
      · exact h.alone hwas hwas'

theorem Sound.keeps_moveFile (h : d.Sound) (hto : toPlace < d.folders.size)
    (hfile : d.node? fromPlace fromName = some (.file id))
    (hreplaced : ∀ place, d.node? toPlace toName ≠ some (.directory place)) (hfrom : fromName ≠ kept)
    (hname : toName ≠ kept) : d.Keeps kept (d.moveFile fromPlace fromName toPlace toName id) where
  toExtends := extends_moveFile hto hfile hreplaced
  files hnode := by
    rw [node?_moveFile_of_ne hto (fun heq => hname heq.2.symm) (fun heq => hfrom heq.2.symm)]
    exact hnode
  locks := rfl
  sound := h.moveFile hto hfile

end Move

/-! ## Outcomes -/

/-- Opening a file fails, finds it, or makes it. -/
theorem openFile_cases (d : Disk) (path : String) :
    (∃ fault, d.openFile path = (.error fault, d)) ∨
      (∃ id, d.openFile path = (.ok id, d) ∧ d.find path = .ok (.file id)) ∨
      ∃ route place name, Route.ofText path = .ok route ∧ route.slash = false ∧
        d.locate route.names = .ok (place, some name) ∧ d.node? place name = none ∧
        d.openFile path = (.ok d.contents.length, d.addFile place name) := by
  unfold openFile
  split
  · exact .inl ⟨_, rfl⟩
  · rename_i route hroute
    split
    · exact .inl ⟨_, rfl⟩
    · exact .inl ⟨_, rfl⟩
    · rename_i place name hlocate
      split
      · exact .inl ⟨_, rfl⟩
      · rename_i hslash
        have hslash : route.slash = false := by simpa using hslash
        split
        · exact .inl ⟨_, rfl⟩
        · rename_i id hnode
          exact .inr (.inl ⟨id, rfl, find_eq_file_iff.mpr ⟨route, place, name, hroute, hslash, hlocate, hnode⟩⟩)
        · rename_i hnode
          exact .inr (.inr ⟨route, place, name, hroute, hslash, hlocate, hnode, rfl⟩)

/-- A file that is there is opened. -/
theorem openFile_of_find {path : String} {id : FileId} (h : d.find path = .ok (.file id)) :
    d.openFile path = (.ok id, d) := by
  obtain ⟨route, place, name, hroute, hslash, hlocate, hnode⟩ := find_eq_file_iff.mp h
  simp only [openFile, hroute, hlocate, hslash, hnode, Bool.false_eq_true, if_false]

theorem Sound.keeps_openFile (h : d.Sound) {path : String} {result : Except SystemFault FileId}
    (hopen : d.openFile path = (result, d')) : d.Keeps kept d' := by
  obtain ⟨fault, heq⟩ | ⟨id, heq, -⟩ | ⟨route, place, name, -, -, hlocate, hfree, heq⟩ := openFile_cases d path
  · cases heq.symm.trans hopen
    exact h.keeps_refl
  · cases heq.symm.trans hopen
    exact h.keeps_refl
  · cases heq.symm.trans hopen
    exact h.keeps_addFile (h.locate_lt hlocate) hfree

theorem Sound.openFile (h : d.Sound) {path : String} {result : Except SystemFault FileId}
    (hopen : d.openFile path = (result, d')) : d'.Sound :=
  have hkeeps : d.Keeps "" d' := h.keeps_openFile hopen
  hkeeps.sound

/-- An opened file is there. -/
theorem Sound.find_openFile (h : d.Sound) {path : String} {id : FileId} {d' : Disk}
    (hopen : d.openFile path = (.ok id, d')) :
    d'.find path = .ok (.file id) ∧ (d.find path = .ok (.file id) ∧ d' = d ∨ d'.content id = []) := by
  obtain ⟨fault, heq⟩ | ⟨found, heq, hfind⟩ | ⟨route, place, name, hroute, hslash, hlocate, hfree, heq⟩ :=
    openFile_cases d path
  · cases heq.symm.trans hopen
  · cases heq.symm.trans hopen
    exact ⟨hfind, .inl ⟨hfind, rfl⟩⟩
  · cases heq.symm.trans hopen
    have hplace := h.locate_lt hlocate
    have hadded := (extends_addFile hplace hfree).locate h hlocate
    refine ⟨find_eq_file_iff.mpr ⟨route, place, name, hroute, hslash, hadded, ?_⟩, .inr ?_⟩
    · rw [node?_addFile hplace, if_pos ⟨rfl, rfl⟩]
    · exact content_addFile d place name

/-- Writing a file fails, or opens it and sets its content. -/
theorem write_cases {path : String} {bytes : Bytes} {result : Except SystemFault Unit}
    (h : d.write path bytes = (result, d')) :
    ∃ opened d₁, d.openFile path = (opened, d₁) ∧ ((∃ fault, result = .error fault) ∧ d' = d₁ ∨
      ∃ id, opened = .ok id ∧ d' = (d₁.setContent id []).setContent id bytes) := by
  unfold write createFile at h
  obtain ⟨opened, d₁, hopen⟩ : ∃ opened d₁, d.openFile path = (opened, d₁) := ⟨_, _, rfl⟩
  refine ⟨opened, d₁, hopen, ?_⟩
  rw [hopen] at h
  cases opened with
  | error fault =>
    cases h
    exact .inl ⟨⟨fault, rfl⟩, rfl⟩
  | ok id =>
    cases h
    exact .inr ⟨id, rfl, rfl⟩

theorem Sound.keeps_write (h : d.Sound) {path : String} {bytes : Bytes} {result : Except SystemFault Unit}
    (hwrite : d.write path bytes = (result, d')) : d.Keeps kept d' := by
  obtain ⟨opened, d₁, hopen, ⟨-, rfl⟩ | ⟨id, -, rfl⟩⟩ := write_cases hwrite
  · exact h.keeps_openFile hopen
  · have hopened : d.Keeps kept d₁ := h.keeps_openFile hopen
    have hemptied : d₁.Keeps kept (d₁.setContent id []) := hopened.sound.keeps_setContent id []
    exact hopened.trans (hemptied.trans (hemptied.sound.keeps_setContent id bytes))

theorem Sound.write (h : d.Sound) {path : String} {bytes : Bytes} {result : Except SystemFault Unit}
    (hwrite : d.write path bytes = (result, d')) : d'.Sound :=
  have hkeeps : d.Keeps "" d' := h.keeps_write hwrite
  hkeeps.sound

/-- A file that has been written is there. -/
theorem Sound.find_write (h : d.Sound) {path : String} {bytes : Bytes} (hwrite : d.write path bytes = (.ok (), d')) :
    ∃ id, d'.find path = .ok (.file id) ∧ d'.content id = bytes := by
  obtain ⟨opened, d₁, hopen, ⟨⟨fault, hfault⟩, -⟩ | ⟨id, rfl, rfl⟩⟩ := write_cases hwrite
  · cases hfault
  · have hfind := (h.find_openFile hopen).1
    obtain ⟨-, place, name, -, -, -, hnode⟩ := find_eq_file_iff.mp hfind
    have hlt : id < d₁.contents.length := (h.openFile hopen).files hnode
    refine ⟨id, by rwa [find_setContent, find_setContent], content_setContent ?_ bytes⟩
    exact Nat.lt_of_lt_of_eq hlt (List.length_set ..).symm

/-- Renaming moves a file to a name that is not a folder's, or leaves the disk as it is. -/
theorem rename_cases {source target : String} {result : Except SystemFault Unit}
    (h : d.rename source target = (result, d')) :
    (∃ fault, result = .error fault) ∧ d' = d ∨
      ∃ sourceRoute targetRoute fromPlace fromName toPlace toName id, result = .ok () ∧
        Route.ofText source = .ok sourceRoute ∧ Route.ofText target = .ok targetRoute ∧
        d.locate sourceRoute.names = .ok (fromPlace, some fromName) ∧
        d.locate targetRoute.names = .ok (toPlace, some toName) ∧ d.node? fromPlace fromName = some (.file id) ∧
        (∀ place, d.node? toPlace toName ≠ some (.directory place)) ∧
        d' = d.moveFile fromPlace fromName toPlace toName id := by
  unfold rename at h
  dsimp only at h
  split at h
  · cases h
    exact .inl ⟨⟨_, rfl⟩, rfl⟩
  · rename_i moved hmoved
    cases h
    simp only [bind_eq_ok_iff] at hmoved
    obtain ⟨sourceRoute, hsource, targetRoute, htarget, ⟨fromPlace, fromName⟩, hfrom, ⟨toPlace, toName⟩, hto, hmoved⟩ :=
      hmoved
    dsimp only at hmoved
    split at hmoved
    · rename_i fromName toName
      split at hmoved
      · cases hmoved
      · cases hmoved
      · cases hmoved
      · rename_i id hfile hother
        cases hmoved
        exact .inr ⟨sourceRoute, targetRoute, fromPlace, fromName, toPlace, toName, id, rfl, hsource, htarget, hfrom,
          hto, hfile, hother, rfl⟩
    · cases hmoved

/-- Making a directory fails, or puts a folder at a free name. -/
theorem makeDirectory_cases {names : List String} (h : d.makeDirectory names = .ok d') :
    ∃ place name, d.locate names = .ok (place, some name) ∧ d.node? place name = none ∧
      d' = d.addFolder place name := by
  obtain ⟨⟨place, name⟩, hlocate, h⟩ := bind_eq_ok_iff.mp h
  cases name with
  | none => cases h
  | some name =>
    dsimp only at h
    split at h
    · cases h
    · rename_i hfree
      cases h
      exact ⟨place, name, hlocate, hfree, rfl⟩

theorem Sound.keeps_rename (h : d.Sound) {source target : String} {result : Except SystemFault Unit}
    (hrename : d.rename source target = (result, d')) (hsource : (Route.split source).getLast? ≠ some kept)
    (htarget : (Route.split target).getLast? ≠ some kept) : d.Keeps kept d' := by
  obtain ⟨-, rfl⟩ | ⟨sourceRoute, targetRoute, fromPlace, fromName, toPlace, toName, id, -, hfrom, hto, hfromLocate,
    htoLocate, hfile, hreplaced, rfl⟩ := rename_cases hrename
  · exact h.keeps_refl
  · rw [← Route.ofText_eq_ok hfrom, getLast?_of_locate hfromLocate] at hsource
    rw [← Route.ofText_eq_ok hto, getLast?_of_locate htoLocate] at htarget
    exact h.keeps_moveFile (h.locate_lt htoLocate) hfile hreplaced (fun hname => hsource (congrArg some hname))
      (fun hname => htarget (congrArg some hname))

theorem Sound.rename (h : d.Sound) {source target : String} {result : Except SystemFault Unit}
    (hrename : d.rename source target = (result, d')) : d'.Sound := by
  obtain ⟨-, rfl⟩ | ⟨_, _, fromPlace, fromName, toPlace, toName, id, -, -, -, -, hto, hfile, -, rfl⟩ :=
    rename_cases hrename
  · exact h
  · exact h.moveFile (h.locate_lt hto) hfile

/-- A file that has been renamed is at its new path, which does not end in a slash. -/
theorem Sound.find_rename_of_slash (h : d.Sound) {source target : String} {id : FileId}
    (hsource : d.find source = .ok (.file id))
    (hslash : ∀ route, Route.ofText target = .ok route → route.slash = false)
    (hrename : d.rename source target = (.ok (), d')) : d'.find target = .ok (.file id) ∧ d'.contents = d.contents := by
  obtain ⟨⟨fault, hfault⟩, -⟩ | ⟨sourceRoute, targetRoute, fromPlace, fromName, toPlace, toName, moved, -, hfrom, hto,
    hfromLocate, htoLocate, hfile, hreplaced, rfl⟩ := rename_cases hrename
  · cases hfault
  · obtain ⟨route, place, name, hroute, -, hlocate, hnode⟩ := find_eq_file_iff.mp hsource
    cases hfrom.symm.trans hroute
    cases hfromLocate.symm.trans hlocate
    cases hfile.symm.trans hnode
    have hplace := h.locate_lt htoLocate
    refine ⟨find_eq_file_iff.mpr ⟨targetRoute, toPlace, toName, hto, hslash _ hto, ?_, ?_⟩, rfl⟩
    · exact (extends_moveFile hplace hfile hreplaced).locate h htoLocate
    · rw [node?_moveFile hplace, if_pos ⟨rfl, rfl⟩]

/-- A file that has replaced another one by renaming is where that one was. -/
theorem Sound.find_rename (h : d.Sound) {source target : String} {id old : FileId}
    (hsource : d.find source = .ok (.file id)) (htarget : d.find target = .ok (.file old))
    (hrename : d.rename source target = (.ok (), d')) :
    d'.find target = .ok (.file id) ∧ d'.contents = d.contents := by
  refine h.find_rename_of_slash hsource (fun route hroute => ?_) hrename
  obtain ⟨route', -, -, hroute', hslash, -⟩ := find_eq_file_iff.mp htarget
  cases hroute.symm.trans hroute'
  exact hslash

theorem Sound.keeps_makeDirectory (h : d.Sound) {names : List String} (hmake : d.makeDirectory names = .ok d') :
    d.Keeps kept d' := by
  obtain ⟨place, name, hlocate, hfree, rfl⟩ := makeDirectory_cases hmake
  exact h.keeps_addFolder (h.locate_lt hlocate) hfree

theorem Sound.keeps_makeRoute (h : d.Sound) (names : List String) : d.Keeps kept (d.makeRoute names).2 := by
  fun_induction makeRoute d names with
  | case1 => exact h.keeps_refl
  | case2 names hnil made hmake => exact h.keeps_makeDirectory hmake
  | case3 names hnil hmake fault above habove ih =>
    rw [habove] at ih
    exact ih
  | case4 names hnil hmake above habove made hmade ih =>
    rw [habove] at ih
    exact ih.trans (ih.sound.keeps_makeDirectory hmade)
  | case5 names hnil hmake above habove fault hmade ih =>
    rw [habove] at ih
    exact ih
  | case6 => exact h.keeps_refl

theorem Sound.keeps_makeDirectories (h : d.Sound) {path : String} {result : Except SystemFault Unit}
    (hmake : d.makeDirectories path = (result, d')) : d.Keeps kept d' := by
  unfold makeDirectories at hmake
  split at hmake
  · cases hmake
    exact h.keeps_refl
  · split at hmake
    · cases hmake
      exact h.keeps_refl
    · rename_i route hroute
      have hkeeps : d.Keeps kept (d.makeRoute route.names).2 := h.keeps_makeRoute route.names
      rw [hmake] at hkeeps
      exact hkeeps

end Disk

end OrderedStore
