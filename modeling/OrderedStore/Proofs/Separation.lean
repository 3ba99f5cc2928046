import OrderedStore.Proofs.Directory
import OrderedStore.Proofs.Files

/-!
# Files of other names

What is done at a path leaves the files of other names alone: they are where they were, or are still missing, and they
have the bytes that they had.

* `Disk.Spares`: what a name stands for, in every folder, has not changed;
* `spares_openFile`, `spares_write`, `spares_rename`: it does not if the names at the end of the paths are others;
* `Sound.ne_of_find`: paths that end in different names never lead to one file;
* `Sound.content_write`, `contents_rename`, `read_of_keeps`: the bytes of another file.
-/

namespace OrderedStore

namespace Disk

variable {d d' : Disk} {name : String}

/-! ## Names -/

/-- What the name stands for has not changed, in any folder. -/
def Spares (name : String) (d d' : Disk) : Prop := ∀ place, d'.node? place name = d.node? place name

theorem Spares.trans {d'' : Disk} (h : d.Spares name d') (h' : d'.Spares name d'') : d.Spares name d'' :=
  fun place => (h' place).trans (h place)

theorem Sound.spares_openFile (h : d.Sound) {path : String} {result : Except SystemFault FileId}
    (hopen : d.openFile path = (result, d')) (hname : (Route.split path).getLast? ≠ some name) : d.Spares name d' := by
  obtain ⟨fault, heq⟩ | ⟨id, heq, -⟩ | ⟨route, place, last, hroute, -, hlocate, -, heq⟩ := openFile_cases d path
  · cases heq.symm.trans hopen
    exact fun _ => rfl
  · cases heq.symm.trans hopen
    exact fun _ => rfl
  · cases heq.symm.trans hopen
    rw [← Route.ofText_eq_ok hroute, getLast?_of_locate hlocate] at hname
    intro q
    rw [node?_addFile (h.locate_lt hlocate), if_neg fun hnew => hname (congrArg some hnew.2.symm)]

theorem Sound.spares_write (h : d.Sound) {path : String} {bytes : Bytes} {result : Except SystemFault Unit}
    (hwrite : d.write path bytes = (result, d')) (hname : (Route.split path).getLast? ≠ some name) :
    d.Spares name d' := by
  obtain ⟨opened, d₁, hopen, ⟨-, rfl⟩ | ⟨id, -, rfl⟩⟩ := write_cases hwrite
  · exact h.spares_openFile hopen hname
  · have hopened : d.Spares name d₁ := h.spares_openFile hopen hname
    exact hopened

theorem Sound.spares_rename (h : d.Sound) {source target : String} {result : Except SystemFault Unit}
    (hrename : d.rename source target = (result, d')) (hsource : (Route.split source).getLast? ≠ some name)
    (htarget : (Route.split target).getLast? ≠ some name) : d.Spares name d' := by
  obtain ⟨-, rfl⟩ | ⟨sourceRoute, targetRoute, fromPlace, fromName, toPlace, toName, id, -, hfrom, hto, hfromLocate,
    htoLocate, -, -, rfl⟩ := rename_cases hrename
  · exact fun _ => rfl
  · rw [← Route.ofText_eq_ok hfrom, getLast?_of_locate hfromLocate] at hsource
    rw [← Route.ofText_eq_ok hto, getLast?_of_locate htoLocate] at htarget
    exact fun q => node?_moveFile_of_ne (h.locate_lt htoLocate) (fun hnew => htarget (congrArg some hnew.2.symm))
      fun hold => hsource (congrArg some hold.2.symm)

/-! ## Bytes -/

/-- Paths that end in different names never lead to one file. -/
theorem Sound.ne_of_find (h : d.Sound) {path other : String} {id id' : FileId} (hpath : d.find path = .ok (.file id))
    (hother : d.find other = .ok (.file id')) (hlast : (Route.split path).getLast? ≠ (Route.split other).getLast?) :
    id' ≠ id := by
  rintro rfl
  obtain ⟨route, place, last, hroute, -, hlocate, hnode⟩ := find_eq_file_iff.mp hpath
  obtain ⟨route', place', last', hroute', -, hlocate', hnode'⟩ := find_eq_file_iff.mp hother
  rw [← Route.ofText_eq_ok hroute, ← Route.ofText_eq_ok hroute', getLast?_of_locate hlocate,
    getLast?_of_locate hlocate'] at hlast
  exact hlast (congrArg some (h.alone hnode hnode').2)

theorem Sound.lt_of_find (h : d.Sound) {path : String} {id : FileId} (hpath : d.find path = .ok (.file id)) :
    id < d.contents.length := by
  obtain ⟨-, place, last, -, -, -, hnode⟩ := find_eq_file_iff.mp hpath
  exact h.files hnode

theorem content_setContent_of_ne {id id' : FileId} (hne : id' ≠ id) (bytes : Bytes) :
    (d.setContent id bytes).content id' = d.content id' := by
  simp [content, setContent, List.getD_eq_getElem?_getD, List.getElem?_set_ne hne.symm]

/-- Opening a file leaves the bytes of all files as they are. -/
theorem content_openFile {path : String} {result : Except SystemFault FileId} (hopen : d.openFile path = (result, d'))
    {id : FileId} (hid : id < d.contents.length) : d'.content id = d.content id := by
  obtain ⟨fault, heq⟩ | ⟨found, heq, -⟩ | ⟨route, place, last, -, -, -, -, heq⟩ := openFile_cases d path
  · cases heq.symm.trans hopen
    rfl
  · cases heq.symm.trans hopen
    rfl
  · cases heq.symm.trans hopen
    simp [content, addFile, List.getD_eq_getElem?_getD, List.getElem?_append_left hid]

/-- Writing a file leaves the bytes of another one. -/
theorem Sound.content_write (h : d.Sound) {path other : String} {bytes : Bytes} {result : Except SystemFault Unit}
    (hwrite : d.write path bytes = (result, d')) {id : FileId} (hother : d.find other = .ok (.file id))
    (hlast : (Route.split path).getLast? ≠ (Route.split other).getLast?) : d'.content id = d.content id := by
  have hid := h.lt_of_find hother
  obtain ⟨opened, d₁, hopen, ⟨-, rfl⟩ | ⟨written, rfl, rfl⟩⟩ := write_cases hwrite
  · exact content_openFile hopen hid
  · have hother₁ := find_file_of_keeps h (fun _ => h.keeps_openFile hopen) hother
    have hne := (h.openFile hopen).ne_of_find (h.find_openFile hopen).1 hother₁ hlast
    rw [content_setContent_of_ne hne, content_setContent_of_ne hne, content_openFile hopen hid]

theorem contents_rename {source target : String} {result : Except SystemFault Unit}
    (hrename : d.rename source target = (result, d')) : d'.contents = d.contents := by
  obtain ⟨-, rfl⟩ | ⟨_, _, _, _, _, _, _, -, -, -, -, -, -, -, rfl⟩ := rename_cases hrename <;> rfl

/-! ## Reading by path -/

theorem read_eq_ok_iff {path : String} {bytes : Bytes} :
    d.read path = .ok bytes ↔ ∃ id, d.find path = .ok (.file id) ∧ d.content id = bytes := by
  rw [read, bind_eq_ok_iff]
  constructor
  · rintro ⟨node, hfind, hnode⟩
    cases node with
    | directory => cases hnode
    | file id =>
      cases hnode
      exact ⟨id, hfind, rfl⟩
  · rintro ⟨id, hfind, rfl⟩
    exact ⟨_, hfind, rfl⟩

/-- A file that is still there, with its bytes, is still read. -/
theorem read_of_keeps {path : String} {bytes : Bytes} (hread : d.read path = .ok bytes)
    (hfind : ∀ id, d.find path = .ok (.file id) → d'.find path = .ok (.file id) ∧ d'.content id = d.content id) :
    d'.read path = .ok bytes := by
  obtain ⟨id, hfound, rfl⟩ := read_eq_ok_iff.mp hread
  exact read_eq_ok_iff.mpr ⟨id, hfind id hfound⟩

end Disk

end OrderedStore
