import OrderedStore.Proofs.Separation
import OrderedStore.Proofs.Vacancy

/-!
# The files of one folder

A name in the folder of a path is opened, written or renamed unless a directory is in its place, or its path is no text
of a path. Whatever is done at one name of the folder leaves the others as they are.

* `Disk.find_joinPath`: a name leads to what it stands for in the folder;
* `Disk.Blocks`: the system refuses a file at a path; `blocks_of_openFile`, `blocks_of_write`, `blocks_of_rename`;
* `Disk.SameAt`: nothing has changed at a path; `sameAt_openFile`, `sameAt_write`, `sameAt_rename`.
-/

namespace OrderedStore

namespace Disk

variable {d d' : Disk} {path name other : String} {place : FolderId}

/-! ## Names in the folder of a path -/

/-- A file in a folder may have the name. -/
def Plain (name : String) : Prop :=
  '/' ∉ name.toList ∧ name ≠ "" ∧ name ≠ "." ∧ name ≠ ".." ∧ checkName name = .ok ()

instance (name : String) : Decidable (Plain name) := inferInstanceAs (Decidable (_ ∧ _))

theorem locate_joinPath (hname : Plain name) (hplace : d.find path = .ok (.directory place)) {route : Route}
    (hroute : Route.ofText (joinPath path name) = .ok route) : d.locate route.names = .ok (place, some name) := by
  obtain ⟨hslash, hne, hdot, hdots, hcheck⟩ := hname
  rw [Route.ofText_eq_ok hroute, Route.split_joinPath path hslash hne]
  exact locate_append_singleton hdot hdots (descend_of_find_directory hplace) hcheck

/-- Behind the path of a folder, a name leads to what it stands for in the folder. -/
theorem find_joinPath (hname : Plain name) (hplace : d.find path = .ok (.directory place)) {route : Route}
    (hroute : Route.ofText (joinPath path name) = .ok route) :
    d.find (joinPath path name) = match d.node? place name with
      | none => .error .notFound
      | some node => .ok node := by
  rw [find_eq hroute, locate_joinPath hname hplace hroute]
  show d.nodeAt route.slash (place, some name) = _
  rw [nodeAt, slash_joinPath hname.1 hname.2.1 hroute]
  rcases d.node? place name with _ | _ | _ <;> rfl

/-- A path leads nowhere if its last name is free. -/
theorem find_of_node?_eq_none {route : Route} (hroute : Route.ofText path = .ok route)
    (hlocate : d.locate route.names = .ok (place, some name)) (hnone : d.node? place name = none) :
    d.find path = .error .notFound := by
  rw [find_eq hroute, hlocate]
  show d.nodeAt route.slash (place, some name) = _
  rw [nodeAt, hnone]

/-- The system refuses a file at the path: it is no text of a path, or leads to a directory. -/
def Blocks (d : Disk) (path : String) : Prop :=
  (∀ route, Route.ofText path ≠ .ok route) ∨ ∃ place, d.find path = .ok (.directory place)

instance (d : Disk) (path : String) : Decidable (d.Blocks path) :=
  decidable_of_iff ((Route.ofText path).toBool = false ∨ d.isDirectory path = true) <| by
    refine or_congr ?_ ?_
    · cases Route.ofText path <;> simp [Except.toBool]
    · unfold isDirectory
      rcases d.find path with _ | _ | _ <;> simp

/-- A file is opened in a folder unless it is blocked. -/
theorem blocks_of_openFile (hname : Plain name) (hplace : d.find path = .ok (.directory place)) {fault : SystemFault}
    (hopen : d.openFile (joinPath path name) = (.error fault, d')) : d.Blocks (joinPath path name) := by
  cases hroute : Route.ofText (joinPath path name) with
  | error => exact .inl fun route heq => by cases hroute.symm.trans heq
  | ok route =>
    simp only [openFile, hroute, locate_joinPath hname hplace hroute, slash_joinPath hname.1 hname.2.1 hroute,
      Bool.false_eq_true, if_false] at hopen
    split at hopen
    · rename_i inside hnode
      exact .inr ⟨inside, by rw [find_joinPath hname hplace hroute, hnode]⟩
    · cases hopen
    · cases hopen

/-- So is it written. -/
theorem blocks_of_write (hname : Plain name) (hplace : d.find path = .ok (.directory place)) {bytes : Bytes}
    {fault : SystemFault} (hwrite : d.write (joinPath path name) bytes = (.error fault, d')) :
    d.Blocks (joinPath path name) := by
  obtain ⟨fault | id, opened, hopen⟩ : ∃ result opened, d.openFile (joinPath path name) = (result, opened) :=
    ⟨_, _, rfl⟩
  · exact blocks_of_openFile hname hplace hopen
  · simp only [write, createFile, hopen] at hwrite
    cases hwrite

/-- A file is renamed in a folder unless its new name is blocked. -/
theorem blocks_of_rename (hname : Plain name) (hother : Plain other) (hplace : d.find path = .ok (.directory place))
    {id : FileId} (hfile : d.find (joinPath path name) = .ok (.file id)) {fault : SystemFault}
    (hrename : d.rename (joinPath path name) (joinPath path other) = (.error fault, d')) :
    d.Blocks (joinPath path other) := by
  cases hroute : Route.ofText (joinPath path other) with
  | error => exact .inl fun route heq => by cases hroute.symm.trans heq
  | ok route =>
    obtain ⟨source, -, -, hsource, -⟩ := find_eq_file_iff.mp hfile
    have hnode := node?_of_find_joinPath hname.1 hname.2.1 hplace hfile
    by_contra hfree
    have hnone : ∀ inside, d.node? place other ≠ some (.directory inside) := fun inside hinside =>
      hfree (.inr ⟨inside, by rw [find_joinPath hother hplace hroute, hinside]⟩)
    unfold rename at hrename
    simp only [hsource, hroute, locate_joinPath hname hplace hsource, locate_joinPath hother hplace hroute, hnode, bind,
      Except.bind] at hrename
    rcases htarget : d.node? place other with _ | inside | replaced
    · cases hrename
    · exact hnone inside htarget
    · cases hrename

/-! ## What stays as it is -/

/-- The path leads where it led, and to the bytes that were there. -/
structure SameAt (path : String) (d d' : Disk) : Prop where
  find : d'.find path = d.find path
  read : d'.read path = d.read path

theorem SameAt.refl (path : String) (d : Disk) : SameAt path d d := ⟨rfl, rfl⟩

theorem SameAt.trans {d'' : Disk} (h : SameAt path d d') (h' : SameAt path d' d'') : SameAt path d d'' :=
  ⟨h'.find.trans h.find, h'.read.trans h.read⟩

theorem SameAt.blocks (h : SameAt path d d') (hblocks : d'.Blocks path) : d.Blocks path :=
  hblocks.imp_right fun ⟨place, hplace⟩ => ⟨place, h.find ▸ hplace⟩

/-- Nothing has changed at a path if it leads to the same, and a file there has its bytes. -/
theorem sameAt_of_find (hfind : d'.find path = d.find path)
    (hcontent : ∀ id, d.find path = .ok (.file id) → d'.content id = d.content id) : SameAt path d d' := by
  refine ⟨hfind, ?_⟩
  rw [read, read, hfind]
  rcases hfound : d.find path with fault | _ | id
  · rfl
  · rfl
  · exact congrArg Except.ok (hcontent id hfound)

theorem sameAt_lock (id : FileId) : SameAt path d (d.lock id) := sameAt_of_find (find_lock ..) fun _ _ => rfl

theorem sameAt_unlock (id : FileId) : SameAt path d (d.unlock id) := sameAt_of_find (find_unlock ..) fun _ _ => rfl

/-- In the folder of a path, a name that is spared leads where it led. -/
theorem find_of_spares (hname : Plain name) (hplace : d.find path = .ok (.directory place))
    (hplace' : d'.find path = .ok (.directory place)) (hspares : d.Spares name d') :
    d'.find (joinPath path name) = d.find (joinPath path name) := by
  cases hroute : Route.ofText (joinPath path name) with
  | error fault =>
    unfold find
    rw [hroute]
    rfl
  | ok route => rw [find_joinPath hname hplace hroute, find_joinPath hname hplace' hroute, hspares place]

section Others

variable (hs : d.Sound) (hname : Plain name) (hother : Plain other) (hne : other ≠ name)
  (hplace : d.find path = .ok (.directory place))
include hs hname hother hne hplace

/-- Opening another file of the folder changes nothing at the name. -/
theorem sameAt_openFile {result : Except SystemFault FileId}
    (hopen : d.openFile (joinPath path other) = (result, d')) : SameAt (joinPath path name) d d' := by
  have hkeeps : d.Keeps "" d' := hs.keeps_openFile hopen
  have hspares := hs.spares_openFile hopen (getLast?_split_joinPath_ne path hother.1 hother.2.1 hne)
  exact sameAt_of_find (find_of_spares hname hplace (hkeeps.toExtends.find_directory hs hplace) hspares)
    fun id hid => content_openFile hopen (hs.lt_of_find hid)

/-- Neither does writing one. -/
theorem sameAt_write {bytes : Bytes} {result : Except SystemFault Unit}
    (hwrite : d.write (joinPath path other) bytes = (result, d')) : SameAt (joinPath path name) d d' := by
  have hkeeps : d.Keeps "" d' := hs.keeps_write hwrite
  have hspares := hs.spares_write hwrite (getLast?_split_joinPath_ne path hother.1 hother.2.1 hne)
  refine sameAt_of_find (find_of_spares hname hplace (hkeeps.toExtends.find_directory hs hplace) hspares)
    fun id hid => hs.content_write hwrite hid ?_
  rw [getLast?_split_joinPath path hname.1 hname.2.1]
  exact getLast?_split_joinPath_ne path hother.1 hother.2.1 hne

/-- Neither does renaming one, to another name. -/
theorem sameAt_rename {target : String} (htarget : Plain target) (hne' : target ≠ name)
    {result : Except SystemFault Unit}
    (hrename : d.rename (joinPath path other) (joinPath path target) = (result, d')) :
    SameAt (joinPath path name) d d' := by
  have hlast : ∀ {changed kept : String}, Plain changed → changed ≠ kept →
      (Route.split (joinPath path changed)).getLast? ≠ some kept := fun hchanged =>
    getLast?_split_joinPath_ne path hchanged.1 hchanged.2.1
  have hkeeps : d.Keeps "" d' := hs.keeps_rename hrename (hlast hother hother.2.1) (hlast htarget htarget.2.1)
  have hspares := hs.spares_rename hrename (hlast hother hne) (hlast htarget hne')
  refine sameAt_of_find (find_of_spares hname hplace (hkeeps.toExtends.find_directory hs hplace) hspares) fun id _ => ?_
  rw [content, content, contents_rename hrename]

end Others

end Disk

end OrderedStore
