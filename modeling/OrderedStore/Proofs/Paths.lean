import OrderedStore.Disk
import OrderedStore.Proofs.Payload

/-!
# Where paths lead

The names of a path, and what a disk has under them. A disk is sound if its folders and files are where its names say,
and no two names stand for one file. A path that leads somewhere leads there still when the folders have stayed where
they were, and the files of its last name.

* `Route.split_joinPath`: the names of a path below another;
* `follow`, `descend_append`, `locate_cases`: following names one by one;
* `Disk.Sound`, `Disk.Extends`, `Disk.Keeps`: sound disks; what is kept of all folders, and of the files of one name;
* `find_eq_file_iff`, `descend_of_find_directory`: what a path leads to; `Extends.find_directory`, `Keeps.find_file`:
  it still does.
-/

namespace OrderedStore

/-! ## Routes -/

namespace Route

/-- The names of a path text. -/
def split (path : String) : List String := ((pieces path.toList).filter (!·.isEmpty)).map String.ofList

theorem ofText_eq_ok {path : String} {route : Route} (h : ofText path = .ok route) : route.names = split path := by
  unfold ofText at h
  split at h
  · cases h
  · split at h
    · cases h
    · split at h
      · cases h
      · cases h
        rfl

theorem pieces_ne_nil (cs : List Char) : pieces cs ≠ [] := by
  cases cs with
  | nil => exact List.cons_ne_nil _ _
  | cons c cs =>
    unfold pieces
    split
    · exact List.cons_ne_nil _ _
    · split <;> exact List.cons_ne_nil _ _

theorem pieces_of_not_mem {cs : List Char} (h : '/' ∉ cs) : pieces cs = [cs] := by
  induction cs with
  | nil => rfl
  | cons c cs ih =>
    have hc : c ≠ '/' := fun heq => h (heq ▸ List.mem_cons_self)
    rw [pieces, if_neg hc, ih (List.not_mem_of_not_mem_cons h)]

theorem pieces_append_slash (front back : List Char) : pieces (front ++ '/' :: back) = pieces front ++ pieces back := by
  induction front with
  | nil => rfl
  | cons c front ih =>
    rw [List.cons_append, pieces, pieces, ih]
    split
    · rfl
    · obtain ⟨piece, rest, hfront⟩ := List.exists_cons_of_ne_nil (pieces_ne_nil front)
      rw [hfront]
      rfl

/-- A name behind a slash is the last name. -/
theorem split_append {front : List Char} {path name : String} (hslash : '/' ∉ name.toList) (hname : name ≠ "")
    (hpath : path.toList = front ++ '/' :: name.toList) : split path = split (String.ofList front) ++ [name] := by
  rw [split, split, hpath, pieces_append_slash, pieces_of_not_mem hslash, List.filter_append, List.map_append,
    String.toList_ofList]
  simp [hname]

theorem split_joinPath (path : String) {name : String} (hslash : '/' ∉ name.toList) (hname : name ≠ "") :
    split (joinPath path name) = split path ++ [name] := by
  unfold joinPath
  split
  · rename_i hnone
    have hempty : path = "" := by simpa using hnone
    have hchars : name.toList.isEmpty = false := by simpa [List.isEmpty_iff] using hname
    subst hempty
    rw [split, String.toList_append, pieces_of_not_mem (by simpa using hslash)]
    simp [split, pieces, hname]
  · rename_i hlast
    obtain ⟨front, hfront⟩ := List.getLast?_eq_some_iff.mp hlast
    have hpath : split path = split (String.ofList front) := by
      rw [split, split, hfront, show front ++ ['/'] = front ++ '/' :: [] from rfl, pieces_append_slash,
        List.filter_append, String.toList_ofList]
      simp [pieces]
    rw [hpath]
    exact split_append hslash hname (by simp [hfront])
  · have hfront : (path ++ "/" ++ name).toList = path.toList ++ '/' :: name.toList := by simp
    rw [split_append hslash hname hfront, String.ofList_toList]

end Route

namespace Disk

variable {d d' : Disk}

/-! ## Names in folders -/

theorem folder_edit (d : Disk) (place q : FolderId) (change : List (String × Node) → List (String × Node)) :
    (d.edit place change).folder q =
      if place = q ∧ q < d.folders.size then { d.folder q with entries := change (d.folder q).entries }
      else d.folder q := by
  simp only [edit, folder, Array.getD_eq_getD_getElem?, Array.getElem?_modify]
  by_cases hplace : place = q
  · subst hplace
    by_cases hlt : place < d.folders.size
    · simp [hlt]
    · simp [hlt]
  · simp [hplace]

theorem above_edit (d : Disk) (place q : FolderId) (change : List (String × Node) → List (String × Node)) :
    ((d.edit place change).folder q).above = (d.folder q).above := by
  rw [folder_edit]
  split <;> rfl

theorem lt_of_node? {place : FolderId} {name : String} {node : Node} (h : d.node? place name = some node) :
    place < d.folders.size := by
  refine Nat.lt_of_not_le fun hge => ?_
  have hnone : d.folders[place]? = none := Array.getElem?_eq_none hge
  have hfolder : d.folder place = {} := by rw [folder, Array.getD_eq_getD_getElem?, hnone, Option.getD_none]
  rw [node?, hfolder] at h
  cases h

theorem node?_setNode {place : FolderId} (hplace : place < d.folders.size) (name : String) (node : Node) (q : FolderId)
    (m : String) : (d.setNode place name node).node? q m = if q = place ∧ m = name then some node else d.node? q m := by
  simp only [node?, setNode, folder_edit]
  by_cases hq : place = q
  · subst hq
    by_cases hm : name = m
    · simp [hplace, hm]
    · have hother : ∀ entry : String × Node, (entry.1 ≠ name ∧ entry.1 = m) = (entry.1 = m) := by
        intro entry
        exact propext ⟨And.right, fun heq => ⟨fun hname => hm (hname.symm.trans heq), heq⟩⟩
      simp [hplace, hm, Ne.symm hm, List.find?_filter, hother]
  · simp [hq, Ne.symm hq]

theorem node?_dropNode (d : Disk) (place : FolderId) (name : String) (q : FolderId) (m : String) :
    (d.dropNode place name).node? q m = if q = place ∧ m = name then none else d.node? q m := by
  by_cases hlt : q < d.folders.size
  · simp only [node?, dropNode, folder_edit, hlt, and_true]
    by_cases hq : place = q
    · subst hq
      by_cases hm : name = m
      · simp [hm, List.find?_filter]
      · have hother : ∀ entry : String × Node, (entry.1 ≠ name ∧ entry.1 = m) = (entry.1 = m) := by
          intro entry
          exact propext ⟨And.right, fun heq => ⟨fun hname => hm (hname.symm.trans heq), heq⟩⟩
        simp [Ne.symm hm, List.find?_filter, hother]
    · simp [hq, Ne.symm hq]
  · have hnone : ∀ {e : Disk}, e.folders.size = d.folders.size → e.node? q m = none := by
      intro e hsize
      refine Option.eq_none_iff_forall_ne_some.mpr fun node hnode => hlt ?_
      rw [← hsize]
      exact lt_of_node? hnode
    rw [hnone rfl, hnone (Array.size_modify ..), ite_self]

/-! ## Following names -/

/-- Follows one name from a folder. -/
def follow (d : Disk) (place : FolderId) (name : String) : Except SystemFault FolderId :=
  if name = "." then .ok place
  else if name = ".." then .ok (d.folder place).above
  else do
    checkName name
    match d.node? place name with
    | none => .error .notFound
    | some (.file _) => .error .notADirectory
    | some (.directory id) => .ok id

theorem descend_cons (d : Disk) (place : FolderId) (name : String) (names : List String) :
    d.descend place (name :: names) = d.follow place name >>= fun next => d.descend next names := by
  rw [descend, follow]
  split
  · rfl
  · split
    · rfl
    · cases checkName name with
      | error fault => rfl
      | ok =>
        show (match d.node? place name with | none => _ | some (.file _) => _ | some (.directory id) => _) = _
        rcases d.node? place name with _ | _ | _ <;> rfl

theorem descend_append (d : Disk) (place : FolderId) (front back : List String) :
    d.descend place (front ++ back) = d.descend place front >>= fun next => d.descend next back := by
  induction front generalizing place with
  | nil => rfl
  | cons name front ih =>
    rw [List.cons_append, descend_cons, descend_cons]
    cases d.follow place name with
    | error fault => rfl
    | ok next => exact ih next

/-- A name leads to the folder itself, to the one above, or to the one it stands for. -/
theorem follow_eq_ok_iff {place q : FolderId} {name : String} : d.follow place name = .ok q ↔
    name = "." ∧ place = q ∨ name = ".." ∧ (d.folder place).above = q ∨
      (name ≠ "." ∧ name ≠ "..") ∧ checkName name = .ok () ∧ d.node? place name = some (.directory q) := by
  unfold follow
  by_cases hdot : name = "."
  · simp [hdot]
  · by_cases hdots : name = ".."
    · simp [hdots]
    · have hunit : (∃ u, checkName name = .ok u) ↔ checkName name = .ok () := ⟨fun ⟨_, h⟩ => h, fun h => ⟨(), h⟩⟩
      rw [if_neg hdot, if_neg hdots, bind_eq_ok_iff]
      rcases d.node? place name with _ | _ | _ <;> simp [hdot, hdots, hunit]

/-! ## What is kept -/

/-- Folders and files are where their names say, and no two names stand for one file. -/
structure Sound (d : Disk) : Prop where
  root : root < d.folders.size
  above (place : FolderId) : (d.folder place).above < d.folders.size
  directories {place id : FolderId} {name : String} : d.node? place name = some (.directory id) → id < d.folders.size
  files {place : FolderId} {name : String} {id : FileId} :
    d.node? place name = some (.file id) → id < d.contents.length
  alone {place place' : FolderId} {name name' : String} {id : FileId} : d.node? place name = some (.file id) →
    d.node? place' name' = some (.file id) → place = place' ∧ name = name'

/-- Every folder has stayed where it was. -/
structure Extends (d d' : Disk) : Prop where
  size : d.folders.size ≤ d'.folders.size
  above {place : FolderId} : place < d.folders.size → (d'.folder place).above = (d.folder place).above
  directories {place id : FolderId} {name : String} : d.node? place name = some (.directory id) →
    d'.node? place name = some (.directory id)

/-- Besides the folders, the files named `kept` have stayed where they were, and all locks are as they were. -/
structure Keeps (kept : String) (d d' : Disk) : Prop extends Extends d d' where
  sound : d'.Sound
  files {place : FolderId} {id : FileId} : d.node? place kept = some (.file id) → d'.node? place kept = some (.file id)
  locks : d'.locks = d.locks

variable {kept : String}

theorem Extends.refl (d : Disk) : d.Extends d where
  size := Nat.le_refl _
  above _ := rfl
  directories hnode := hnode

theorem Extends.trans {d'' : Disk} (h : d.Extends d') (h' : d'.Extends d'') : d.Extends d'' where
  size := Nat.le_trans h.size h'.size
  above hplace := (h'.above (Nat.lt_of_lt_of_le hplace h.size)).trans (h.above hplace)
  directories hnode := h'.directories (h.directories hnode)

theorem Sound.keeps_refl (h : d.Sound) : d.Keeps kept d where
  toExtends := .refl d
  sound := h
  files hnode := hnode
  locks := rfl

theorem Keeps.trans {d'' : Disk} (h : d.Keeps kept d') (h' : d'.Keeps kept d'') : d.Keeps kept d'' where
  toExtends := h.toExtends.trans h'.toExtends
  sound := h'.sound
  files hnode := h'.files (h.files hnode)
  locks := h'.locks.trans h.locks

/-- An empty disk is sound. -/
theorem sound_empty : Sound {} := by
  have hfolder : ∀ place, folder {} place = {} := by
    intro place
    cases place <;> rfl
  have hnone : ∀ {place name node}, node? {} place name = some node → False := by
    intro place name node h
    rw [node?, hfolder] at h
    cases h
  exact {
    root := Nat.zero_lt_one
    above := fun place => (hfolder place).symm ▸ Nat.zero_lt_one
    directories := fun h => (hnone h).elim
    files := fun h => (hnone h).elim
    alone := fun h => (hnone h).elim }

/-! ## Where paths lead -/

theorem Sound.follow_lt (h : d.Sound) {place q : FolderId} {name : String} (hplace : place < d.folders.size)
    (hq : d.follow place name = .ok q) : q < d.folders.size := by
  obtain ⟨-, rfl⟩ | ⟨-, rfl⟩ | ⟨-, -, hnode⟩ := follow_eq_ok_iff.mp hq
  · exact hplace
  · exact h.above place
  · exact h.directories hnode

theorem Extends.follow (h : d.Extends d') {place q : FolderId} {name : String} (hplace : place < d.folders.size)
    (hq : d.follow place name = .ok q) : d'.follow place name = .ok q := by
  rw [follow_eq_ok_iff] at hq ⊢
  obtain hself | ⟨hdots, habove⟩ | ⟨hdots, hcheck, hnode⟩ := hq
  · exact .inl hself
  · exact .inr (.inl ⟨hdots, (h.above hplace).trans habove⟩)
  · exact .inr (.inr ⟨hdots, hcheck, h.directories hnode⟩)

/-- Names that led to a folder lead there still. -/
theorem Extends.descend (hs : d.Sound) (h : d.Extends d') {names : List String} {place q : FolderId}
    (hplace : place < d.folders.size) (hq : d.descend place names = .ok q) :
    d'.descend place names = .ok q ∧ q < d.folders.size := by
  induction names generalizing place with
  | nil =>
    cases hq
    exact ⟨rfl, hplace⟩
  | cons name names ih =>
    rw [descend_cons, bind_eq_ok_iff] at hq
    obtain ⟨next, hnext, hrest⟩ := hq
    have ⟨hdescend, hlt⟩ := ih (hs.follow_lt hplace hnext) hrest
    rw [descend_cons, bind_eq_ok_iff]
    exact ⟨⟨next, h.follow hplace hnext, hdescend⟩, hlt⟩

/-- Names that can be located lead to the folder itself, or to a folder and a last name in it. -/
theorem locate_cases {names : List String} {r : FolderId × Option String} (h : d.locate names = .ok r) :
    r.2 = none ∧ (∀ name, names.getLast? = some name → name = "." ∨ name = "..") ∧ d.descend root names = .ok r.1 ∨
      ∃ front name, r.2 = some name ∧ names = front ++ [name] ∧ name ≠ "." ∧ name ≠ ".." ∧
        d.descend root front = .ok r.1 ∧ checkName name = .ok () := by
  unfold locate at h
  split at h
  · rename_i hlast
    cases h
    rw [List.getLast?_eq_none_iff.mp hlast]
    exact .inl ⟨rfl, fun name hname => (by cases hname), rfl⟩
  · rename_i name hlast
    obtain ⟨front, rfl⟩ := List.getLast?_eq_some_iff.mp hlast
    split at h
    · rename_i hdots
      obtain ⟨place, hplace, hr⟩ := bind_eq_ok_iff.mp h
      cases hr
      refine .inl ⟨rfl, fun last heq => ?_, hplace⟩
      cases hlast.symm.trans heq
      simpa using hdots
    · rename_i hdots
      rw [List.dropLast_concat] at h
      obtain ⟨place, hplace, hrest⟩ := bind_eq_ok_iff.mp h
      obtain ⟨⟨⟩, hcheck, hr⟩ := bind_eq_ok_iff.mp hrest
      cases hr
      simp only [Bool.or_eq_true, decide_eq_true_eq, not_or] at hdots
      exact .inr ⟨front, name, rfl, rfl, hdots.1, hdots.2, hplace, hcheck⟩

/-- A last name that has been located is the last of the names. -/
theorem getLast?_of_locate {names : List String} {place : FolderId} {name : String}
    (h : d.locate names = .ok (place, some name)) : names.getLast? = some name := by
  rcases locate_cases h with ⟨hnone, -⟩ | ⟨front, last, hsome, rfl, -⟩
  · cases hnone
  · cases hsome
    exact List.getLast?_concat

/-- Names that stand for a folder by themselves are located in it. -/
theorem locate_self {names : List String} (hdots : ∀ name, names.getLast? = some name → name = "." ∨ name = "..")
    {place : FolderId} (hplace : d.descend root names = .ok place) : d.locate names = .ok (place, none) := by
  unfold locate
  split
  · rename_i hlast
    rw [List.getLast?_eq_none_iff.mp hlast] at hplace
    cases hplace
    rfl
  · rename_i name hlast
    rw [if_pos (by simpa using hdots name hlast), hplace]
    rfl

/-- A last name that does not is located where the names before it lead. -/
theorem locate_append_singleton {front : List String} {name : String} (hdot : name ≠ ".") (hdots : name ≠ "..")
    {place : FolderId} (hplace : d.descend root front = .ok place) (hcheck : checkName name = .ok ()) :
    d.locate (front ++ [name]) = .ok (place, some name) := by
  unfold locate
  rw [List.getLast?_concat]
  simp only [hdot, hdots, decide_false, Bool.or_self, Bool.false_eq_true, if_false, List.dropLast_concat, hplace]
  show (checkName name >>= fun _ => _) = _
  rw [hcheck]
  rfl

theorem Sound.locate_lt (h : d.Sound) {names : List String} {place : FolderId} {name : Option String}
    (hr : d.locate names = .ok (place, name)) : place < d.folders.size := by
  rcases locate_cases hr with ⟨-, -, hplace⟩ | ⟨front, last, -, -, -, -, hplace, -⟩
  · exact ((Extends.refl d).descend h h.root hplace).2
  · exact ((Extends.refl d).descend h h.root hplace).2

/-- Names that could be located are where they were. -/
theorem Extends.locate (hs : d.Sound) (h : d.Extends d') {names : List String} {r : FolderId × Option String}
    (hr : d.locate names = .ok r) : d'.locate names = .ok r := by
  obtain ⟨place, name⟩ := r
  rcases locate_cases hr with ⟨hnone, hlast, hplace⟩ | ⟨front, last, hsome, rfl, hdot, hdots, hplace, hcheck⟩
  · obtain rfl : name = none := hnone
    exact locate_self hlast (h.descend hs hs.root hplace).1
  · obtain rfl : name = some last := hsome
    exact locate_append_singleton hdot hdots (h.descend hs hs.root hplace).1 hcheck

/-- What is at a place: the folder itself, or what a name in it stands for. -/
def nodeAt (d : Disk) (slash : Bool) : FolderId × Option String → Except SystemFault Node
  | (place, none) => .ok (.directory place)
  | (place, some name) =>
    match d.node? place name with
    | none => .error .notFound
    | some (.directory id) => .ok (.directory id)
    | some (.file id) => if slash then .error .notADirectory else .ok (.file id)

theorem find_eq {path : String} {route : Route} (hroute : Route.ofText path = .ok route) :
    d.find path = d.locate route.names >>= d.nodeAt route.slash := by
  unfold find
  rw [hroute]
  rfl

/-- What is found has been located. -/
theorem exists_locate_of_find {path : String} {node : Node} (h : d.find path = .ok node) :
    ∃ route r, Route.ofText path = .ok route ∧ d.locate route.names = .ok r ∧ d.nodeAt route.slash r = .ok node := by
  obtain ⟨route, hroute, -⟩ := bind_eq_ok_iff.mp h
  rw [find_eq hroute, bind_eq_ok_iff] at h
  obtain ⟨r, hlocate, hnode⟩ := h
  exact ⟨route, r, hroute, hlocate, hnode⟩

/-- What is at a place, by the kinds of places. -/
theorem nodeAt_cases {slash : Bool} {r : FolderId × Option String} {node : Node} (h : d.nodeAt slash r = .ok node) :
    r.2 = none ∧ node = .directory r.1 ∨
      ∃ name, r.2 = some name ∧ d.node? r.1 name = some node ∧ (slash = true → ∃ id, node = .directory id) := by
  obtain ⟨place, name⟩ := r
  cases name with
  | none =>
    cases h
    exact .inl ⟨rfl, rfl⟩
  | some name =>
    refine .inr ⟨name, rfl, ?_⟩
    simp only [nodeAt] at h
    split at h
    · cases h
    · rename_i id hnode
      cases h
      exact ⟨hnode, fun _ => ⟨id, rfl⟩⟩
    · rename_i id hnode
      split at h
      · cases h
      · rename_i hslash
        cases h
        exact ⟨hnode, fun htrue => absurd htrue hslash⟩

/-- A path leads to a file if its last name stands for the file. -/
theorem find_eq_file_iff {path : String} {id : FileId} : d.find path = .ok (.file id) ↔
    ∃ route place name, Route.ofText path = .ok route ∧ route.slash = false ∧
      d.locate route.names = .ok (place, some name) ∧ d.node? place name = some (.file id) := by
  constructor
  · intro h
    obtain ⟨route, ⟨place, last⟩, hroute, hlocate, hnode⟩ := exists_locate_of_find h
    obtain ⟨-, hdirectory⟩ | ⟨name, rfl, hnode, hslash⟩ := nodeAt_cases hnode
    · cases hdirectory
    · refine ⟨route, place, name, hroute, ?_, hlocate, hnode⟩
      cases hs : route.slash with
      | false => rfl
      | true =>
        obtain ⟨id, hid⟩ := hslash hs
        cases hid
  · rintro ⟨route, place, name, hroute, hslash, hlocate, hnode⟩
    rw [find_eq hroute, hlocate]
    show d.nodeAt route.slash (place, some name) = _
    rw [nodeAt, hnode, hslash]
    rfl

/-- Names behind which a directory is found lead to its folder. -/
theorem descend_of_find_directory {path : String} {place : FolderId} (h : d.find path = .ok (.directory place)) :
    d.descend root (Route.split path) = .ok place := by
  obtain ⟨route, r, hroute, hlocate, hnode⟩ := exists_locate_of_find h
  rw [← Route.ofText_eq_ok hroute]
  rcases locate_cases hlocate with ⟨hnone, -, hplace⟩ | ⟨front, last, hsome, hnames, hdot, hdots, hplace, hcheck⟩
  · obtain ⟨-, heq⟩ | ⟨name, hname, -⟩ := nodeAt_cases hnode
    · cases heq
      exact hplace
    · cases hnone.symm.trans hname
  · obtain ⟨hnone, -⟩ | ⟨name, hname, hfound, -⟩ := nodeAt_cases hnode
    · cases hsome.symm.trans hnone
    · cases hsome.symm.trans hname
      rw [hnames, descend_append, hplace]
      show d.descend r.1 [last] = _
      rw [descend_cons, follow, if_neg hdot, if_neg hdots, hcheck, hfound]
      rfl

theorem Extends.find_directory (hs : d.Sound) (h : d.Extends d') {path : String} {place : FolderId}
    (hfind : d.find path = .ok (.directory place)) : d'.find path = .ok (.directory place) := by
  obtain ⟨route, ⟨inside, last⟩, hroute, hlocate, hnode⟩ := exists_locate_of_find hfind
  rw [find_eq hroute, h.locate hs hlocate]
  show d'.nodeAt route.slash (inside, last) = _
  obtain ⟨rfl, heq⟩ | ⟨name, rfl, hfound, -⟩ := nodeAt_cases hnode
  · cases heq
    rfl
  · rw [nodeAt, h.directories hfound]

theorem Keeps.find_file (hs : d.Sound) (h : d.Keeps kept d') {path : String}
    (hlast : (Route.split path).getLast? = some kept) {id : FileId} (hfind : d.find path = .ok (.file id)) :
    d'.find path = .ok (.file id) := by
  obtain ⟨route, place, name, hroute, hslash, hlocate, hnode⟩ := find_eq_file_iff.mp hfind
  refine find_eq_file_iff.mpr ⟨route, place, name, hroute, hslash, h.locate hs hlocate, ?_⟩
  rw [← Route.ofText_eq_ok hroute, getLast?_of_locate hlocate] at hlast
  cases hlast
  exact h.files hnode

/-- A change that keeps the files of every name keeps all files. -/
theorem find_file_of_keeps (hs : d.Sound) (h : ∀ kept, d.Keeps kept d') {path : String} {id : FileId}
    (hfind : d.find path = .ok (.file id)) : d'.find path = .ok (.file id) := by
  obtain ⟨route, place, name, hroute, -, hlocate, -⟩ := find_eq_file_iff.mp hfind
  have hlast : (Route.split path).getLast? = some name := Route.ofText_eq_ok hroute ▸ getLast?_of_locate hlocate
  exact (h name).find_file hs hlast hfind

/-- The file below a directory is that of its name in the folder. -/
theorem node?_of_find_joinPath {path name : String} (hslash : '/' ∉ name.toList) (hname : name ≠ "")
    {place : FolderId} (hplace : d.find path = .ok (.directory place)) {id : FileId}
    (hfind : d.find (joinPath path name) = .ok (.file id)) : d.node? place name = some (.file id) := by
  obtain ⟨route, inside, last, hroute, -, hlocate, hnode⟩ := find_eq_file_iff.mp hfind
  rw [Route.ofText_eq_ok hroute, Route.split_joinPath path hslash hname] at hlocate
  rcases locate_cases hlocate with ⟨hnone, -⟩ | ⟨front, other, hsome, hnames, -, -, hdescend, -⟩
  · cases hnone
  · cases hsome
    obtain ⟨rfl, hlast⟩ := List.append_inj' hnames rfl
    cases hlast
    cases hdescend.symm.trans (descend_of_find_directory hplace)
    exact hnode

/-- Paths lead where the folders say. -/
theorem descend_of_folders (hfolders : d'.folders = d.folders) (place : FolderId) (names : List String) :
    d'.descend place names = d.descend place names := by
  induction names generalizing place with
  | nil => rfl
  | cons name names ih => simp only [descend, node?, folder, hfolders, ih]

theorem find_of_folders (hfolders : d'.folders = d.folders) (path : String) : d'.find path = d.find path := by
  simp only [find, locate, node?, folder, hfolders, descend_of_folders hfolders]

@[simp] theorem find_setContent (d : Disk) (id : FileId) (bytes : Bytes) (path : String) :
    (d.setContent id bytes).find path = d.find path := find_of_folders (by rfl) path

@[simp] theorem find_lock (d : Disk) (id : FileId) (path : String) : (d.lock id).find path = d.find path :=
  find_of_folders (by rfl) path

@[simp] theorem find_unlock (d : Disk) (id : FileId) (path : String) : (d.unlock id).find path = d.find path :=
  find_of_folders (by rfl) path

end Disk

end OrderedStore
