import Mathlib.Data.List.TakeWhile
import OrderedStore.Proofs.Directory

/-!
# Making a directory where nothing is

Making the directories of a path leaves files and locks alone, and a directory that is there already. If it succeeds the
path leads to a directory, and if nothing was at the path, and the path does not go up anywhere, this directory is new
and empty.

* `find_directory_iff`: a path leads to a directory if its names can be followed to the end;
* `makeRoute_of_descend`, `contents_makeRoute`, `descend_makeRoute`: directories that are there, and those made;
* `Route.names_eq_parent`: the names of a path behind those of the directory above;
* `entries_makeRoute`: a directory that has been made is empty;
* `find_of_find_joinPath`, `slash_joinPath`: files in the directory of a path.
-/

namespace OrderedStore

namespace Disk

variable {d d' : Disk} {path : String} {names : List String} {place : FolderId}

/-! ## Directories at the end of names -/

/-- What is located at the end of names that can be followed stands for a directory. -/
theorem exists_locate_of_descend (h : d.descend root names = .ok place) :
    d.locate names = .ok (place, none) ∨
      ∃ inside name, d.locate names = .ok (inside, some name) ∧ d.node? inside name = some (.directory place) := by
  by_cases hdots : ∀ name, names.getLast? = some name → name = "." ∨ name = ".."
  · exact .inl (locate_self hdots h)
  · push Not at hdots
    obtain ⟨name, hlast, hdot, hdots⟩ := hdots
    obtain ⟨front, rfl⟩ := List.getLast?_eq_some_iff.mp hlast
    rw [descend_append, bind_eq_ok_iff] at h
    obtain ⟨inside, hinside, hname⟩ := h
    rw [descend_cons, bind_eq_ok_iff] at hname
    obtain ⟨next, hfollow, hnext⟩ := hname
    cases hnext
    obtain ⟨hself, -⟩ | ⟨hup, -⟩ | ⟨-, hcheck, hnode⟩ := follow_eq_ok_iff.mp hfollow
    · exact absurd hself hdot
    · exact absurd hup hdots
    · exact .inr ⟨inside, name, locate_append_singleton hdot hdots hinside hcheck, hnode⟩

theorem find_of_descend {route : Route} (hroute : Route.ofText path = .ok route)
    (h : d.descend root route.names = .ok place) : d.find path = .ok (.directory place) := by
  rw [find_eq hroute]
  obtain hself | ⟨inside, name, hlocate, hnode⟩ := exists_locate_of_descend h
  · rw [hself]
    rfl
  · rw [hlocate]
    show d.nodeAt route.slash (inside, some name) = _
    rw [nodeAt, hnode]

theorem find_directory_iff : d.find path = .ok (.directory place) ↔
    ∃ route, Route.ofText path = .ok route ∧ d.descend root route.names = .ok place := by
  constructor
  · intro h
    obtain ⟨route, -, hroute, -⟩ := exists_locate_of_find h
    exact ⟨route, hroute, Route.ofText_eq_ok hroute ▸ descend_of_find_directory h⟩
  · rintro ⟨route, hroute, h⟩
    exact find_of_descend hroute h

theorem leadsToDirectory_iff : d.leadsToDirectory names = true ↔ ∃ place, d.descend root names = .ok place := by
  constructor
  · intro h
    unfold leadsToDirectory at h
    split at h
    · rename_i place hlocate
      obtain ⟨-, -, hplace⟩ | ⟨_, _, hsome, -⟩ := locate_cases hlocate
      · exact ⟨place, hplace⟩
      · cases hsome
    · rename_i inside name hlocate
      split at h
      · rename_i place hnode
        obtain ⟨hnone, -⟩ | ⟨front, last, hsome, rfl, hdot, hdots, hinside, hcheck⟩ := locate_cases hlocate
        · cases hnone
        · cases hsome
          refine ⟨place, ?_⟩
          rw [descend_append, hinside]
          show d.descend inside [name] = _
          rw [descend_cons, follow_eq_ok_iff.mpr (.inr (.inr ⟨⟨hdot, hdots⟩, hcheck, hnode⟩))]
          rfl
      · cases h
    · cases h
  · rintro ⟨place, h⟩
    unfold leadsToDirectory
    obtain hself | ⟨inside, name, hlocate, hnode⟩ := exists_locate_of_descend h
    · rw [hself]
    · rw [hlocate]
      dsimp only
      rw [hnode]

/-! ## Making directories -/

/-- Making directories has nothing to do with files. -/
theorem contents_makeRoute (d : Disk) (names : List String) : (d.makeRoute names).2.contents = d.contents := by
  have hmake : ∀ {d d' : Disk} {names : List String}, d.makeDirectory names = .ok d' → d'.contents = d.contents := by
    intro d d' names hmake
    obtain ⟨place, name, -, -, rfl⟩ := makeDirectory_cases hmake
    rfl
  fun_induction makeRoute d names with
  | case1 => rfl
  | case2 names hnil made hmade => exact hmake hmade
  | case3 names hnil hmissing fault above habove ih =>
    rw [habove] at ih
    exact ih
  | case4 names hnil hmissing above habove made hmade ih =>
    rw [habove] at ih
    exact (hmake hmade).trans ih
  | case5 names hnil hmissing above habove fault hmade ih =>
    rw [habove] at ih
    exact ih
  | case6 => rfl

theorem Sound.of_makeRoute (h : d.Sound) {result : Except SystemFault Unit} (hmake : d.makeRoute names = (result, d')) :
    d'.Sound := by
  have hkeeps : d.Keeps "" (d.makeRoute names).2 := h.keeps_makeRoute names
  rw [hmake] at hkeeps
  exact hkeeps.sound

/-- A directory that is there is left as it is. -/
theorem makeRoute_of_descend (h : d.descend root names = .ok place) : d.makeRoute names = (.ok (), d) := by
  have hexists : d.makeDirectory names = .error .alreadyExists := by
    unfold makeDirectory
    obtain hself | ⟨inside, name, hlocate, hnode⟩ := exists_locate_of_descend h
    · rw [hself]
      rfl
    · simp only [hlocate, bind, Except.bind, hnode]
  rw [makeRoute]
  split
  · rfl
  · simp only [hexists, leadsToDirectory_iff.mpr ⟨place, h⟩, if_true]

/-- A directory that is made where a name is free is at the end of its names, and empty. -/
theorem Sound.descend_makeDirectory (h : d.Sound) (hmake : d.makeDirectory names = .ok d') :
    ∃ place, d'.descend Disk.root names = .ok place ∧ (d'.folder place).entries = [] := by
  have hkeeps : d.Keeps "" d' := h.keeps_makeDirectory hmake
  obtain ⟨inside, name, hlocate, hfree, rfl⟩ := makeDirectory_cases hmake
  have hlocate' := hkeeps.toExtends.locate h hlocate
  have hnode := node?_addFolder (h.locate_lt hlocate) name inside name
  rw [if_pos ⟨rfl, rfl⟩] at hnode
  obtain ⟨hnone, -⟩ | ⟨front, last, hsome, rfl, hdot, hdots, hinside, hcheck⟩ := locate_cases hlocate'
  · cases hnone
  · cases hsome
    refine ⟨d.folders.size, ?_, ?_⟩
    · rw [descend_append, hinside]
      show (d.addFolder inside name).descend inside [name] = _
      rw [descend_cons, follow_eq_ok_iff.mpr (.inr (.inr ⟨⟨hdot, hdots⟩, hcheck, hnode⟩))]
      rfl
    · rw [folder_addFolder, if_pos rfl]

/-- Directories that have been made are there. -/
theorem Sound.descend_makeRoute (h : d.Sound) (hmake : d.makeRoute names = (.ok (), d')) :
    ∃ place, d'.descend Disk.root names = .ok place := by
  fun_induction makeRoute d names with
  | case1 =>
    cases hmake
    exact ⟨Disk.root, rfl⟩
  | case2 names hnil made hmade =>
    cases hmake
    obtain ⟨place, hplace, -⟩ := h.descend_makeDirectory hmade
    exact ⟨place, hplace⟩
  | case3 => cases hmake
  | case4 names hnil hmissing above habove made hmade ih =>
    cases hmake
    obtain ⟨place, hplace, -⟩ := (h.of_makeRoute habove).descend_makeDirectory hmade
    exact ⟨place, hplace⟩
  | case5 names hnil hmissing above habove fault hmade ih =>
    split at hmake
    · rename_i hleads
      cases hmake
      exact leadsToDirectory_iff.mp hleads
    · cases hmake
  | case6 names hnil fault hmade hfault =>
    split at hmake
    · rename_i hleads
      cases hmake
      exact leadsToDirectory_iff.mp hleads
    · cases hmake

end Disk

/-! ## Directories that were missing -/

namespace Route

/-- Only names that stand for the directory they are in are dropped at the end. -/
theorem exists_dropDots_append (names : List String) :
    ∃ dots, (∀ name ∈ dots, name = ".") ∧ names = dropDots names ++ dots := by
  cases names with
  | nil => exact ⟨[], nofun, rfl⟩
  | cons first rest =>
    refine ⟨(rest.reverse.takeWhile (· = ".")).reverse, fun name hname => ?_, ?_⟩
    · have hdot := List.mem_takeWhile_imp (p := fun name => decide (name = ".")) (List.mem_reverse.mp hname)
      exact of_decide_eq_true hdot
    · rw [dropDots, List.cons_append, ← List.reverse_append, List.takeWhile_append_dropWhile, List.reverse_reverse]

theorem dropDots_ne_nil {names : List String} (h : names ≠ []) : dropDots names ≠ [] := by
  cases names with
  | nil => exact absurd rfl h
  | cons first rest => exact List.cons_ne_nil _ _

/-- Behind the names of the directory above there is one name, besides those that stay where they are. -/
theorem names_eq_parent {names : List String} (h : names ≠ []) : ∃ dots last dots', (∀ name ∈ dots, name = ".") ∧
    (∀ name ∈ dots', name = ".") ∧ names = parent names ++ (dots ++ last :: dots') := by
  obtain ⟨dots', hdots', hnames⟩ := exists_dropDots_append names
  obtain ⟨dots, hdots, hfront⟩ := exists_dropDots_append (dropDots names).dropLast
  refine ⟨dots, (dropDots names).getLast (dropDots_ne_nil h), dots', hdots, hdots', ?_⟩
  calc names
    _ = ((dropDots names).dropLast ++ [(dropDots names).getLast (dropDots_ne_nil h)]) ++ dots' := by
      rw [List.dropLast_append_getLast]
      exact hnames
    _ = _ := by
      conv_lhs => rw [hfront]
      simp only [parent, List.append_assoc, List.singleton_append]

end Route

namespace Disk

variable {d d' : Disk} {path : String} {names : List String} {place : FolderId}

theorem descend_dots {dots : List String} (hdots : ∀ name ∈ dots, name = ".") (d : Disk) (place : FolderId) :
    d.descend place dots = .ok place := by
  induction dots with
  | nil => rfl
  | cons name dots ih =>
    rw [descend, if_pos (hdots name List.mem_cons_self)]
    exact ih fun name hname => hdots name (List.mem_cons_of_mem _ hname)

/-- Names are followed through the directory above. -/
theorem exists_descend_parent (h : names ≠ []) : Route.parent names ⊆ names ∧ ∃ last ∈ names,
    ∀ d : Disk, d.descend root names = d.descend root (Route.parent names) >>= fun above => d.follow above last := by
  obtain ⟨dots, last, dots', hdots, hdots', hnames⟩ := Route.names_eq_parent h
  have hlast : last ∈ names := by
    rw [hnames]
    simp
  refine ⟨fun name hname => ?_, last, hlast, fun d => ?_⟩
  · rw [hnames]
    exact List.mem_append_left _ hname
  conv_lhs => rw [hnames, descend_append]
  refine congrArg (d.descend root (Route.parent names) >>= ·) (funext fun above => ?_)
  rw [descend_append, descend_dots hdots]
  show d.descend above (last :: dots') = _
  rw [descend_cons]
  cases d.follow above last with
  | error fault => rfl
  | ok next => exact descend_dots hdots' d next

/-- If a directory that was missing has been made, there is nothing in it. By induction on the names: what is at the end
of them now is new, or stands in the directory above; and this is new and empty, or everything is as it was. -/
theorem Sound.entries_makeRoute (h : d.Sound) (hup : ".." ∉ names)
    (hmissing : ∀ place, d.descend Disk.root names ≠ .ok place) (hmake : d.makeRoute names = (.ok (), d'))
    (hplace : d'.descend Disk.root names = .ok place) : (d'.folder place).entries = [] := by
  fun_induction makeRoute d names generalizing d' place with
  | case1 => exact absurd rfl (hmissing Disk.root)
  | case2 names hnil made hmade =>
    cases hmake
    obtain ⟨new, hnew, hempty⟩ := h.descend_makeDirectory hmade
    cases hnew.symm.trans hplace
    exact hempty
  | case3 => cases hmake
  | case4 names hnil _ above habove made hmade ih =>
    cases hmake
    obtain ⟨new, hnew, hempty⟩ := (h.of_makeRoute habove).descend_makeDirectory hmade
    cases hnew.symm.trans hplace
    exact hempty
  | case5 names hnil _ above habove fault hmade ih =>
    obtain rfl : above = d' := by
      split at hmake <;> cases hmake
      rfl
    obtain ⟨hsubset, last, hlast, hdescend⟩ := exists_descend_parent hnil
    rw [hdescend, bind_eq_ok_iff] at hplace
    obtain ⟨inside, hinside, hfollow⟩ := hplace
    by_cases hparent : ∃ inside, d.descend Disk.root (Route.parent names) = .ok inside
    · -- nothing has been made above, so the directory was not missing
      obtain ⟨inside', hinside'⟩ := hparent
      cases (makeRoute_of_descend hinside').symm.trans habove
      exact absurd ((hdescend d).trans (bind_eq_ok_iff.mpr ⟨inside, hinside, hfollow⟩)) (hmissing place)
    · have hempty := ih (fun hmem => hup (hsubset hmem)) (not_exists.mp hparent) habove hinside
      obtain ⟨-, rfl⟩ | ⟨hdots, -⟩ | ⟨-, -, hnode⟩ := follow_eq_ok_iff.mp hfollow
      · exact hempty
      · exact absurd (hdots ▸ hlast) hup
      · rw [node?, hempty] at hnode
        cases hnode
  | case6 names hnil fault hmade hfault =>
    obtain ⟨hleads, rfl⟩ : d.leadsToDirectory names = true ∧ d = d' := by
      split at hmake
      · rename_i hleads
        cases hmake
        exact ⟨hleads, rfl⟩
      · cases hmake
    exact absurd hplace (hmissing place)

/-! ## The directories of a path -/

theorem makeDirectories_of_find (h : d.find path = .ok (.directory place)) : d.makeDirectories path = (.ok (), d) := by
  obtain ⟨route, hroute, hplace⟩ := find_directory_iff.mp h
  unfold makeDirectories
  split
  · rfl
  · rw [hroute]
    exact makeRoute_of_descend hplace

theorem contents_makeDirectories {result : Except SystemFault Unit} (hmake : d.makeDirectories path = (result, d')) :
    d'.contents = d.contents := by
  unfold makeDirectories at hmake
  split at hmake
  · cases hmake
    rfl
  · split at hmake
    · cases hmake
      rfl
    · rename_i route hroute
      have hcontents := contents_makeRoute d route.names
      rwa [hmake] at hcontents

/-- Behind the text of a path there is a directory when its directories have been made. -/
theorem Sound.find_makeDirectories (h : d.Sound) (hpath : path ≠ "") (hmake : d.makeDirectories path = (.ok (), d')) :
    ∃ place, d'.find path = .ok (.directory place) := by
  unfold makeDirectories at hmake
  rw [if_neg hpath] at hmake
  split at hmake
  · cases hmake
  · rename_i route hroute
    obtain ⟨place, hplace⟩ := h.descend_makeRoute hmake
    exact ⟨place, find_directory_iff.mpr ⟨route, hroute, hplace⟩⟩

/-- If nothing was at the path, and the path does not go up, there is nothing in this directory. -/
theorem Sound.entries_makeDirectories (h : d.Sound) (hup : ".." ∉ Route.split path)
    (hmissing : ∀ node, d.find path ≠ .ok node) (hmake : d.makeDirectories path = (.ok (), d'))
    (hplace : d'.find path = .ok (.directory place)) : (d'.folder place).entries = [] := by
  obtain ⟨route, hroute, hdescend⟩ := find_directory_iff.mp hplace
  unfold makeDirectories at hmake
  split at hmake
  · cases hmake
    exact absurd hplace (hmissing _)
  · rw [hroute] at hmake
    refine h.entries_makeRoute (Route.ofText_eq_ok hroute ▸ hup) (fun there hthere => ?_) hmake hdescend
    exact hmissing _ (find_directory_iff.mpr ⟨route, hroute, hthere⟩)

end Disk

/-! ## Files in the directory of a path -/

theorem exists_joinPath_eq (path name : String) : ∃ lead, joinPath path name = path ++ lead ++ name := by
  unfold joinPath
  split
  · exact ⟨"", by rw [String.append_empty]⟩
  · exact ⟨"", by rw [String.append_empty]⟩
  · exact ⟨"/", rfl⟩

/-- The front of a text that the system accepts is accepted too. -/
theorem Route.exists_ofText_of_append {path suffix : String} {route : Route} (hpath : path ≠ "")
    (h : ofText (path ++ suffix) = .ok route) : ∃ route', ofText path = .ok route' := by
  unfold ofText at h ⊢
  rw [if_neg hpath]
  split at h
  · cases h
  · split at h
    · cases h
    · rename_i hnul
      split at h
      · cases h
      · rename_i hlong
        have hnul' : ¬ path.toList.contains '\x00' = true := by
          rw [String.toList_append] at hnul
          exact fun hmem => hnul (by simp_all)
        have hlong' : ¬ maxPath ≤ path.utf8ByteSize := by
          rw [String.utf8ByteSize_append] at hlong
          omega
        rw [if_neg hnul', if_neg hlong']
        exact ⟨_, rfl⟩

/-- A path that ends in a name does not end in a slash. -/
theorem slash_joinPath {path name : String} (hslash : '/' ∉ name.toList) (hname : name ≠ "") {route : Route}
    (h : Route.ofText (joinPath path name) = .ok route) : route.slash = false := by
  obtain ⟨lead, hjoin⟩ := exists_joinPath_eq path name
  have hlast : (joinPath path name).toList.getLast? ≠ some '/' := by
    have hne : name.toList ≠ [] := by simpa using hname
    rw [hjoin, String.toList_append, List.getLast?_append_of_ne_nil _ hne]
    exact fun heq => hslash (List.mem_of_getLast? heq)
  unfold Route.ofText at h
  split at h
  · cases h
  · split at h
    · cases h
    · split at h
      · cases h
      · cases h
        exact decide_eq_false hlast

/-- A file below a path is in a directory at the path. -/
theorem Disk.find_of_find_joinPath {d : Disk} {path name : String} (hslash : '/' ∉ name.toList) (hname : name ≠ "")
    (hpath : path ≠ "") {id : FileId} (h : d.find (joinPath path name) = .ok (.file id)) :
    ∃ place, d.find path = .ok (.directory place) := by
  obtain ⟨route, place, last, hroute, -, hlocate, -⟩ := find_eq_file_iff.mp h
  obtain ⟨lead, hjoin⟩ := exists_joinPath_eq path name
  obtain ⟨route', hroute'⟩ : ∃ route', Route.ofText path = .ok route' := by
    rw [hjoin, String.append_assoc] at hroute
    exact Route.exists_ofText_of_append hpath hroute
  rw [Route.ofText_eq_ok hroute, Route.split_joinPath path hslash hname] at hlocate
  obtain ⟨hnone, -⟩ | ⟨front, other, hsome, hnames, -, -, hdescend, -⟩ := locate_cases hlocate
  · cases hnone
  · obtain ⟨rfl, -⟩ := List.append_inj' hnames rfl
    exact ⟨place, find_directory_iff.mpr ⟨route', hroute', Route.ofText_eq_ok hroute' ▸ hdescend⟩⟩

end OrderedStore
