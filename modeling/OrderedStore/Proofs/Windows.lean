import OrderedStore.Command
import OrderedStore.Proofs.Listing

/-!
# Scans show whole windows

What the scan command shows is its window: no entry is lost, none is shown twice or out of order, and the walk ends.

* `Window.Admits`, `Window.Before`: which entries a window has, and in which order; `mem_span_iff`, `pairwise_span`;
* `Window.Lists`: a listing of a window that is cut at a bound;
* `Command.collect`, `Command.printRows`: the entries of a scan as they are shown; `run_scan_eq`: the command does this;
* `Command.collect_lists_window`: any scan of an open store.
-/

namespace OrderedStore

/-! ## Entries of a window -/

namespace Window

/-- The entry is on the side of the start that the window asks for. -/
def Admits (w : Window) (e : Entry) : Prop :=
  ∀ start, w.start = some start → if w.reverse then e.1 ≤ start else start ≤ e.1

/-- An entry comes before another one in the direction of the window; none comes before itself. -/
def Before (w : Window) (e e' : Entry) : Prop := if w.reverse then e'.1 < e.1 else e.1 < e'.1

theorem mem_span_iff {w : Window} {m : Contents} {e : Entry} : e ∈ w.span m ↔ e ∈ m.entries ∧ w.Admits e := by
  obtain ⟨start, reverse, limit⟩ := w
  cases start <;> cases reverse <;> simp [span, Admits]

theorem pairwise_span (w : Window) (m : Contents) : (w.span m).Pairwise w.Before := by
  obtain ⟨start, reverse, limit⟩ := w
  cases start with
  | none =>
    cases reverse with
    | false => exact m.sorted
    | true => exact List.pairwise_reverse.mpr m.sorted
  | some start =>
    cases reverse with
    | false => exact m.sorted.filter _
    | true => exact List.pairwise_reverse.mpr (m.sorted.filter _)

/-- A listing of the entries of a map that a window asks for. -/
structure Lists (w : Window) (m : Contents) (listed : List Entry) : Prop where
  eq_take : listed = (w.span m).take w.bound
  /-- Nothing is listed twice or out of order. -/
  ordered : listed.Pairwise w.Before
  sound : ∀ e ∈ listed, e ∈ m.entries ∧ w.Admits e
  /-- What is left out comes behind as many entries as may be listed. -/
  complete : ∀ e ∈ m.entries, w.Admits e → e ∉ listed → listed.length = w.bound ∧ ∀ e' ∈ listed, w.Before e' e

theorem lists_take (w : Window) (m : Contents) : w.Lists m ((w.span m).take w.bound) where
  eq_take := rfl
  ordered := (w.pairwise_span m).sublist (List.take_sublist ..)
  sound _ he := mem_span_iff.mp (List.mem_of_mem_take he)
  complete e he hadmits hnot := by
    have hspan : e ∈ (w.span m).take w.bound ++ (w.span m).drop w.bound := by
      rw [List.take_append_drop]
      exact mem_span_iff.mpr ⟨he, hadmits⟩
    have hbehind : e ∈ (w.span m).drop w.bound := (List.mem_append.mp hspan).resolve_left hnot
    have hpairwise := w.pairwise_span m
    rw [← List.take_append_drop w.bound (w.span m)] at hpairwise
    refine ⟨List.length_take_of_le ?_, fun e' he' => (List.pairwise_append.mp hpairwise).2.2 e' he' e hbehind⟩
    exact Nat.le_of_not_le fun hle => List.ne_nil_of_mem hbehind (List.drop_eq_nil_iff.mpr hle)

end Window

/-! ## The scan command -/

namespace Command

/-- An entry as it is shown. -/
def row (e : Entry) : String × String := (Text.escapeBytes e.1, Text.escapeBytes e.2)

/-- The entries of a window as they are shown. -/
def collect {ε κ ς : Type} [Engine ε κ ς] (w : Window) (s : Store ε κ ς) :
    Except StoreError (List (String × String)) × Store ε κ ς :=
  ((s.scan w).1.map (List.map row), (s.scan w).2)

/-- What is printed of them. -/
def printRows (rows : List (String × String)) : Format → String
  | .text => String.join (rows.map fun (key, value) => s!"{key} = {value}\n") ++ s!"({rows.length} entries)\n"
  | .json => Text.renderRecords (rows.map fun (key, value) => [("key", .text key), ("value", .text value)]) ++ "\n"

theorem printRows_map_row (entries : List Entry) (format : Format) :
    printRows (entries.map row) format = printEntries entries format := by
  cases format with
  | text => simp only [printRows, printEntries, List.map_map, List.length_map, Function.comp_def, row]
  | json => simp only [printRows, printEntries, List.map_map, Function.comp_def, row]

theorem session_map {α β : Type} (f : α → β) (path : String) (create : Bool)
    (act : AttachedStore → Except StoreError α × AttachedStore) (disk : Disk) :
    session path create (fun s => ((act s).1.map f, (act s).2)) disk =
      ((session path create act disk).1.map f, (session path create act disk).2) := by
  unfold session
  split
  · rfl
  · rename_i s media _
    obtain ⟨result, s', hact⟩ : ∃ result s', act (s.attach media) = (result, s') := ⟨_, _, rfl⟩
    simp only [hact]
    cases result with
    | error e => rfl
    | ok a =>
      obtain ⟨closed, s'', hclose⟩ : ∃ closed s'', s'.close = (closed, s'') := ⟨_, _, rfl⟩
      simp only [Except.map, hclose]
      cases closed <;> rfl

/-- The scan command prints what it collects. -/
theorem run_scan_eq (path : String) (disk : Disk) (w : Window) (format : Format) :
    Command.run path disk (.scan w format) = run.print (printRows · format) (session path false (collect w) disk) := by
  have hcollect : session path false (collect w) disk = _ := session_map (List.map row) path false (·.scan w) disk
  rw [hcollect, Command.run]
  obtain ⟨result, disk', hsession⟩ : ∃ result disk', session path false (·.scan w) disk = (result, disk') := ⟨_, _, rfl⟩
  rw [hsession]
  cases result with
  | error e => rfl
  | ok entries => exact congrArg (fun text => (Except.ok text, disk')) (printRows_map_row entries format).symm

variable {σ : Type} [LogStorage σ] {s : Store.OnConnection σ}

/-- Any scan of an open store over an open connection, whatever is current there: the rows are those of the window, up
to its limit, and what is current stays as it is. The walk needs no limit to end, since behind as many steps as there
are entries in the window its cursor is on none. -/
theorem collect_lists_window (hisOpen : s.isOpen = true) (hengine : s.engine.isOpen = true) (w : Window) :
    let m := s.engine.timeline.contents
    (∃ listed s', collect w s = (.ok (listed.map row), s') ∧ w.Lists m listed ∧
      (m.size ≤ Window.unlimited → listed = w.select m) ∧ s'.isOpen = true ∧ s'.engine.timeline.contents = m) ∧
    ∃ c₀ s₀ c s₁, s.cursor = (.ok c₀, s₀) ∧ c₀.place w s₀ = (.ok (), c, s₁) ∧
      ∀ n, ∃ c' s', c.walk w.reverse n s₁ = (.ok ((w.span m).take n), c', s') ∧
        (c'.isValid s' = true ↔ n < (w.span m).length) := by
  intro m
  constructor
  · obtain ⟨s', hscan, hopen, hleft⟩ := Store.scan_eq_take hisOpen hengine w
    refine ⟨_, s', ?_, w.lists_take m, w.take_bound, hopen, hleft.contents⟩
    rw [collect, hscan]
    rfl
  · obtain ⟨c₀, s₀, c, s₁, station, hcursor, hplace, -, hstands, hrest⟩ := Store.exists_placed hisOpen hengine w
    refine ⟨c₀, s₀, c, s₁, hcursor, hplace, fun n => ?_⟩
    obtain ⟨c', s', station', hwalk, hstands', hleft⟩ := hstands.walk w.reverse n
    rw [hrest] at hwalk hleft
    refine ⟨c', s', hwalk, ?_⟩
    rw [hstands'.isValid, decide_eq_true_iff, Station.positioned_iff w.reverse, hleft, List.length_drop,
      Nat.sub_pos_iff_lt]

/-- Backwards from a start between two keys, and from one below every key. -/
theorem collect_lists_window_reverse :
    let connection : Connection MemoryLog :=
      ⟨none, {}, .ofRecords [.put 1 [97] [1], .put 2 [99] [10], .put 3 [101] [34], .delete 4 [97]], .empty, true⟩
    let s : Store.OnConnection MemoryLog := .ofEngine none {} connection
    s.isOpen = true ∧ s.engine.isOpen = true ∧ s.engine.timeline.contents.size ≤ Window.unlimited ∧
      (collect { start := some [100], reverse := true, limit := some 3 } s).1 = .ok [("c", "\\n")] ∧
      (collect { start := some [96], reverse := true } s).1 = .ok [] := by
  intro connection s
  have hsize : s.engine.timeline.contents.size ≤ Window.unlimited := by decide +kernel
  have hshown (w : Window) : (collect w s).1 = .ok ((w.select s.engine.timeline.contents).map row) := by
    obtain ⟨⟨listed, s', hcollect, -, hselect, -⟩, -⟩ := collect_lists_window (s := s) rfl rfl w
    rw [hcollect, hselect hsize]
  refine ⟨rfl, rfl, hsize, ?_, ?_⟩
  · rw [hshown]
    decide +kernel
  · rw [hshown]
    decide +kernel

end Command

end OrderedStore
