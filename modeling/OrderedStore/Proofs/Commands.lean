import OrderedStore.Proofs.Opening
import OrderedStore.Proofs.Printing

/-!
# Commands work on one map

Every command opens the store directory at a path, recovers its log, and compacts the log when it closes. Seen from
outside, the commands that are run on one path, where nothing was at first, work on one map that lasts.

* `Command.contents`: the map that commands have made; `Command.Answers`: what a command answers on a map;
* `Store.Serves`, `Store.Ready`: an open store on a connection that serves a map; `Store.Serves.close`: its end;
* `Command.session_of_opens`: what is done in a session; `Command.run_of_opens`: so is each command;
* `Command.Rests`: what is at the path between commands; `Rests.run`, `Rests.after`: one command, and any number;
* `Command.commands_refine_map`: what any command answers behind any others.
-/

namespace OrderedStore

/-! ## Commands on a map -/

namespace Command

/-- What a command writes can be logged. -/
def Fits : Command → Prop
  | put key value => Loggable key value
  | delete key => 12 + key.length < Payload.limit
  | _ => True

instance decidableFits : (c : Command) → Decidable c.Fits
  | put key value => inferInstanceAs (Decidable (Loggable key value))
  | delete key => inferInstanceAs (Decidable (12 + key.length < Payload.limit))
  | get .. | scan .. | stats .. => .isTrue trivial

/-- The command may make a store. -/
def creates : Command → Bool
  | put .. => true
  | _ => false

/-- The command is a write. -/
def isWrite : Command → Bool
  | put .. | delete .. => true
  | _ => false

/-- The change of the map that a command asks for; what cannot be logged is refused. -/
def operation? (c : Command) : Option Operation :=
  if c.Fits then
    match c with
    | put key value => some (.put key value)
    | delete key => some (.delete key)
    | _ => none
  else none

/-- The map that puts and deletes have made, in order. -/
def contents (past : List Command) : Contents := KeyMap.empty.writeAll (past.filterMap operation?)

/-- A command succeeds on a store with a map, but for a write that cannot be logged. What it prints is spelled out in
`Prints`, and tells what it has found there. -/
def Answers (path : String) (m : Contents) (c : Command) (result : Except StoreError String) : Prop :=
  if c.Fits then ∃ text, result = .ok text ∧ c.Prints path m text ∧ c.Tells path m text
  else ∃ cause, result = .error (.ioFailure (.invalidArgument cause))

/-- The disk after commands on the store at a path. -/
def after (path : String) (disk : Disk) (past : List Command) : Disk :=
  past.foldl (fun disk c => (c.run path disk).2) disk

/-- The results of commands. -/
def results (path : String) (disk : Disk) : List Command → List (Except StoreError String)
  | [] => []
  | c :: rest => (c.run path disk).1 :: results path (c.run path disk).2 rest

/-- The command has failed because input or output has. -/
def isFault : Except StoreError String → Bool
  | .error e =>
    match e.source? with
    | some (.io _) => true
    | _ => false
  | .ok _ => false

end Command

/-! ## Stores in a session -/

namespace Store

/-- The store is open, on a connection that serves a map. -/
structure Serves (path : String) (s : AttachedStore) (m : Contents) (n : Nat) : Prop where
  isOpen : s.isOpen = true
  engine : s.engine.Serves path m n

/-- It has just been opened. -/
structure Ready (path : String) (options : EngineOptions) (s : AttachedStore) (m : Contents) (n : Nat) : Prop extends
    Serves path s m n where
  pinned : (Session.start s.engine).Pinned
  options : s.engine.options = options

variable {path : String} {options : EngineOptions} {s : AttachedStore} {m : Contents} {n : Nat}

/-- A closing leaves the directory at rest, and fails only where the system refuses to rewrite the log. -/
theorem Serves.close (h : s.Serves path m n) : Directory.AtRest path s.close.2.media.disk m n ∧
    (s.close.1 = .ok () ∨ ∃ fault, s.close.1 = .error (.ioFailure (.ofSystem fault))) := by
  obtain ⟨hrest, hclosed⟩ := (h.engine.left (left_releaseAll s)).close
  obtain ⟨result, c, hclose⟩ : ∃ result c, Engine.close s.releaseAll.engine = (result, c) := ⟨_, _, rfl⟩
  have hengine : s.releaseAll.engine.close = (result, c) := hclose
  rw [hengine] at hrest hclosed
  simp only [Store.close, h.isOpen, Bool.not_true, Bool.false_eq_true, if_false, hclose]
  obtain rfl | ⟨fault, rfl⟩ := hclosed
  · exact ⟨hrest, .inl rfl⟩
  · exact ⟨hrest, .inr ⟨fault, rfl⟩⟩

theorem Serves.call (h : s.Serves path m n) {α : Type}
    {f : Connection Medium → Except EngineError α × Connection Medium} {a : α} {c : Connection Medium}
    (hf : f s.engine = (.ok a, c)) : s.call f = (.ok a, { s with engine := c }) := by
  have hopen : ¬(!s.isOpen) = true := by simp [h.isOpen]
  rw [Store.call, if_neg hopen, hf]

theorem Serves.call_error (h : s.Serves path m n) {α : Type}
    {f : Connection Medium → Except EngineError α × Connection Medium} {e : EngineError} {c : Connection Medium}
    (hf : f s.engine = (.error e, c)) :
    s.call f = (.error (.ofEngine e), { s with engine := c, counters := s.counters.countError }) := by
  have hopen : ¬(!s.isOpen) = true := by simp [h.isOpen]
  rw [Store.call, if_neg hopen, hf]

/-- A write is logged if its record has a frame, and refused otherwise. -/
theorem Ready.call_write (h : s.Ready path options m n) (hn : n < UInt64.size - 1) {w : Write}
    {make : Sequence → Record} (hmake : s.engine.write w = s.engine.commit make) {fits : Prop}
    (hfits : (∃ frame, Frame.encode (make (s.engine.sequence + 1)) = .ok frame) ↔ fits) :
    ∃ result s', s.call (·.write w) = (result, s') ∧
      ((fits ∧ result = .ok () ∧ s'.Serves path (m.writeAll w.operations) (n + 1)) ∨
        (¬fits ∧ (∃ cause, result = .error (.ioFailure (.invalidArgument cause))) ∧ s'.Serves path m (n + 1))) := by
  obtain ⟨result, c, hwrite⟩ : ∃ result c, s.engine.write w = (result, c) := ⟨_, _, rfl⟩
  have hserves := h.engine.write h.pinned hn hwrite
  obtain ⟨frame, hframe, hok⟩ | ⟨cause, hframe, hrefused⟩ := h.engine.commit make
  · rw [← hmake, hwrite] at hok
    cases hok
    exact ⟨_, _, h.call hwrite, .inl ⟨hfits.mp ⟨frame, hframe⟩, rfl, h.isOpen, hserves⟩⟩
  · rw [← hmake, hwrite] at hrefused
    cases hrefused
    have hnot : ¬fits := fun hfit => by
      obtain ⟨frame, hok⟩ := hfits.mpr hfit
      cases hframe.symm.trans hok
    exact ⟨_, _, h.call_error hwrite, .inr ⟨hnot, ⟨cause, rfl⟩, h.isOpen, hserves⟩⟩

theorem Serves.property (h : s.Serves path m n) (name : String) :
    s.property name = (.ok (s.engine.property name), s) := h.call rfl

theorem Serves.get (h : s.Serves path m n) (key : Bytes) :
    ∃ s', s.get key = (.ok (m.get? key), s') ∧ s'.Serves path m n := by
  have hget : Engine.get key s.engine = (.ok (m.get? key), s.engine) := by
    show (s.engine.get key, s.engine) = _
    rw [Connection.get_of_isOpen h.engine.isOpen, h.engine.contents]
  rw [Store.get, h.call hget]
  exact ⟨_, rfl, h.isOpen, h.engine⟩

theorem Serves.scan (h : s.Serves path m n) (hsize : m.size ≤ Window.unlimited) (w : Window) :
    ∃ s', s.scan w = (.ok (w.select m), s') ∧ s'.Serves path m n := by
  obtain rfl := h.engine.contents
  obtain ⟨s', hscan, hisOpen, hleft⟩ := scan_eq h.isOpen h.engine.isOpen hsize w
  exact ⟨s', hscan, hisOpen, h.engine.left hleft⟩

end Store

/-! ## Sessions -/

namespace Command

variable {path : String} {disk disk' : Disk} {m m' : Contents} {n n' : Nat} {create : Bool}

/-- A session on a store that has been opened. -/
theorem session_of_openDirectory {α : Type} {act : AttachedStore → Except StoreError α × AttachedStore}
    {s : DetachedStore} {media : Media}
    (hopen : Store.openDirectory path { createIfMissing := create } { disk } = (.ok s, media)) :
    session path create act disk = match act (s.attach media) with
      | (.error e, s) => (.error e, s.drop.media.disk)
      | (.ok a, s) => (s.close.1.map fun _ => a, s.close.2.media.disk) := by
  unfold session
  rewrite [hopen]
  rfl

/-- What is done on an open store, between its opening and its closing. -/
theorem session_of_opens {α : Type} {act : AttachedStore → Except StoreError α × AttachedStore}
    {P : Except StoreError α → Prop}
    (hopens : Connection.Opens path (options create) m n (Connection.openDirectory path (options create) { disk }))
    (hact : ∀ s : AttachedStore, s.Ready path (options create) m n →
      ∃ result s', act s = (result, s') ∧ P result ∧ s'.Serves path m' n') :
    Directory.AtRest path (session path create act disk).2 m' n' ∧
      (P (session path create act disk).1 ∨
        ∃ fault, (session path create act disk).1 = .error (.ioFailure (.ofSystem fault))) := by
  generalize hopen : Connection.openDirectory path (options create) { disk } = opening at hopens
  obtain ⟨opened, media⟩ := opening
  obtain ⟨c, rfl, hserves, hpinned, hoptions⟩ := hopens
  have hstore : Store.openDirectory path { createIfMissing := create } { disk } =
      (.ok (.ofEngine (some path) { createIfMissing := create } c), media) := by
    rw [Store.openDirectory, ← options, hopen, Store.ofOpening]
  have hready : (Store.attach (.ofEngine (some path) { createIfMissing := create } c) media).Ready path
      (options create) m n :=
    { isOpen := rfl, engine := hserves, pinned := hpinned, options := hoptions }
  obtain ⟨result, s', hdone, hgood, hserves'⟩ := hact _ hready
  obtain ⟨hrest, hclosed⟩ := hserves'.close
  rw [session_of_openDirectory hstore, hdone]
  cases result with
  | error e => exact ⟨hrest, .inl hgood⟩
  | ok a =>
    refine ⟨hrest, ?_⟩
    dsimp only
    obtain hok | ⟨fault, hfault⟩ := hclosed
    · rw [hok]
      exact .inl hgood
    · rw [hfault]
      exact .inr ⟨fault, rfl⟩

/-! ## Commands as sessions -/

variable {s : AttachedStore} {c : Command}

theorem answers_ok {text : String} (hfits : c.Fits) (hprints : c.Prints path m text) : Answers path m c (.ok text) :=
  (if_pos hfits).mpr ⟨text, rfl, hprints, hprints.tells⟩

/-- A write is answered by nothing, or refused, and changes the map if it is not. -/
theorem write_of_ready (h : s.Ready path (options create) m n) (hn : n < UInt64.size - 1) {w : Write}
    {r : Sequence → Record} (hr : s.engine.write w = s.engine.commit r)
    (hfits : (∃ frame, Frame.encode (r (s.engine.sequence + 1)) = .ok frame) ↔ c.Fits) (hprints : c.Prints path m "")
    (hoperation : c.Fits → c.operation?.toList = w.operations) (note : Unit → Counters → Counters) :
    ∃ result s', Store.count note (s.call (·.write w)) = (result, s') ∧ Answers path m c (result.map fun _ => "") ∧
      s'.Serves path (m.writeAll c.operation?.toList) (n + 1) := by
  obtain ⟨result, s', hcall, ⟨hfit, rfl, hserves⟩ | ⟨hnot, ⟨cause, rfl⟩, hserves⟩⟩ := h.call_write hn hr hfits
  · rw [hcall, hoperation hfit]
    exact ⟨_, _, rfl, answers_ok hfit hprints, hserves.isOpen, hserves.engine⟩
  · have hnone : c.operation? = none := if_neg hnot
    rw [hcall, hnone]
    exact ⟨_, _, rfl, (if_neg hnot).mpr ⟨cause, rfl⟩, hserves⟩

theorem summarize_of_ready (h : s.Ready path (options create) m n) : summarize path s =
    (.ok ⟨path, toString m.size, toString s.engine.sequence.toNat, (options create).describe⟩, s) := by
  have hentries : s.engine.property "burrow.num-entries" = some (toString m.size) := by
    rw [Connection.numEntries_of_isOpen h.engine.isOpen, h.engine.contents]
  have hsequence : s.engine.property "burrow.sequence" = some (toString s.engine.sequence.toNat) := by
    rw [Connection.property, h.engine.isOpen, Bool.not_true, if_neg Bool.false_ne_true, if_neg (by decide),
      if_neg (by decide), if_pos rfl]
  have hoptions : s.engine.property "burrow.options" = some (options create).describe := by
    rw [Connection.property, h.engine.isOpen, Bool.not_true, if_neg Bool.false_ne_true, if_pos rfl, h.options]
  simp only [summarize, h.property, hentries, hsequence, hoptions]
  rfl

/-- A command whose session does on an open store what the command is to do. -/
theorem print_of_opens {α : Type} {act : AttachedStore → Except StoreError α × AttachedStore} {text : α → String}
    (hopens : Connection.Opens path (options create) m n (Connection.openDirectory path (options create) { disk }))
    (hact : ∀ s : AttachedStore, s.Ready path (options create) m n →
      ∃ result s', act s = (result, s') ∧ Answers path m c (result.map text) ∧ s'.Serves path m' n') :
    Directory.AtRest path (run.print text (session path create act disk)).2 m' n' ∧
      (Answers path m c (run.print text (session path create act disk)).1 ∨
        isFault (run.print text (session path create act disk)).1 = true) := by
  obtain ⟨hrest, hgood | ⟨fault, hfault⟩⟩ :=
    session_of_opens (P := fun result => Answers path m c (result.map text)) hopens hact
  · exact ⟨hrest, .inl hgood⟩
  · refine ⟨hrest, .inr ?_⟩
    rw [run.print, hfault]
    rfl

/-- A command on a store that it can open answers from the map, and leaves what it makes of the map at rest. -/
theorem run_of_opens (c : Command) (hn : n + c.isWrite.toNat < UInt64.size) (hsize : m.size ≤ n)
    (hopens : Connection.Opens path (options c.creates) m n
      (Connection.openDirectory path (options c.creates) { disk })) :
    Directory.AtRest path (c.run path disk).2 (m.writeAll c.operation?.toList) (n + c.isWrite.toNat) ∧
      (Answers path m c (c.run path disk).1 ∨ isFault (c.run path disk).1 = true) := by
  cases c with
  | put key value =>
    refine print_of_opens hopens fun s h => write_of_ready (c := .put key value) (w := .put key value)
      (r := (.put · key value)) h (Nat.lt_sub_of_add_lt hn) rfl ?_ rfl ?_ _
    · exact ⟨fun ⟨_, hframe⟩ => loggable_of_encodeWith hframe List.mem_cons_self, fun h => h.exists_frame _⟩
    · intro hfits
      rw [operation?, if_pos hfits]
      rfl
  | delete key =>
    refine print_of_opens hopens fun s h => write_of_ready (c := .delete key) (w := .delete key)
      (r := (.delete · key)) h (Nat.lt_sub_of_add_lt hn) rfl exists_frame_delete_iff rfl ?_ _
    intro hfits
    rw [operation?, if_pos hfits]
    rfl
  | get key format =>
    refine print_of_opens hopens fun s h => ?_
    obtain ⟨s', hget, hserves⟩ := h.get key
    exact ⟨_, s', hget, answers_ok trivial (prints_get key format), hserves⟩
  | scan window format =>
    refine print_of_opens hopens fun s h => ?_
    obtain ⟨s', hscan, hserves⟩ := h.scan (Nat.le_trans hsize (Nat.le_sub_one_of_lt hn)) window
    exact ⟨_, s', hscan, answers_ok trivial (prints_scan window format), hserves⟩
  | stats format =>
    refine print_of_opens hopens fun s h => ?_
    exact ⟨_, s, summarize_of_ready h, answers_ok trivial (prints_stats _ format), h.toServes⟩

/-- Each command is a session. -/
theorem run_eq_session (path : String) (disk : Disk) (c : Command) :
    ∃ (α : Type) (act : AttachedStore → Except StoreError α × AttachedStore) (text : α → String),
      c.run path disk = run.print text (session path c.creates act disk) := by
  cases c with
  | put key value => exact ⟨_, (·.put key value), fun _ => "", rfl⟩
  | delete key => exact ⟨_, (·.delete key), fun _ => "", rfl⟩
  | get key format => exact ⟨_, (·.get key), (printValue key · format), rfl⟩
  | scan window format => exact ⟨_, (·.scan window), (printEntries · format), rfl⟩
  | stats format => exact ⟨_, summarize path, (·.print format), rfl⟩

/-- It does nothing if the store cannot be opened. -/
theorem run_of_refused {e : EngineError} {media : Media}
    (hopen : Connection.openDirectory path (options c.creates) { disk } = (.error e, media)) :
    c.run path disk = (.error (.ofOpen path e), media.disk) := by
  obtain ⟨α, act, text, hrun⟩ := c.run_eq_session path disk
  have hsession : session path c.creates act disk = (.error (.ofOpen path e), media.disk) := by
    unfold session
    rewrite [Store.openDirectory, ← options, hopen]
    rfl
  rw [hrun, hsession]
  rfl

/-! ## Between commands -/

/-- What is at a path between commands: nothing, or a store directory at rest. -/
inductive Rests (path : String) (disk : Disk) : Bool → Contents → Nat → Prop
  | nothing (sound : disk.Sound) (locks : ∀ id ∈ disk.locks, id < disk.contents.length)
    (vacant : Directory.Vacant path disk) (n : Nat) : Rests path disk false .empty n
  | store {m : Contents} {n : Nat} (rest : Directory.AtRest path disk m n) (size : m.size ≤ n) :
    Rests path disk true m n

/-- A command works on the map of the store, or fails and changes nothing if there is no store yet. -/
structure Conforms (path : String) (disk : Disk) (made : Bool) (m : Contents) (c : Command) : Prop where
  missing : made = false → c.creates = false → c.run path disk = (.error (.openFailure path (.notFound path)), disk)
  answers : made = true ∨ c.creates = true → Answers path m c (c.run path disk).1

theorem size_operation?_le (m : Contents) (c : Command) :
    (m.writeAll c.operation?.toList).size ≤ m.size + c.isWrite.toNat := by
  cases c with
  | put key value =>
    unfold operation?
    split
    · exact m.size_insert_le key value
    · exact Nat.le_succ _
  | delete key =>
    unfold operation?
    split
    · exact Nat.le_succ_of_le (m.size_erase_le key)
    · exact Nat.le_succ _
  | get | scan | stats => exact Nat.le_refl _

/-- A command that makes no store asks for no binding. -/
theorem writeAll_operation?_of_creates (h : c.creates = false) :
    KeyMap.empty.writeAll c.operation?.toList = (KeyMap.empty : Contents) := by
  cases c with
  | put => cases h
  | delete key =>
    unfold operation?
    split <;> rfl
  | get | scan | stats => rfl

variable {made : Bool} {past : List Command}

theorem Rests.run (h : Rests path disk made m n) (hpath : path ≠ "") (hn : n + c.isWrite.toNat < UInt64.size)
    (hfault : isFault (c.run path disk).1 = false) : Conforms path disk made m c ∧
      Rests path (c.run path disk).2 (made || c.creates) (m.writeAll c.operation?.toList) (n + c.isWrite.toNat) := by
  have hvalid : (options c.creates).validate = .ok () := rfl
  -- where the store can be opened, both come from its map
  have hopened : m.size ≤ n → Connection.Opens path (options c.creates) m n
      (Connection.openDirectory path (options c.creates) { disk }) → Answers path m c (c.run path disk).1 ∧
        Rests path (c.run path disk).2 true (m.writeAll c.operation?.toList) (n + c.isWrite.toNat) := by
    intro hsize hopens
    obtain ⟨hrest, hanswers | hfaulty⟩ := run_of_opens c hn hsize hopens
    · exact ⟨hanswers, .store hrest (Nat.le_trans (size_operation?_le m c) (Nat.add_le_add_right hsize _))⟩
    · cases hfault.symm.trans hfaulty
  cases h with
  | store hrest hsize =>
    obtain ⟨hanswers, hrests⟩ := hopened hsize (hrest.openDirectory rfl hvalid)
    exact ⟨⟨nofun, fun _ => hanswers⟩, hrests⟩
  | nothing hsound hlocks hvacant =>
    generalize hopening : Connection.openDirectory path (options c.creates) { disk } = opening at hopened
    cases hcreates : c.creates with
    | true =>
      obtain ⟨fault, hrefused⟩ | ⟨c', hok, hserves, hend⟩ :=
        hopening ▸ hvacant.openDirectory hsound hlocks hpath hcreates hvalid
      · rw [run_of_refused (hopening.trans (Prod.ext hrefused rfl))] at hfault
        cases hfault
      · obtain ⟨hanswers, hrests⟩ := hopened (Nat.zero_le n) ⟨c', hok, hserves.mono (Nat.zero_le n), hend⟩
        exact ⟨⟨fun _ hnot => absurd (hcreates.symm.trans hnot) (by decide), fun _ => hanswers⟩, hrests⟩
    | false =>
      have hrun := run_of_refused (hvacant.openDirectory_eq hpath hcreates hvalid)
      refine ⟨⟨fun _ _ => hrun, fun hmade => ?_⟩, ?_⟩
      · obtain hmade | hmade := hmade
        · cases hmade
        · cases hcreates.symm.trans hmade
      · rw [hrun, writeAll_operation?_of_creates hcreates]
        exact .nothing hsound hlocks hvacant _

/-- By induction on the commands: each finds what those before it have left. -/
theorem Rests.after (h : Rests path disk made m n) (hpath : path ≠ "") (hn : n + past.countP isWrite < UInt64.size)
    (hfaults : ∀ result ∈ results path disk past, isFault result = false) :
    Rests path (after path disk past) (made || past.any creates) (m.writeAll (past.filterMap operation?))
      (n + past.countP isWrite) := by
  induction past generalizing disk made m n with
  | nil =>
    rw [List.any_nil, Bool.or_false]
    exact h
  | cons c past ih =>
    rw [countP_cons_toNat] at hn ⊢
    obtain ⟨-, hnext⟩ := h.run hpath (by omega) (hfaults _ List.mem_cons_self)
    have hrest := ih hnext (by omega) fun result hresult => hfaults result (List.mem_cons_of_mem _ hresult)
    have hoperations : (c :: past).filterMap operation? = c.operation?.toList ++ past.filterMap operation? := by
      rw [List.filterMap_cons]
      cases c.operation? <;> rfl
    rw [hoperations, KeyMap.writeAll_append, List.any_cons, ← Bool.or_assoc, ← Nat.add_assoc]
    exact hrest

theorem results_append (path : String) (disk : Disk) (past rest : List Command) :
    results path disk (past ++ rest) = results path disk past ++ results path (after path disk past) rest := by
  induction past generalizing disk with
  | nil => rfl
  | cons c past ih => exact congrArg ((c.run path disk).1 :: ·) (ih (c.run path disk).2)

/-- Commands on one path where nothing is at first, of which none fails for input or output, and among which there are
fewer writes than sequences, do what is done on one map:

* as long as no put has been run, every other command fails, as the store is not found, and changes nothing on the disk;
* from the first put on, every command succeeds. A lookup prints the value that the map has, a scan the entries of its
  window, and a summary their number, where the map is what the puts and deletes before have made, in order; and what
  is printed there is not printed where there is anything else. Only a write whose record does not fit into a frame of
  the log is refused, and changes nothing in the map. -/
theorem commands_refine_map (hsound : disk.Sound) (hlocks : ∀ id ∈ disk.locks, id < disk.contents.length)
    (hpath : path ≠ "") (hvacant : Directory.Vacant path disk) {now : Command}
    (hwrites : (past ++ [now]).countP isWrite < UInt64.size)
    (hfaults : ∀ result ∈ results path disk (past ++ [now]), isFault result = false) :
    let before := after path disk past
    ((∀ c ∈ past ++ [now], c.creates = false) →
      now.run path before = (.error (.openFailure path (.notFound path)), before)) ∧
    ((∃ c ∈ past ++ [now], c.creates = true) → Answers path (contents past) now (now.run path before).1) := by
  intro before
  rw [results_append] at hfaults
  rw [List.countP_append, countP_cons_toNat, List.countP_nil, Nat.add_zero] at hwrites
  have hrests : Rests path before (past.any creates) (contents past) (past.countP isWrite) := by
    have hafter : Rests path before (false || past.any creates) (contents past) (0 + past.countP isWrite) :=
      (Rests.nothing hsound hlocks hvacant 0).after hpath (by omega) fun result hresult =>
        hfaults result (List.mem_append_left _ hresult)
    rwa [Bool.false_or, Nat.zero_add] at hafter
  have hfault := hfaults (now.run path before).1 (List.mem_append_right _ List.mem_cons_self)
  obtain ⟨⟨hmissing, hanswers⟩, -⟩ := hrests.run hpath hwrites hfault
  constructor
  · intro hnone
    refine hmissing (List.any_eq_false.mpr fun c hc => ?_) (hnone now (by simp))
    simp [hnone c (List.mem_append_left _ hc)]
  · rintro ⟨c, hc, hcreates⟩
    refine hanswers ?_
    obtain hc | hc := List.mem_append.mp hc
    · exact .inl (List.any_eq_true.mpr ⟨c, hc, hcreates⟩)
    · exact .inr (List.mem_singleton.mp hc ▸ hcreates)

/-- A lookup before the first put; behind two puts, a delete and a summary, lookups of a value with a quote in it and of
a key that is gone, scans backwards and of everything, and a summary. -/
theorem commands_refine_map_db :
    let disk : Disk := {}
    let past : List Command := [.get [97] .text, .put [97] [49], .put [98] [50, 10, 34], .delete [97], .stats .json]
    let shown : List (Command × String) := [(.get [98] .text, "2\\n\\\"\n"),
      (.get [97] .json, "\x7b\n  \"key\": \"a\",\n  \"value\": null\n\x7d\n"),
      (.scan { start := some [99], reverse := true } .text, "b = 2\\n\\\"\n(1 entries)\n"),
      (.scan {} .json,
        "[\n  \x7b\n    \"key\": \"b\",\n    \"value\": \"2\\\\n\\\\\\\"\"\n  \x7d\n]\n")]
    disk.Sound ∧ (∀ id ∈ disk.locks, id < disk.contents.length) ∧ Directory.Vacant "db" disk ∧
      (∀ now ∈ (stats .text, "") :: shown, (past ++ [now.1]).countP isWrite < UInt64.size ∧
        ∀ result ∈ results "db" disk (past ++ [now.1]), isFault result = false) ∧
      Command.run "db" disk (.get [97] .text) = (.error (.openFailure "db" (.notFound "db")), disk) ∧
      (∀ now ∈ shown, (now.1.run "db" (after "db" disk past)).1 = .ok now.2) ∧
      ∃ sequence : Sequence, (Command.run "db" (after "db" disk past) (.stats .text)).1 =
        .ok ("Burrow Store Statistics\n=======================\n\nPath:     db\nEntries:  1\nSequence: " ++
          toString sequence.toNat ++ "\nOptions:  " ++ (options false).describe ++ "\n") := by
  intro disk past shown
  have hlocks : ∀ id ∈ disk.locks, id < disk.contents.length := nofun
  have hvacant : Directory.Vacant "db" disk := by
    have hfind : disk.find "db" = .error .notFound := by decide +kernel
    refine Directory.vacant_of_find Disk.sound_empty (by decide +kernel) fun node hnode => ?_
    cases hfind.symm.trans hnode
  have hruns : ∀ now ∈ (stats .text, "") :: shown, (past ++ [now.1]).countP isWrite < UInt64.size ∧
      ∀ result ∈ results "db" disk (past ++ [now.1]), isFault result = false := by decide +kernel
  have hfirst : ∀ result ∈ results "db" disk ([] ++ [.get [97] .text]), isFault result = false := by decide +kernel
  obtain ⟨hmissing, -⟩ := commands_refine_map Disk.sound_empty hlocks (by decide) hvacant (by decide) hfirst
  have hputs : ∀ now ∈ (stats .text, "") :: shown, ∃ c ∈ past ++ [now.1], c.creates = true := by decide
  have hfits : ∀ now ∈ (stats .text, "") :: shown, now.1.Fits := by decide
  have hprints : ∀ now ∈ (stats .text, "") :: shown, ∃ text,
      (now.1.run "db" (after "db" disk past)).1 = .ok text ∧ now.1.Prints "db" (contents past) text := by
    intro now hnow
    obtain ⟨hwrites, hfaults⟩ := hruns now hnow
    obtain ⟨-, hanswers⟩ := commands_refine_map Disk.sound_empty hlocks (by decide) hvacant hwrites hfaults
    obtain ⟨text, htext, hprints, -⟩ := (if_pos (hfits now hnow)).mp (hanswers (hputs now hnow))
    exact ⟨text, htext, hprints⟩
  refine ⟨Disk.sound_empty, hlocks, hvacant, hruns, hmissing (by decide), fun now hnow => ?_, ?_⟩
  · obtain ⟨text, htext, hprints⟩ := hprints now (List.mem_cons_of_mem _ hnow)
    rw [htext]
    simp only [shown, List.mem_cons, List.not_mem_nil, or_false] at hnow
    obtain rfl | rfl | rfl | rfl := hnow
    all_goals exact congrArg _ (Eq.trans hprints (by decide +kernel))
  · obtain ⟨text, htext, sequence, rfl⟩ := hprints _ List.mem_cons_self
    have hfront : "Burrow Store Statistics\n=======================\n\nPath:     " ++ "db" ++ "\nEntries:  " ++
        toString (contents past).size ++ "\nSequence: " =
          "Burrow Store Statistics\n=======================\n\nPath:     db\nEntries:  1\nSequence: " := by
      decide +kernel
    exact ⟨sequence, hfront ▸ htext⟩

end Command

end OrderedStore
