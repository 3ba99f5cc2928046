import OrderedStore.Proofs.Directory
import OrderedStore.Proofs.Texts
import OrderedStore.Store.Media

/-!
# Errors that can be shown

What a log says when it fails is shown in the message of whatever was asked of its connection or its store. No
operation adds a text that could not be kept: so if the texts can be kept that devices report, then so can all messages.

* `Legible`, `Shows`: an error has a message that can be kept;
* `LogStorage.Answers`: a log whose errors all have; `Media.Legible`, `Medium.answers`: the logs of this library;
* `Answers.write`, `Answers.close`, `Answers.openOn`: what is asked of a connection on such a log;
* `Connection.shows_openDirectory`, `shows_openMemory`: opening.
-/

namespace OrderedStore

/-- If it is an error, its message can be kept. -/
def Legible {ε α : Type} (message : ε → String) (result : Except ε α) : Prop :=
  ∀ e, result = .error e → Text.ZeroFree (message e)

/-- What an operation ends with: the result is legible, and the state behind it satisfies `P`. -/
structure Shows {ε α τ : Type} (message : ε → String) (P : τ → Prop) (r : Except ε α × τ) : Prop where
  legible : Legible message r.1
  state : P r.2

section Results

variable {ε α β τ : Type} {message : ε → String} {P : τ → Prop}

theorem legible_ok (a : α) : Legible message (.ok a) := nofun

theorem legible_error {e : ε} (h : Text.ZeroFree (message e)) : Legible message (.error e : Except ε α) := by
  intro e' he
  cases he
  exact h

theorem Legible.bind {x : Except ε α} {f : α → Except ε β} (hx : Legible message x)
    (hf : ∀ a, Legible message (f a)) : Legible message (x >>= f) := by
  cases x with
  | error e => exact legible_error (hx e rfl)
  | ok a => exact hf a

theorem shows_ok (a : α) {t : τ} (ht : P t) : Shows message P (.ok a, t) := ⟨legible_ok a, ht⟩

theorem shows_error {e : ε} {t : τ} (h : Text.ZeroFree (message e)) (ht : P t) :
    Shows message P ((.error e, t) : Except ε α × τ) :=
  ⟨legible_error h, ht⟩

end Results

/-! ## Arguments -/

namespace Payload

/-- What is said of a record that cannot be written. -/
def refusal (cause : BadArgument) : String := (EngineError.invalidArgument cause).message

theorem legible_field (bs : Bytes) : Legible refusal (field bs) := by
  unfold field
  split
  · exact legible_ok _
  · exact legible_error (by decide)

theorem legible_encodeOperation (op : Operation) : Legible refusal (encodeOperation op) := by
  cases op with
  | put key value => exact (legible_field key).bind fun _ => (legible_field value).bind fun _ => legible_ok _
  | delete key => exact (legible_field key).bind fun _ => legible_ok _

theorem legible_encodeOperations (ops : List Operation) : Legible refusal (encodeOperations ops) := by
  induction ops with
  | nil => exact legible_ok _
  | cons op ops ih => exact (legible_encodeOperation op).bind fun _ => ih.bind fun _ => legible_ok _

theorem legible_encode (r : Record) : Legible refusal (encode r) := by
  refine Legible.bind ?_ fun _ => legible_ok _
  cases r with
  | put seq key value => exact (legible_field key).bind fun _ => (legible_field value).bind fun _ => legible_ok _
  | delete seq key => exact legible_field key
  | batch seq ops =>
    rw [encodeFields]
    split
    · exact (legible_encodeOperations ops).bind fun _ => legible_ok _
    · exact legible_error (by decide)

end Payload

theorem Frame.legible_encodeWith (sum : Bytes → UInt32) (r : Record) : Legible Payload.refusal (encodeWith sum r) := by
  refine (Payload.legible_encode r).bind fun payload => ?_
  split
  · exact legible_ok _
  · exact legible_error (by decide)

theorem legible_encodeLogWith (sum : Bytes → UInt32) (rs : List Record) :
    Legible Payload.refusal (encodeLogWith sum rs) := by
  induction rs with
  | nil => exact legible_ok _
  | cons r rs ih => exact (Frame.legible_encodeWith sum r).bind fun _ => ih.bind fun _ => legible_ok _

theorem EngineOptions.legible_validate (options : EngineOptions) : Legible EngineError.message options.validate := by
  unfold validate
  split
  · exact legible_error (EngineError.zeroFree_message nofun)
  · exact legible_ok ()

/-! ## Logs -/

namespace LogStorage

variable {σ : Type} [LogStorage σ]

/-- Every method of a log keeps `P`, and says legibly why it fails. -/
structure Answers (P : σ → Prop) : Prop where
  readAll {s : σ} : P s → Legible EngineError.message (LogStorage.readAll s)
  size {s : σ} : P s → Legible EngineError.message (LogStorage.size s)
  append {s : σ} (bytes : Bytes) : P s → Shows EngineError.message P (LogStorage.append bytes s)
  sync {s : σ} : P s → Shows EngineError.message P (LogStorage.sync s)
  truncate {s : σ} (length : Nat) : P s → Shows EngineError.message P (LogStorage.truncate length s)
  rewrite {s : σ} (bytes : Bytes) : P s → Shows EngineError.message P (LogStorage.rewrite bytes s)
  release {s : σ} : P s → P (LogStorage.release s)

variable {P : σ → Prop} {s : σ}

theorem Answers.appendRecord (h : Answers P) (r : Record) (hs : P s) :
    Shows EngineError.message P (LogStorage.appendRecord r s) := by
  unfold LogStorage.appendRecord
  split
  · rename_i cause hencode
    exact shows_error (Frame.legible_encodeWith crc32 r cause hencode) hs
  · exact h.append _ hs

theorem Answers.rewriteRecords (h : Answers P) (rs : List Record) (hs : P s) :
    Shows EngineError.message P (LogStorage.rewriteRecords rs s) := by
  unfold LogStorage.rewriteRecords
  split
  · rename_i cause hencode
    exact shows_error (legible_encodeLogWith crc32 rs cause hencode) hs
  · exact h.rewrite _ hs

theorem Answers.replay (h : Answers P) (hs : P s) : Legible EngineError.message (LogStorage.replay s) :=
  Legible.bind (h.readAll hs) fun _ => legible_ok _

theorem Answers.preserves (h : Answers P) : Preserves P where
  append bytes hs := (h.append bytes hs).state
  sync hs := (h.sync hs).state
  truncate length hs := (h.truncate length hs).state
  rewrite bytes hs := (h.rewrite bytes hs).state

/-! ## Connections -/

/-- A damaged log is refused with the place of its damage. -/
theorem Answers.repair (h : Answers P) (options : EngineOptions) (replay : Replay) (hs : P s) :
    Shows EngineError.message P (Connection.repair options replay s) := by
  unfold Connection.repair
  split
  · exact shows_ok () hs
  · rename_i damage _
    split
    · exact shows_error (Text.ZeroFree.append (by decide) damage.zeroFree_describe) hs
    · exact h.truncate _ hs

/-- A connection on such a log is opened, or it is said legibly why not. -/
theorem Answers.openOn (h : Answers P) (path : Option String) (options : EngineOptions) (hs : P s) :
    (∃ e log, Connection.openOn path options s = .error (e, log) ∧ Text.ZeroFree e.message ∧ P log) ∨
      ∃ c, Connection.openOn path options s = .ok c ∧ P c.log := by
  unfold Connection.openOn
  split
  · rename_i e hinvalid
    exact .inl ⟨e, _, rfl, options.legible_validate e hinvalid, h.release hs⟩
  · split
    · rename_i e hunread
      exact .inl ⟨e, _, rfl, h.replay hs e hunread, h.release hs⟩
    · rename_i replay _
      have hrepair := h.repair options replay hs
      split
      · rename_i e log hfailed
        rw [hfailed] at hrepair
        exact .inl ⟨e, _, rfl, hrepair.legible e rfl, h.release hrepair.state⟩
      · rename_i log hdone
        rw [hdone] at hrepair
        exact .inr ⟨_, rfl, hrepair.state⟩

theorem Answers.write (h : Answers P) {c : Connection σ} (w : Write) (hs : P c.log) :
    Shows EngineError.message (fun c : Connection σ => P c.log) (c.write w) := by
  refine ⟨fun e he => ?_, h.preserves.write w hs⟩
  obtain ⟨make, -, heq⟩ | ⟨-, heq⟩ := c.write_eq w
  · obtain ⟨result, c', hcommit⟩ : ∃ result c', c.commit make = (result, c') := ⟨_, _, rfl⟩
    rw [heq, hcommit] at he
    obtain ⟨-, rfl, -⟩ | ⟨-, e', hsize, rfl, -⟩ | ⟨-, size, -, ⟨e', log, happend, rfl, -⟩ | ⟨offset, log, -, rfl, -⟩⟩ :=
      Connection.commit_cases hcommit
    · cases he
      decide
    · cases he
      exact h.size hs e hsize
    · cases he
      exact (h.appendRecord _ hs).legible e (congrArg Prod.fst happend)
    · cases he
  · rw [heq, Connection.ifOpen] at he
    split at he
    · cases he
    · cases he
      decide

theorem Answers.close (h : Answers P) {c : Connection σ} (hs : P c.log) :
    Shows EngineError.message (fun c : Connection σ => P c.log) c.close := by
  unfold Connection.close
  split
  · exact shows_ok () hs
  · refine ⟨?_, h.release (h.preserves.compact hs)⟩
    have hrewrite := h.rewriteRecords c.compacted hs
    show Legible EngineError.message c.compact.1
    unfold Connection.compact
    split
    · rename_i hfailed
      rw [hfailed] at hrewrite
      exact hrewrite.legible
    · rename_i hdone
      rw [hdone] at hrewrite
      exact (h.sync hrewrite.state).legible

end LogStorage

/-! ## The logs of this library -/

theorem MemoryLog.answers : LogStorage.Answers fun _ : MemoryLog => True where
  readAll _ := legible_ok _
  size _ := legible_ok _
  append _ _ := shows_ok _ trivial
  sync _ := shows_ok _ trivial
  truncate {log} length _ := by
    show Shows _ _ (log.truncate length)
    unfold MemoryLog.truncate
    split
    · exact shows_error (EngineError.zeroFree_message nofun) trivial
    · exact shows_ok _ trivial
  rewrite _ _ := shows_ok _ trivial
  release _ := trivial

theorem FileOnDisk.answers : LogStorage.Answers fun _ : FileOnDisk => True where
  readAll _ := legible_ok _
  size _ := legible_ok _
  append {f} bytes _ := by
    show Shows _ _ (f.append bytes)
    unfold FileOnDisk.append
    split <;> exact shows_ok _ trivial
  sync _ := shows_ok _ trivial
  truncate {f} length _ := by
    show Shows _ _ (f.truncate length)
    unfold FileOnDisk.truncate
    split
    · exact shows_error (EngineError.zeroFree_message nofun) trivial
    · exact shows_ok _ trivial
  rewrite {f} bytes _ := by
    show Shows _ _ (f.rewrite bytes)
    unfold FileOnDisk.rewrite
    split
    · exact shows_error (EngineError.zeroFree_ofSystem _) trivial
    split
    · exact shows_error (EngineError.zeroFree_ofSystem _) trivial
    split
    · exact shows_error (EngineError.zeroFree_ofSystem _) trivial
    · exact shows_ok _ trivial
  release _ := trivial

/-- The errors that a log is made to report can be shown. -/
def FaultyLog.Legible (f : FaultyLog) : Prop :=
  ∀ method fault, f.faults method = some fault → Text.ZeroFree fault.error.message

theorem FaultyLog.shows_guard {f : FaultyLog} (hf : f.Legible) (method : LogMethod)
    {run : MemoryLog → Except EngineError Unit × MemoryLog}
    (hrun : Shows EngineError.message (fun _ => True) (run f.log)) :
    Shows EngineError.message FaultyLog.Legible (f.guard method run) := by
  unfold FaultyLog.guard
  split
  · rename_i fault hfault
    exact shows_error (hf method fault hfault) hf
  · exact ⟨hrun.legible, hf⟩

theorem FaultyLog.answers : LogStorage.Answers FaultyLog.Legible where
  readAll {f} hf := by
    simp only [LogStorage.readAll]
    split
    · rename_i fault hfault
      exact legible_error (hf .readAll fault hfault)
    · exact legible_ok _
  size {f} hf := by
    simp only [LogStorage.size]
    split
    · rename_i fault hfault
      exact legible_error (hf .size fault hfault)
    · exact legible_ok _
  append {f} bytes hf := by
    show Shows _ _ (f.append bytes)
    unfold FaultyLog.append
    split
    · rename_i fault hfault
      exact shows_error (hf .append fault hfault) hf
    · exact shows_ok _ hf
  sync hf := shows_guard hf .sync (MemoryLog.answers.sync trivial)
  truncate length hf := shows_guard hf .truncate (MemoryLog.answers.truncate length trivial)
  rewrite bytes hf := shows_guard hf .rewrite (MemoryLog.answers.rewrite bytes trivial)
  release hf := hf

/-- The errors that the shared logs are made to report can be shown. -/
def Media.Legible (media : Media) : Prop := ∀ log ∈ media.logs, log.Legible

namespace Medium

variable {m : Medium}

/-- A log that does not exist reports nothing. -/
theorem legible_getD (h : m.media.Legible) (number : Nat) :
    (m.media.logs.getD number { log := .empty }).Legible := by
  rw [List.getD_eq_getElem?_getD]
  cases hlog : m.media.logs[number]? with
  | none => exact nofun
  | some log => exact h log (List.mem_of_getElem? hlog)

/-- What every log answers legibly, the log answers that a handle points to. -/
theorem shows_run {α : Type} {op : {σ : Type} → [LogStorage σ] → σ → Except EngineError α × σ}
    (hop : ∀ {σ : Type} [LogStorage σ] {P : σ → Prop}, LogStorage.Answers P → ∀ {s}, P s →
      Shows EngineError.message P (op s)) (h : m.media.Legible) :
    Shows EngineError.message (fun m : Medium => m.media.Legible) (m.run op) := by
  unfold run
  split
  · exact ⟨(hop MemoryLog.answers trivial).legible, h⟩
  · rename_i number _
    have hlog := hop FaultyLog.answers (legible_getD h number)
    refine ⟨hlog.legible, fun log hmem => ?_⟩
    obtain hmem | rfl := List.mem_or_eq_of_mem_set hmem
    · exact h log hmem
    · exact hlog.state
  · exact ⟨(hop FileOnDisk.answers trivial).legible, h⟩

theorem legible_ask {α : Type} {question : {σ : Type} → [LogStorage σ] → σ → Except EngineError α}
    (hquestion : ∀ {σ : Type} [LogStorage σ] {P : σ → Prop}, LogStorage.Answers P → ∀ {s}, P s →
      Legible EngineError.message (question s)) (h : m.media.Legible) :
    Legible EngineError.message (m.ask question) := by
  unfold ask
  split
  · exact hquestion MemoryLog.answers trivial
  · exact hquestion FaultyLog.answers (legible_getD h _)
  · exact hquestion FileOnDisk.answers trivial

theorem answers : LogStorage.Answers fun m : Medium => m.media.Legible where
  readAll h := legible_ask LogStorage.Answers.readAll h
  size h := legible_ask LogStorage.Answers.size h
  append bytes h := shows_run (fun hlog => hlog.append bytes) h
  sync h := shows_run LogStorage.Answers.sync h
  truncate length h := shows_run (fun hlog => hlog.truncate length) h
  rewrite bytes h := shows_run (fun hlog => hlog.rewrite bytes) h
  release {m} h := by
    show m.release.media.Legible
    unfold release
    split <;> exact h

end Medium

/-! ## Opening -/

namespace Directory

variable {path : String}

theorem legible_checkFormat (disk : Disk) (hpath : Text.ZeroFree path) :
    Legible EngineError.message (checkFormat disk path) := by
  unfold checkFormat
  split
  · exact legible_error (EngineError.zeroFree_ofSystem _)
  · split
    · exact legible_error (EngineError.zeroFree_ofSystem _)
    · dsimp only
      split
      · exact legible_ok ()
      · have hfile : Text.ZeroFree (currentPath path) := zeroFree_joinPath hpath (by decide)
        exact legible_error (EngineError.zeroFree_message fun _ hmem => List.mem_singleton.mp hmem ▸ hfile)

theorem legible_writeFormat (disk : Disk) (path : String) : Legible EngineError.message (writeFormat disk path).1 := by
  unfold writeFormat
  dsimp only
  split
  · exact legible_error (EngineError.zeroFree_ofSystem _)
  · split
    · exact legible_error (EngineError.zeroFree_ofSystem _)
    · exact legible_ok ()

theorem legible_enter (hpath : Text.ZeroFree path) (present : Bool) (disk : Disk) :
    Legible EngineError.message (enter path present disk).1 := by
  unfold enter
  split
  · exact legible_error (EngineError.zeroFree_ofSystem _)
  · rename_i lock opened _
    split
    · exact legible_error (EngineError.zeroFree_message fun _ hmem => List.mem_singleton.mp hmem ▸ hpath)
    · have hformat : Legible EngineError.message (if present then (checkFormat opened path, opened.lock lock)
          else writeFormat (opened.lock lock) path).1 := by
        split
        · exact legible_checkFormat opened hpath
        · exact legible_writeFormat _ path
      dsimp only
      split
      · rename_i e hfailed
        exact legible_error (hformat e hfailed)
      · exact legible_ok _

/-- A directory that is not opened is named as the caller has named it. -/
theorem legible_openAt (hpath : Text.ZeroFree path) (options : EngineOptions) (disk : Disk) :
    Legible EngineError.message (openAt path options disk).1 := by
  have hnamed : ∀ {e : EngineError}, e.foreign = [path] → Text.ZeroFree e.message := fun hforeign =>
    EngineError.zeroFree_message fun _ hmem => List.mem_singleton.mp (hforeign ▸ hmem) ▸ hpath
  unfold openAt
  dsimp only
  split
  · exact legible_error (hnamed rfl)
  split
  · exact legible_error (hnamed rfl)
  split
  · exact legible_error (EngineError.zeroFree_ofSystem _)
  · split
    · exact legible_enter hpath _ _
    · exact legible_error (hnamed rfl)

end Directory

theorem FileLog.legible_openAt (path : String) (disk : Disk) : Legible EngineError.message (openAt path disk).1 := by
  unfold openAt
  split
  · exact legible_error (EngineError.zeroFree_ofSystem _)
  · exact legible_ok _

variable {media : Media}

namespace Connection

theorem shows_openHandle (h : media.Legible) (path : Option String) (options : EngineOptions) (handle : LogHandle) :
    Shows EngineError.message Media.Legible (openHandle path options handle media) := by
  unfold openHandle
  obtain ⟨e, log, hopen, hmessage, hlog⟩ | ⟨c, hopen, hlog⟩ := Medium.answers.openOn path options
    (show (Medium.mk handle media).media.Legible from h)
  · rw [hopen]
    exact shows_error hmessage hlog
  · rw [hopen]
    exact shows_ok _ hlog

theorem shows_openDirectory (h : media.Legible) {path : String} (hpath : Text.ZeroFree path)
    (options : EngineOptions) : Shows EngineError.message Media.Legible (openDirectory path options media) := by
  have hdirectory := Directory.legible_openAt hpath options media.disk
  unfold openDirectory
  split
  · rename_i e hinvalid
    exact shows_error (options.legible_validate e hinvalid) h
  split
  · rename_i e disk hfailed
    exact shows_error (hdirectory e (congrArg Prod.fst hfailed)) h
  · rename_i dir disk _
    have hfile := FileLog.legible_openAt (Directory.logPath path) disk
    split
    · rename_i e disk' hfailed
      exact shows_error (hfile e (congrArg Prod.fst hfailed)) h
    · rename_i log disk' _
      have hmedia : Media.Legible { media with disk := disk' } := h
      exact shows_openHandle hmedia _ options _

end Connection

namespace Store

theorem shows_ofOpening {path : Option String} (hpath : Text.ZeroFree (path.getD memoryPath)) (options : Options)
    {r : Except EngineError DetachedConnection × Media} (hr : Shows EngineError.message Media.Legible r) :
    Shows StoreError.message Media.Legible (ofOpening path options r) := by
  unfold ofOpening
  split
  · exact shows_ok _ hr.state
  · rename_i e media
    exact shows_error (StoreError.zeroFree_ofOpen hpath (hr.legible e rfl)) hr.state

theorem shows_openMemory (h : media.Legible) (options : Options) :
    Shows StoreError.message Media.Legible (openMemory options media) :=
  shows_ofOpening (by decide) options (Connection.shows_openHandle h none options.lower _)

theorem shows_openDirectory (h : media.Legible) {path : String} (hpath : Text.ZeroFree path) (options : Options) :
    Shows StoreError.message Media.Legible (openDirectory path options media) :=
  shows_ofOpening (show Text.ZeroFree ((some path).getD memoryPath) from hpath) options
    (Connection.shows_openDirectory h hpath options.lower)

end Store

end OrderedStore
