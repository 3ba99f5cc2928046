import OrderedStore.Proofs.Directory

/-!
# One connection for each store directory

A host opens connections to store directories, writes through them, closes and drops them. The file `LOCK` of a
directory says which folder a connection is on: the lock on it is held by the one open connection there, from the
attempt that has taken it to the closing.

* `Host.step`, `Host.run`: what calls and changes of the media lead to;
* `Host.Owns`, `Host.On`: the lock that an open connection holds, the folder that it is on;
* `Host.Undisturbed`: nobody else takes a held `LOCK` file away;
* `Exclusive`, `exclusive_step`, `exclusive_run`: locks are held by open connections, each by one of them.
-/

namespace OrderedStore

/-- The locked file of the directory that a log is in. -/
def LogHandle.lock? : LogHandle → Option FileId
  | directory dir _ => some dir.lock
  | _ => none

/-- What is asked of a host. Connections are named by their numbers. -/
inductive HostCall where
  /-- Opens the store directory at a path. -/
  | open (path : String) (options : EngineOptions)
  | write (n : Nat) (w : Write)
  | close (n : Nat)
  | drop (n : Nat)

inductive HostAnswer where
  /-- The number of a new connection. -/
  | opened (result : Except EngineError Nat)
  | done (result : Except EngineError Unit)
  | dropped
  /-- There is no such connection. -/
  | noConnection

/-- The error of an answer, if any. -/
def HostAnswer.error? : HostAnswer → Option EngineError
  | opened (.error e) | done (.error e) => some e
  | _ => none

inductive HostEvent where
  | call (q : HostCall)
  /-- The media change by themselves. -/
  | change (f : Media → Media)

/-- Media and the connections that have been opened on them, in order. -/
structure Host where
  media : Media
  connections : List DetachedConnection

namespace Host

/-- Runs one operation of a connection. -/
def ask (h : Host) (n : Nat) (op : Connection Medium → HostAnswer × Connection Medium) : HostAnswer × Host :=
  match h.connections[n]? with
  | none => (.noConnection, h)
  | some c =>
    let (answer, c, media) := c.onMedia h.media op
    (answer, ⟨media, h.connections.set n c⟩)

def step (h : Host) : HostCall → HostAnswer × Host
  | .open path options =>
    match Connection.openDirectory path options h.media with
    | (.error e, media) => (.opened (.error e), { h with media })
    | (.ok c, media) => (.opened (.ok h.connections.length), ⟨media, h.connections ++ [c]⟩)
  | .write n w => h.ask n fun c => let (result, c) := c.write w; (.done result, c)
  | .close n => h.ask n fun c => let (result, c) := c.close; (.done result, c)
  | .drop n => h.ask n fun c => (.dropped, c.drop)

/-- The host after an event. -/
def next (h : Host) : HostEvent → Host
  | .call q => (h.step q).2
  | .change f => { h with media := f h.media }

/-- The host after events. -/
def run (h : Host) (events : List HostEvent) : Host := events.foldl next h

/-- Connection `n` has been opened and not been closed since. -/
def IsOpen (h : Host) (n : Nat) : Prop := ∃ c, h.connections[n]? = some c ∧ c.isOpen = true

/-- Connection `n` is open on a directory whose locked file is `id`. -/
def Owns (h : Host) (n : Nat) (id : FileId) : Prop :=
  ∃ c, h.connections[n]? = some c ∧ c.isOpen = true ∧ c.log.lock? = some id

/-- Connection `n` is open on the folder `place`. -/
def On (h : Host) (n : Nat) (place : FolderId) : Prop :=
  ∃ id, h.Owns n id ∧ h.media.disk.node? place "LOCK" = some (.file id)

/-- Changes of the media leave the disk sound, locks as they are, and a locked file `LOCK` where it is. -/
def Undisturbed (h : Host) : List HostEvent → Prop
  | [] => True
  | .call q :: events => (h.next (.call q)).Undisturbed events
  | .change f :: events =>
    ((f h.media).disk.Sound ∧ (f h.media).disk.locks = h.media.disk.locks ∧
      ∀ place, ∀ id ∈ h.media.disk.locks, h.media.disk.node? place "LOCK" = some (.file id) →
        (f h.media).disk.node? place "LOCK" = some (.file id)) ∧ (h.next (.change f)).Undisturbed events

/-! ## Operations of one connection -/

variable {h h' : Host} {n m : Nat} {id : FileId} {place : FolderId}

/-- A connection that is open is on the log of a directory. -/
def Seated (c : DetachedConnection) : Prop :=
  ∃ dir log path, c.log = .directory dir log ∧ log.path = Directory.logPath path

/-- What the log of an open connection preserves. -/
theorem preserves_log {dir : Directory} {log : FileLog} {path : String} (hpath : log.path = Directory.logPath path)
    (d : Disk) : LogStorage.Preserves fun m : Medium =>
      ∃ log', m.handle = .directory dir log' ∧ log'.path = log.path ∧ d.Keeps "LOCK" m.media.disk :=
  hpath ▸ Medium.preserves dir d (Directory.getLast?_split_logPath_ne path) (Directory.getLast?_split_sibling_ne path)

/-- A write leaves the connection open on its directory, and keeps locks and their files. -/
theorem write_seated {c : DetachedConnection} (hseated : Seated c) {media : Media} (hs : media.disk.Sound) (w : Write)
    {result : Except EngineError Unit} {c' : Connection Medium} (hwrite : (c.attach media).write w = (result, c')) :
    c'.isOpen = c.isOpen ∧ Seated c'.detach ∧ c'.detach.log.lock? = c.log.lock? ∧
      media.disk.Keeps "LOCK" c'.log.media.disk := by
  obtain ⟨dir, log, path, hlog, hpath⟩ := hseated
  have hkept := (preserves_log hpath media.disk).write (c := c.attach media) w ⟨log, hlog, rfl, hs.keeps_refl⟩
  rw [hwrite] at hkept
  obtain ⟨log', hhandle, hpath', hkeeps⟩ := hkept
  refine ⟨(Connection.timeline_write hwrite).1, ⟨dir, log', path, hhandle, hpath'.trans hpath⟩, ?_, hkeeps⟩
  rw [hlog]
  exact (congrArg LogHandle.lock? hhandle).trans rfl

/-- A closing gives the lock of the directory back, whether the log could be compacted or not. -/
theorem close_seated {c : DetachedConnection} (hseated : Seated c) (hopen : c.isOpen = true) {media : Media}
    (hs : media.disk.Sound) : ∃ lock inside, c.log.lock? = some lock ∧ media.disk.Keeps "LOCK" inside ∧
      (c.attach media).close.2.log.media.disk = inside.unlock lock := by
  obtain ⟨dir, log, path, hlog, hpath⟩ := hseated
  have hkept := (preserves_log hpath media.disk).compact (c := c.attach media) ⟨log, hlog, rfl, hs.keeps_refl⟩
  obtain ⟨log', hhandle, -, hkeeps⟩ := hkept
  refine ⟨dir.lock, (c.attach media).compact.2.media.disk, congrArg LogHandle.lock? hlog, hkeeps, ?_⟩
  have hattached : (c.attach media).isOpen = true := hopen
  unfold Connection.close
  rw [hattached, Bool.not_true, if_neg Bool.false_ne_true]
  simp only [LogStorage.release, Medium.release, hhandle, Directory.close]

/-- An operation that leaves its connection as it is leaves the host as it is. -/
theorem ask_of_unchanged {c : DetachedConnection} (hc : h.connections[n]? = some c)
    {op : Connection Medium → HostAnswer × Connection Medium} (hop : (op (c.attach h.media)).2 = c.attach h.media) :
    (h.ask n op).2 = h := by
  obtain ⟨hlt, rfl⟩ := List.getElem?_eq_some_iff.mp hc
  simp only [ask, hc, Connection.onMedia, hop]
  exact congrArg (Host.mk h.media) (List.set_getElem_self hlt)

theorem owns_set {media : Media} {c : DetachedConnection} (hn : n < h.connections.length) :
    Owns ⟨media, h.connections.set n c⟩ m id ↔
      if m = n then c.isOpen = true ∧ c.log.lock? = some id else h.Owns m id := by
  unfold Owns
  rw [List.getElem?_set]
  by_cases hm : n = m
  · rw [if_pos hm, if_pos hn, if_pos hm.symm]
    simp
  · rw [if_neg hm, if_neg (Ne.symm hm)]

theorem owns_append {media : Media} {c : DetachedConnection} :
    Owns ⟨media, h.connections ++ [c]⟩ m id ↔
      m = h.connections.length ∧ c.isOpen = true ∧ c.log.lock? = some id ∨ h.Owns m id := by
  unfold Owns
  obtain hlt | rfl | hgt := Nat.lt_trichotomy m h.connections.length
  · rw [List.getElem?_append_left hlt]
    simp [Nat.ne_of_lt hlt]
  · rw [List.getElem?_concat_length]
    simp
  · have hnone : (h.connections ++ [c])[m]? = none := by
      rw [List.getElem?_eq_none]
      rwa [List.length_append]
    simp [hnone, Nat.ne_of_gt hgt, List.getElem?_eq_none (Nat.le_of_lt hgt)]

/-! ## Locks are held by open connections -/

/-- Every lock is that of an open connection, on a file `LOCK`, and no two connections share one. -/
structure Exclusive (h : Host) : Prop where
  sound : h.media.disk.Sound
  seated {n : Nat} {c : DetachedConnection} : h.connections[n]? = some c → c.isOpen = true → Seated c
  locked (id : FileId) : id ∈ h.media.disk.locks ↔ ∃ n, h.Owns n id
  placed {n : Nat} {id : FileId} : h.Owns n id → ∃ place, h.media.disk.node? place "LOCK" = some (.file id)
  alone {n m : Nat} {id : FileId} : h.Owns n id → h.Owns m id → n = m

/-- Other media on which the same locks are held, and connections that own the same files. -/
theorem Exclusive.congr (hx : h.Exclusive) (hsound : h'.media.disk.Sound)
    (hseated : ∀ {n : Nat} {c}, h'.connections[n]? = some c → c.isOpen = true → Seated c)
    (hlocks : h'.media.disk.locks = h.media.disk.locks) (howns : ∀ n id, h'.Owns n id ↔ h.Owns n id)
    (hfiles : ∀ {place}, ∀ id ∈ h.media.disk.locks, h.media.disk.node? place "LOCK" = some (.file id) →
      h'.media.disk.node? place "LOCK" = some (.file id)) : h'.Exclusive where
  sound := hsound
  seated := hseated
  locked id := by
    rw [hlocks, hx.locked]
    exact exists_congr fun n => (howns n id).symm
  placed hn := by
    have hn := (howns _ _).mp hn
    exact (hx.placed hn).imp fun _ => hfiles _ ((hx.locked _).mpr ⟨_, hn⟩)
  alone hn hm := hx.alone ((howns _ _).mp hn) ((howns _ _).mp hm)

theorem Exclusive.seated_set (hx : h.Exclusive) {c : DetachedConnection} (hc : c.isOpen = true → Seated c)
    {c' : DetachedConnection} (hm : (h.connections.set n c)[m]? = some c') (hopen : c'.isOpen = true) : Seated c' := by
  rw [List.getElem?_set] at hm
  split at hm
  · split at hm
    · cases hm
      exact hc hopen
    · cases hm
  · exact hx.seated hm hopen

/-- What one call does to the locks and their files. -/
theorem Exclusive.write (hx : h.Exclusive) (n : Nat) (w : Write) :
    (h.step (.write n w)).2.Exclusive ∧ h.media.disk.Keeps "LOCK" (h.step (.write n w)).2.media.disk ∧
      ∀ m id, (h.step (.write n w)).2.Owns m id ↔ h.Owns m id := by
  cases hc : h.connections[n]? with
  | none =>
    have hsame : (h.step (.write n w)).2 = h := by simp only [step, ask, hc]
    rw [hsame]
    exact ⟨hx, hx.sound.keeps_refl, fun _ _ => Iff.rfl⟩
  | some c =>
    have hlt : n < h.connections.length := (List.getElem?_eq_some_iff.mp hc).1
    by_cases hopen : c.isOpen = true
    · obtain ⟨result, c', hwrite⟩ : ∃ result c', (c.attach h.media).write w = (result, c') := ⟨_, _, rfl⟩
      obtain ⟨hopen', hseated, hlock, hkeeps⟩ := write_seated (hx.seated hc hopen) hx.sound w hwrite
      have hstep : (h.step (.write n w)).2 = ⟨c'.log.media, h.connections.set n c'.detach⟩ := by
        simp only [step, ask, hc, Connection.onMedia, hwrite]
      rw [hstep]
      have howns : ∀ m id, Owns ⟨c'.log.media, h.connections.set n c'.detach⟩ m id ↔ h.Owns m id := by
        intro m id
        rw [owns_set hlt]
        split
        · rename_i hm
          rw [hm, Owns, hc, hlock]
          simp [Connection.detach, Connection.mapLog, hopen']
        · exact Iff.rfl
      have hexclusive := hx.congr hkeeps.sound (hx.seated_set fun _ => hseated) hkeeps.locks howns
        fun _ _ hnode => hkeeps.files hnode
      exact ⟨hexclusive, hkeeps, howns⟩
    · have hclosed : (c.attach h.media).isOpen = false := Bool.not_eq_true _ ▸ hopen
      have hsame : (h.step (.write n w)).2 = h :=
        ask_of_unchanged hc (by rw [Connection.write_of_closed hclosed])
      rw [hsame]
      exact ⟨hx, hx.sound.keeps_refl, fun _ _ => Iff.rfl⟩

/-- Connection `n` has given up its lock, and nothing else has changed about locks and their files. -/
structure Closes (h : Host) (n : Nat) (h' : Host) : Prop where
  exclusive : h'.Exclusive
  owns (m : Nat) (id : FileId) : h'.Owns m id ↔ m ≠ n ∧ h.Owns m id
  closed : ¬h'.IsOpen n
  files {place : FolderId} {id : FileId} : h.media.disk.node? place "LOCK" = some (.file id) →
    h'.media.disk.node? place "LOCK" = some (.file id)

theorem Owns.isOpen (h : h'.Owns n id) : h'.IsOpen n := h.imp fun _ hc => ⟨hc.1, hc.2.1⟩

/-- A connection that is not open has no lock to give up. -/
theorem Exclusive.closes_of_not_isOpen (hx : h.Exclusive) (hclosed : ¬h.IsOpen n) : h.Closes n h where
  exclusive := hx
  owns m id := by
    refine ⟨fun howns => ⟨?_, howns⟩, And.right⟩
    rintro rfl
    exact hclosed howns.isOpen
  closed := hclosed
  files hnode := hnode

/-- An open connection that is replaced by a closed one, while its lock is given back. -/
theorem Exclusive.closes_set (hx : h.Exclusive) {c c' : DetachedConnection} (hc : h.connections[n]? = some c)
    (hopen : c.isOpen = true) {lock : FileId} (hlock : c.log.lock? = some lock) (hclosed : c'.isOpen = false)
    {inside : Disk} (hkeeps : h.media.disk.Keeps "LOCK" inside) {media : Media}
    (hdisk : media.disk = inside.unlock lock) : h.Closes n ⟨media, h.connections.set n c'⟩ := by
  have hlt : n < h.connections.length := (List.getElem?_eq_some_iff.mp hc).1
  have hn : h.Owns n lock := ⟨c, hc, hopen, hlock⟩
  have howns : ∀ m id, Owns ⟨media, h.connections.set n c'⟩ m id ↔ m ≠ n ∧ h.Owns m id := by
    intro m id
    rw [owns_set hlt]
    split
    · rename_i hm
      simp [hclosed, hm]
    · rename_i hm
      simp [hm]
  have hlocks : media.disk.locks = h.media.disk.locks.filter (· ≠ lock) := by
    rw [hdisk, Disk.unlock, hkeeps.locks]
  have hfiles : ∀ {place id}, h.media.disk.node? place "LOCK" = some (.file id) →
      media.disk.node? place "LOCK" = some (.file id) := by
    intro place id hnode
    rw [hdisk]
    exact hkeeps.files hnode
  refine {
    exclusive := {
      sound := hdisk ▸ hkeeps.sound.unlock lock
      seated := hx.seated_set fun hopen' => absurd (hopen'.symm.trans hclosed) (by decide)
      locked := fun id => ?_
      placed := fun hm => (hx.placed ((howns _ _).mp hm).2).imp fun _ => hfiles
      alone := fun hm hm' => hx.alone ((howns _ _).mp hm).2 ((howns _ _).mp hm').2 }
    owns := howns
    closed := ?_
    files := hfiles }
  · show id ∈ media.disk.locks ↔ _
    simp only [hlocks, List.mem_filter, hx.locked, howns, decide_eq_true_eq]
    constructor
    · rintro ⟨⟨m, hm⟩, hne⟩
      refine ⟨m, ?_, hm⟩
      rintro rfl
      obtain ⟨c'', hc'', -, hlock''⟩ := hm
      cases hc.symm.trans hc''
      exact hne (Option.some.inj (hlock''.symm.trans hlock))
    · rintro ⟨m, hne, hm⟩
      refine ⟨⟨m, hm⟩, ?_⟩
      rintro rfl
      exact hne (hx.alone hm hn)
  · rintro ⟨c'', hc'', hopen''⟩
    rw [List.getElem?_set_self hlt] at hc''
    cases hc''
    exact absurd (hopen''.symm.trans hclosed) (by decide)

/-- A closing, successful or not, gives up the lock of its connection. -/
theorem Exclusive.closes (hx : h.Exclusive) (n : Nat) : h.Closes n (h.step (.close n)).2 := by
  cases hc : h.connections[n]? with
  | none =>
    have hsame : (h.step (.close n)).2 = h := by simp only [step, ask, hc]
    rw [hsame]
    refine hx.closes_of_not_isOpen ?_
    rintro ⟨c, hsome, -⟩
    cases hc.symm.trans hsome
  | some c =>
    by_cases hopen : c.isOpen = true
    · obtain ⟨lock, inside, hlock, hkeeps, hdisk⟩ := close_seated (hx.seated hc hopen) hopen hx.sound
      simp only [step, ask, hc, Connection.onMedia]
      exact hx.closes_set hc hopen hlock (Connection.isOpen_close (c.attach h.media)) hkeeps hdisk
    · have hclosed : (c.attach h.media).isOpen = false := Bool.not_eq_true _ ▸ hopen
      have hsame : (h.step (.close n)).2 = h :=
        ask_of_unchanged hc (by rw [Connection.close_of_closed hclosed])
      rw [hsame]
      refine hx.closes_of_not_isOpen ?_
      rintro ⟨c', hsome, hopen'⟩
      cases hc.symm.trans hsome
      exact hopen hopen'

/-- Dropping a connection closes it. -/
theorem step_drop (h : Host) (n : Nat) : (h.step (.drop n)).2 = (h.step (.close n)).2 := by
  simp only [step, ask]
  split <;> rfl

/-- There is one more connection, which is open on the folder `place` and has taken a lock that was free. -/
structure Opens (h : Host) (lock : FileId) (place : FolderId) (h' : Host) : Prop where
  exclusive : h'.Exclusive
  owns (m : Nat) (id : FileId) : h'.Owns m id ↔ m = h.connections.length ∧ id = lock ∨ h.Owns m id
  on : h'.On h.connections.length place
  files {place : FolderId} {id : FileId} : h.media.disk.node? place "LOCK" = some (.file id) →
    h'.media.disk.node? place "LOCK" = some (.file id)

theorem Exclusive.opens_append (hx : h.Exclusive) {c : DetachedConnection} (hopen : c.isOpen = true)
    (hseated : Seated c) {lock : FileId} (hlock : c.log.lock? = some lock) {opened : Disk}
    (hopened : h.media.disk.Keeps "LOCK" opened) (hfree : lock ∉ opened.locks) {media : Media}
    (hkeeps : (opened.lock lock).Keeps "LOCK" media.disk) (hplace : opened.node? place "LOCK" = some (.file lock)) :
    h.Opens lock place ⟨media, h.connections ++ [c]⟩ := by
  have howns : ∀ m id, Owns ⟨media, h.connections ++ [c]⟩ m id ↔
      m = h.connections.length ∧ id = lock ∨ h.Owns m id := by
    intro m id
    rw [owns_append, hlock, Option.some.injEq]
    simp only [hopen, true_and, eq_comm]
  have hnone : ∀ m, ¬h.Owns m lock := by
    intro m hm
    have hheld : lock ∈ h.media.disk.locks := (hx.locked lock).mpr ⟨m, hm⟩
    exact hfree (hopened.locks ▸ hheld)
  refine {
    exclusive := {
      sound := hkeeps.sound
      seated := fun {m c'} hm hopen' => ?_
      locked := fun id => ?_
      placed := fun {m id} hm => ?_
      alone := fun {n m id} hn hm => ?_ }
    owns := howns
    on := ⟨lock, (howns _ _).mpr (.inl ⟨rfl, rfl⟩), hkeeps.files hplace⟩
    files := fun hnode => hkeeps.files (hopened.files hnode) }
  · rw [List.getElem?_append] at hm
    split at hm
    · exact hx.seated hm hopen'
    · obtain rfl : c' = c := List.mem_singleton.mp (List.mem_of_getElem? hm)
      exact hseated
  · show id ∈ media.disk.locks ↔ _
    simp only [hkeeps.locks, Disk.lock, List.mem_cons, hopened.locks, hx.locked, howns]
    constructor
    · rintro (rfl | ⟨m, hm⟩)
      · exact ⟨_, .inl ⟨rfl, rfl⟩⟩
      · exact ⟨m, .inr hm⟩
    · rintro ⟨m, ⟨-, rfl⟩ | hm⟩
      · exact .inl rfl
      · exact .inr ⟨m, hm⟩
  · obtain ⟨-, rfl⟩ | hm := (howns _ _).mp hm
    · exact ⟨place, hkeeps.files hplace⟩
    · exact (hx.placed hm).imp fun _ hnode => hkeeps.files (hopened.files hnode)
  · obtain ⟨rfl, rfl⟩ | hn := (howns _ _).mp hn
    · obtain ⟨rfl, -⟩ | hm := (howns _ _).mp hm
      · rfl
      · exact absurd hm (hnone m)
    · obtain ⟨-, rfl⟩ | hm := (howns _ _).mp hm
      · exact absurd hn (hnone n)
      · exact hx.alone hn hm

/-- An attempt fails, and leaves connections and locks as they are; or there is one more connection, on the folder to
which the path leads. -/
theorem Exclusive.attempt (hx : h.Exclusive) (path : String) (options : EngineOptions) :
    (∃ e, (h.step (.open path options)).1 = .opened (.error e) ∧
        (h.step (.open path options)).2.connections = h.connections ∧
        h.media.disk.Keeps "LOCK" (h.step (.open path options)).2.media.disk ∧
        ∀ p, e = .locked p ↔ p = path ∧ options.validate = .ok () ∧
          ∃ lock opened, Directory.Reaches path options h.media.disk lock opened ∧ lock ∈ opened.locks) ∨
      ∃ lock opened place, (h.step (.open path options)).1 = .opened (.ok h.connections.length) ∧
        Directory.Reaches path options h.media.disk lock opened ∧ lock ∉ opened.locks ∧
        (h.step (.open path options)).2.media.disk.find path = .ok (.directory place) ∧
        h.Opens lock place (h.step (.open path options)).2 := by
  obtain ⟨result, media, hresult⟩ : ∃ result media,
      Connection.openDirectory path options h.media = (result, media) := ⟨_, _, rfl⟩
  simp only [step, hresult]
  obtain ⟨e, rfl, hkeeps, hlocked⟩ | ⟨c, lock, opened, log, rfl, -, hreach, hfree, hopen, -, hlog, hpath, hkeeps⟩ :=
    Connection.openDirectory_cases hx.sound hresult
  · exact .inl ⟨e, rfl, rfl, hkeeps, hlocked⟩
  · obtain ⟨place, hfind, hplace⟩ := hreach.place hx.sound
    have hopened : h.media.disk.Keeps "LOCK" opened := hreach.keeps hx.sound
    refine .inr ⟨lock, opened, place, rfl, hreach, hfree, ?_, ?_⟩
    · exact hkeeps.toExtends.find_directory (hopened.sound.lock lock) ((Disk.find_lock ..).trans hfind)
    · exact hx.opens_append hopen ⟨_, log, path, hlog, hpath⟩ (congrArg LogHandle.lock? hlog) hopened hfree hkeeps
        hplace

/-! ## Events and runs -/

theorem Owns.unique {id' : FileId} (hn : h.Owns n id) (hn' : h.Owns n id') : id' = id := by
  obtain ⟨c, hc, -, hlock⟩ := hn
  obtain ⟨c', hc', -, hlock'⟩ := hn'
  cases hc.symm.trans hc'
  exact Option.some.inj (hlock'.symm.trans hlock)

theorem Exclusive.exists_owns (hx : h.Exclusive) (hopen : h.IsOpen n) : ∃ id, h.Owns n id := by
  obtain ⟨c, hc, hopen⟩ := hopen
  obtain ⟨dir, log, path, hlog, -⟩ := hx.seated hc hopen
  exact ⟨dir.lock, c, hc, hopen, congrArg LogHandle.lock? hlog⟩

theorem IsOpen.lt_length (hn : h.IsOpen n) : n < h.connections.length := by
  obtain ⟨c, hc, -⟩ := hn
  exact (List.getElem?_eq_some_iff.mp hc).1

theorem owns_congr (hconnections : h'.connections = h.connections) : h'.Owns n id ↔ h.Owns n id := by
  rw [Owns, Owns, hconnections]

/-- What an event does to the locks and their files. -/
structure Follows (h h' : Host) : Prop where
  exclusive : h'.Exclusive
  /-- A connection that is there already is not opened again. -/
  owns {n : Nat} {id : FileId} : n < h.connections.length → h'.Owns n id → h.Owns n id
  length : h.connections.length ≤ h'.connections.length
  files {n : Nat} {id : FileId} {place : FolderId} : h.Owns n id →
    h.media.disk.node? place "LOCK" = some (.file id) → h'.media.disk.node? place "LOCK" = some (.file id)

theorem length_ask_le (h : Host) (n : Nat) (op : Connection Medium → HostAnswer × Connection Medium) :
    h.connections.length ≤ (h.ask n op).2.connections.length := by
  unfold ask
  split
  · exact Nat.le_refl _
  · exact Nat.le_of_eq (List.length_set ..).symm

theorem follows_step (hx : h.Exclusive) (q : HostCall) : h.Follows (h.step q).2 := by
  cases q with
  | «open» path options =>
    obtain ⟨e, -, hconnections, hkeeps, -⟩ | ⟨lock, opened, place, -, -, -, -, hopens⟩ := hx.attempt path options
    · exact {
        exclusive := hx.congr hkeeps.sound (fun {n c} hc => hx.seated (hconnections ▸ hc)) hkeeps.locks
          (fun n id => owns_congr hconnections) fun _ _ hnode => hkeeps.files hnode
        owns := fun _ howns => (owns_congr hconnections).mp howns
        length := Nat.le_of_eq (congrArg List.length hconnections).symm
        files := fun _ hnode => hkeeps.files hnode }
    · obtain ⟨id, howns, -⟩ := hopens.on
      exact {
        exclusive := hopens.exclusive
        owns := fun hn howns => ((hopens.owns _ _).mp howns).resolve_left fun hnew => Nat.ne_of_lt hn hnew.1
        length := Nat.le_of_lt howns.isOpen.lt_length
        files := fun _ hnode => hopens.files hnode }
  | write n w =>
    obtain ⟨hexclusive, hkeeps, howns⟩ := hx.write n w
    exact {
      exclusive := hexclusive
      owns := fun _ => (howns _ _).mp
      length := length_ask_le ..
      files := fun _ hnode => hkeeps.files hnode }
  | close n =>
    have hcloses := hx.closes n
    exact {
      exclusive := hcloses.exclusive
      owns := fun _ howns => ((hcloses.owns _ _).mp howns).2
      length := length_ask_le ..
      files := fun _ hnode => hcloses.files hnode }
  | drop n =>
    have hcloses := hx.closes n
    rw [← step_drop] at hcloses
    exact {
      exclusive := hcloses.exclusive
      owns := fun _ howns => ((hcloses.owns _ _).mp howns).2
      length := length_ask_le ..
      files := fun _ hnode => hcloses.files hnode }

theorem follows_next (hx : h.Exclusive) {event : HostEvent} {events : List HostEvent}
    (hundisturbed : h.Undisturbed (event :: events)) :
    h.Follows (h.next event) ∧ (h.next event).Undisturbed events := by
  cases event with
  | call q => exact ⟨follows_step hx q, hundisturbed⟩
  | change f =>
    obtain ⟨⟨hsound, hlocks, hfiles⟩, hrest⟩ := hundisturbed
    refine ⟨?_, hrest⟩
    exact {
      exclusive := hx.congr hsound hx.seated hlocks (fun _ _ => Iff.rfl) fun {place} => hfiles place
      owns := fun _ howns => howns
      length := Nat.le_refl _
      files := fun howns hnode => hfiles _ _ ((hx.locked _).mpr ⟨_, howns⟩) hnode }

theorem exclusive_run (hx : h.Exclusive) {events : List HostEvent} (hundisturbed : h.Undisturbed events) :
    (h.run events).Exclusive := by
  induction events generalizing h with
  | nil => exact hx
  | cons event events ih =>
    obtain ⟨hfollows, hrest⟩ := follows_next hx hundisturbed
    exact ih hfollows.exclusive hrest

/-- A connection that is open at the end has been open since it was there. -/
theorem owns_of_run (hx : h.Exclusive) {events : List HostEvent} (hundisturbed : h.Undisturbed events)
    (hn : n < h.connections.length) (howns : (h.run events).Owns n id) : h.Owns n id := by
  induction events generalizing h with
  | nil => exact howns
  | cons event events ih =>
    obtain ⟨hfollows, hrest⟩ := follows_next hx hundisturbed
    exact hfollows.owns hn (ih hfollows.exclusive hrest (Nat.lt_of_lt_of_le hn hfollows.length) howns)

/-- Its lock is on the file it was on. -/
theorem node?_run (hx : h.Exclusive) {events : List HostEvent} (hundisturbed : h.Undisturbed events)
    (hn : n < h.connections.length) (howns : (h.run events).Owns n id)
    (hnode : h.media.disk.node? place "LOCK" = some (.file id)) :
    (h.run events).media.disk.node? place "LOCK" = some (.file id) := by
  induction events generalizing h with
  | nil => exact hnode
  | cons event events ih =>
    have hstart := owns_of_run hx hundisturbed hn howns
    obtain ⟨hfollows, hrest⟩ := follows_next hx hundisturbed
    exact ih hfollows.exclusive hrest (Nat.lt_of_lt_of_le hn hfollows.length) howns (hfollows.files hstart hnode)

/-- It is on the folder it was on. -/
theorem on_run (hx : h.Exclusive) {events : List HostEvent} (hundisturbed : h.Undisturbed events) (hon : h.On n place)
    (hopen : (h.run events).IsOpen n) : (h.run events).On n place := by
  obtain ⟨id, howns, hnode⟩ := hon
  obtain ⟨id', howns'⟩ := (exclusive_run hx hundisturbed).exists_owns hopen
  have hlt := howns.isOpen.lt_length
  cases howns.unique (owns_of_run hx hundisturbed hlt howns')
  exact ⟨_, howns', node?_run hx hundisturbed hlt howns' hnode⟩

theorem exclusive_start (hsound : h.media.disk.Sound) (hlocks : h.media.disk.locks = []) (hnone : h.connections = []) :
    h.Exclusive := by
  have howns : ∀ n id, ¬h.Owns n id := by
    rintro n id ⟨c, hc, -⟩
    rw [hnone] at hc
    cases hc
  exact {
    sound := hsound
    seated := fun {n c} hc => by
      rw [hnone] at hc
      cases hc
    locked := fun id => by
      rw [hlocks]
      exact ⟨fun hmem => (by cases hmem), fun ⟨n, hn⟩ => absurd hn (howns n id)⟩
    placed := fun {n id} hn => absurd hn (howns n id)
    alone := fun {n m id} hn => absurd hn (howns n id) }

/-- Two connections on one folder are the same. -/
theorem Exclusive.on_unique (hx : h.Exclusive) (hn : h.On n place) (hm : h.On m place) : n = m := by
  obtain ⟨id, howns, hnode⟩ := hn
  obtain ⟨id', howns', hnode'⟩ := hm
  cases hnode.symm.trans hnode'
  exact hx.alone howns howns'

/-- The lock that an attempt reaches is held exactly if a connection is open on the folder. -/
theorem Exclusive.held_iff (hx : h.Exclusive) {path : String} {options : EngineOptions} {lock : FileId} {opened : Disk}
    (hreach : Directory.Reaches path options h.media.disk lock opened) :
    lock ∈ opened.locks ↔ ∃ n place, h.On n place ∧ opened.find path = .ok (.directory place) := by
  have hopened : h.media.disk.Keeps "LOCK" opened := hreach.keeps hx.sound
  obtain ⟨place, hfind, hplace⟩ := hreach.place hx.sound
  rw [hopened.locks, hx.locked]
  constructor
  · rintro ⟨n, hn⟩
    obtain ⟨place', hnode⟩ := hx.placed hn
    -- no two names stand for one file
    obtain rfl := (hopened.sound.alone hplace (hopened.files hnode)).1
    exact ⟨n, place, ⟨lock, hn, hnode⟩, hfind⟩
  · rintro ⟨n, place', ⟨id, howns, hnode⟩, hfind'⟩
    cases hfind.symm.trans hfind'
    cases hplace.symm.trans (hopened.files hnode)
    exact ⟨n, howns⟩

/-- A change that keeps locks and their files disturbs nobody. -/
theorem undisturbed_change {f : Media → Media} {events : List HostEvent}
    (hkeeps : h.media.disk.Keeps "LOCK" (f h.media).disk) (hrest : (h.next (.change f)).Undisturbed events) :
    h.Undisturbed (.change f :: events) :=
  ⟨⟨hkeeps.sound, hkeeps.locks, fun _ _ _ => hkeeps.files⟩, hrest⟩

theorem undisturbed_append {before after : List HostEvent} (h' : h.Undisturbed (before ++ after)) :
    h.Undisturbed before ∧ (h.run before).Undisturbed after := by
  induction before generalizing h with
  | nil => exact ⟨trivial, h'⟩
  | cons event before ih =>
    cases event with
    | call q => exact ih h'
    | change f => exact ⟨⟨h'.1, (ih h'.2).1⟩, (ih h'.2).2⟩

/-- **One connection for each store directory.** Start with no locks and no connections, and let the host open, write,
close and drop, while nobody else takes a locked `LOCK` file away. Then at any time

* no two connections are open on one folder;
* an attempt that reaches the lock of its directory fails as locked exactly if a connection is open on the folder to
  which its path leads;
* an attempt that fails leaves connections and locks as they are;
* the lock of a connection that is closed or dropped is free again, whether the closing reports an error or not;
* a lock is held exactly if an open connection owns it;
* a connection that has been opened at a path and is still open is on the folder to which the path led. -/
theorem one_connection_per_directory (hsound : h.media.disk.Sound) (hlocks : h.media.disk.locks = [])
    (hnone : h.connections = []) {events : List HostEvent} (hundisturbed : h.Undisturbed events) :
    let host := h.run events
    (∀ n m place, host.On n place → host.On m place → n = m) ∧
      (∀ path options lock opened, options.validate = .ok () →
        Directory.Reaches path options host.media.disk lock opened →
          ((host.step (.open path options)).1 = .opened (.error (.locked path)) ↔
            ∃ n place, host.On n place ∧ opened.find path = .ok (.directory place))) ∧
      (∀ path options e, (host.step (.open path options)).1 = .opened (.error e) →
        (host.step (.open path options)).2.connections = host.connections ∧
          (host.step (.open path options)).2.media.disk.locks = host.media.disk.locks) ∧
      (∀ n id q, host.Owns n id → q = .close n ∨ q = .drop n →
        ¬(host.step q).2.IsOpen n ∧ (host.step q).2.media.disk.isLocked id = false) ∧
      (∀ id, host.media.disk.isLocked id = true ↔ ∃ n, host.Owns n id) ∧
      ∀ before after path options n, events = before ++ .call (.open path options) :: after →
        ((h.run before).step (.open path options)).1 = .opened (.ok n) → host.IsOpen n →
          ∃ place, ((h.run before).step (.open path options)).2.media.disk.find path = .ok (.directory place) ∧
            host.On n place := by
  intro host
  have hstart := exclusive_start hsound hlocks hnone
  have hx : host.Exclusive := exclusive_run hstart hundisturbed
  have hheld : ∀ {h : Host}, h.Exclusive → ∀ id, h.media.disk.isLocked id = true ↔ ∃ n, h.Owns n id := by
    intro h hx id
    rw [Disk.isLocked, List.contains_iff_mem, hx.locked]
  refine ⟨fun n m place => hx.on_unique, ?_, ?_, ?_, hheld hx, ?_⟩
  · intro path options lock opened hvalid hreach
    rw [← hx.held_iff hreach]
    obtain ⟨e, hanswer, -, -, hlocked⟩ | ⟨lock', opened', place, hanswer, hreach', hfree, -⟩ := hx.attempt path options
    · rw [hanswer]
      constructor
      · intro heq
        cases heq
        obtain ⟨-, -, lock', opened', hreach', hmem⟩ := (hlocked path).mp rfl
        obtain ⟨rfl, rfl⟩ := hreach.unique hreach'
        exact hmem
      · intro hmem
        rw [(hlocked path).mpr ⟨rfl, hvalid, lock, opened, hreach, hmem⟩]
    · obtain ⟨rfl, rfl⟩ := hreach.unique hreach'
      rw [hanswer]
      refine ⟨fun heq => ?_, fun hmem => absurd hmem hfree⟩
      cases heq
  · intro path options e hanswer
    obtain ⟨-, -, hconnections, hkeeps, -⟩ | ⟨-, -, -, hok, -⟩ := hx.attempt path options
    · exact ⟨hconnections, hkeeps.locks⟩
    · cases hanswer.symm.trans hok
  · rintro n id q howns hq
    have hcloses : host.Closes n (host.step q).2 := by
      obtain rfl | rfl := hq
      · exact hx.closes n
      · exact step_drop host n ▸ hx.closes n
    refine ⟨hcloses.closed, Bool.eq_false_iff.mpr fun hlocked => ?_⟩
    obtain ⟨m, hm⟩ := (hheld hcloses.exclusive id).mp hlocked
    obtain ⟨hne, hm⟩ := (hcloses.owns m id).mp hm
    exact hne (hx.alone hm howns)
  · rintro before after path options n rfl hanswer hopen
    obtain ⟨hbefore, hafter⟩ := undisturbed_append hundisturbed
    have hmiddle := exclusive_run hstart hbefore
    obtain ⟨e, herror, -⟩ | ⟨lock, opened, place, hok, -, -, hfind, hopens⟩ := hmiddle.attempt path options
    · cases herror.symm.trans hanswer
    · cases hok.symm.trans hanswer
      refine ⟨place, hfind, ?_⟩
      have hrun : host = ((h.run before).step (.open path options)).2.run after := List.foldl_append ..
      rw [hrun] at hopen ⊢
      exact on_run hopens.exclusive hafter hopens.on hopen

/-- A second attempt finds the lock held. The closing fails, as the log cannot be compacted, and frees it for a third
one. -/
theorem one_connection_per_directory_reopened :
    let host : Host := ⟨{}, []⟩
    let jam : HostEvent := .change fun media => { media with disk := (media.disk.makeDirectories "db/LOG.tmp").2 }
    let before : List HostEvent := [.call (.open "db" {}), jam]
    let events := before ++ [.call (.open "db/." {}), .call (.close 0), .call (.open "db" {})]
    host.media.disk.Sound ∧ host.media.disk.locks = [] ∧ host.connections = [] ∧ host.Undisturbed events ∧
      ((host.run before).step (.open "db/." {})).1.error? = some (.locked "db/.") ∧
      ((host.run before).step (.close 0)).1.error? = some (.ofSystem .isADirectory) ∧
      (((host.run before).step (.close 0)).2.step (.open "db" {})).1.error? = none ∧
      (∀ n m place, (host.run events).On n place → (host.run events).On m place → n = m) ∧
      ∀ id, (host.run events).media.disk.isLocked id = true ↔ ∃ n, (host.run events).Owns n id := by
  intro host jam before events
  have hsound : host.media.disk.Sound := Disk.sound_empty
  have hopened : (host.step (.open "db" {})).2.Exclusive :=
    (follows_step (exclusive_start hsound rfl rfl) _).exclusive
  have hjam : ∀ {d : Disk}, d.Sound → d.Keeps "LOCK" (d.makeDirectories "db/LOG.tmp").2 :=
    fun hs => hs.keeps_makeDirectories (Prod.eta _).symm
  have hundisturbed : host.Undisturbed events := by
    show (host.step (.open "db" {})).2.Undisturbed (jam :: _)
    exact undisturbed_change (hjam hopened.sound) True.intro
  obtain ⟨hunique, -, -, -, hlocked, -⟩ := one_connection_per_directory hsound rfl rfl hundisturbed
  exact ⟨hsound, rfl, rfl, hundisturbed, by decide +kernel, by decide +kernel, by decide +kernel, hunique, hlocked⟩

end Host

end OrderedStore
