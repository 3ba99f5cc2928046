import OrderedStore.Proofs.Compaction
import OrderedStore.Proofs.Locks

/-!
# A failing close loses nothing

A closing compacts the log and makes it durable. Either may fail: then the log has what it had, or the compacted
records, and both recover to what was current. The connection is closed and the directory given back all the same.

* `Connection.close_cases`: how a closing ends, by what the two calls of the storage give;
* `Connection.isLocked_close`: the lock of the directory is given back;
* `Recovers.close`: the log of a connection recovers to its contents, closed or not;
* `Connection.refuses_of_closed`, `Session.closed_run`: nothing happens to a connection that is closed;
* `Session.failing_close_loses_nothing`: a whole session, up to the closing and on behind it.
-/

namespace OrderedStore

open LogStorage

namespace Connection

/-- A closing ends as its first call of the storage that fails, or well. -/
theorem close_cases {σ : Type} [LogStorage σ] {c : Connection σ} (hisOpen : c.isOpen = true) {frames : Bytes}
    (hframes : encodeLog c.compacted = .ok frames) :
    (∃ e kept, rewrite frames c.log = (.error e, kept) ∧ c.close.1 = .error e) ∨
      ∃ written, rewrite frames c.log = (.ok (), written) ∧ c.close.1 = (sync written).1 := by
  obtain ⟨result, log, hrewrite⟩ : ∃ result log, rewrite frames c.log = (result, log) := ⟨_, _, rfl⟩
  have hclose : c.close.1 = c.compact.1 := by
    rw [close, hisOpen]
    rfl
  cases result with
  | error e =>
    refine .inl ⟨e, log, hrewrite, hclose.trans ?_⟩
    simp only [compact, rewriteRecords, hframes, hrewrite]
  | ok =>
    refine .inr ⟨log, hrewrite, hclose.trans ?_⟩
    simp only [compact, rewriteRecords, hframes, hrewrite]

/-- What a connection does that is closed: it refuses every call, knows nothing, and is closed again at will. -/
structure Refuses {σ : Type} [LogStorage σ] (c : Connection σ) : Prop where
  get (key : Bytes) : c.get key = .error .closed
  write (w : Write) : c.write w = (.error .closed, c)
  openCursor : c.openCursor = (.error .closed, c)
  openView : c.openView = (.error .closed, c)
  property (name : String) : c.property name = none
  close : c.close = (.ok (), c)

theorem refuses_of_closed {σ : Type} [LogStorage σ] {c : Connection σ} (hclosed : c.isOpen = false) : c.Refuses where
  get key := by rw [Connection.get, ifOpen, if_neg (Bool.not_eq_true _ ▸ hclosed)]
  write w := write_of_closed hclosed w
  openCursor := if_neg (Bool.not_eq_true _ ▸ hclosed)
  openView := if_neg (Bool.not_eq_true _ ▸ hclosed)
  property name := by rw [Connection.property, hclosed, Bool.not_false, if_pos rfl]
  close := close_of_closed hclosed

end Connection

/-! ## Directories -/

/-- A closing gives the lock of the directory back, however it ends and whatever is on the disk. -/
theorem Connection.isLocked_close {c : Connection Medium} (hisOpen : c.isOpen = true) {id : FileId}
    (hlock : c.log.handle.lock? = some id) : c.close.2.log.media.disk.isLocked id = false := by
  obtain ⟨dir, log, hhandle, rfl⟩ : ∃ dir log, c.log.handle = .directory dir log ∧ dir.lock = id := by
    cases hhandle : c.log.handle with
    | directory dir log =>
      rw [hhandle] at hlock
      exact ⟨dir, log, rfl, Option.some.inj hlock⟩
    | _ =>
      rw [hhandle] at hlock
      cases hlock
  have hany : LogStorage.Preserves fun _ : FileOnDisk => True :=
    ⟨fun _ _ => trivial, fun _ => trivial, fun _ _ => trivial, fun _ _ => trivial⟩
  obtain ⟨log', hhandle', -⟩ := (hany.onDirectory dir).compact ⟨log, hhandle, trivial⟩
  have hdisk : c.close.2.log.media.disk = c.compact.2.media.disk.unlock dir.lock := by
    rw [Connection.close, hisOpen]
    simp only [Bool.not_true, Bool.false_eq_true, if_false, LogStorage.release, Medium.release, hhandle',
      Directory.close]
  rw [hdisk]
  simp [Disk.isLocked, Disk.unlock]

/-! ## What is recovered -/

/-- The log of a connection recovers to what is current behind a closing too, whatever of it fails. -/
theorem Recovers.close {σ : Type} [LogStorage σ] {holds : σ → Bytes → Prop} (h : Lawful holds) {c : Connection σ}
    {seq : Sequence} (hlog : Recovers holds c.log c.timeline.contents seq) :
    ∃ bytes rs, encodeLog rs = .ok bytes ∧ holds c.close.2.log bytes ∧
      (Timeline.ofRecords rs).contents = c.timeline.contents := by
  obtain ⟨rs, data, hdata, hs, hcontents, -⟩ := hlog
  obtain hold | ⟨compact, hcompact, hnew⟩ := Connection.holds_close h hs
  · exact ⟨data, rs, hdata, hold, hcontents⟩
  · exact ⟨compact, c.compacted, hcompact, hnew, c.contents_compacted⟩

namespace Session

variable {σ : Type} [LogStorage σ] {s : Session σ}

/-- What is current changes by the operations that are acknowledged, on any storage. -/
theorem contents_run (hpinned : s.Pinned) {events : List (Event σ)} (hseq : s.WritesBelow events) :
    (s.run events).connection.timeline.contents =
      s.connection.timeline.contents.writeAll (effects (s.trace events)) := by
  induction events generalizing s with
  | nil => rfl
  | cons event events ih =>
    cases event with
    | storage change => exact ih (s := s.next (.storage change)) hpinned hseq.2
    | request q =>
      have hstep := contents_step hpinned hseq.1
      have hrest := ih (s := (s.step q).2) (agrees_step hpinned hseq.1).2 hseq.2
      rw [hstep, ← KeyMap.writeAll_append] at hrest
      exact hrest

/-- While every write mends the log, it recovers to what is current. -/
theorem recovers_run_of_mendsAll {holds : σ → Bytes → Prop} (h : Lawful holds) {log : σ} {data : Bytes}
    (hs : holds log data) {path : Option String} {options : EngineOptions} {c : Connection σ}
    (hopen : Connection.openOn path options log = .ok c) {events : List (Event σ)} (hkeep : KeepsBytes holds events)
    (hmends : (start c).mendsAll events = true) (hseq : (start c).WritesBelow events)
    (hend : ((start c).run events).connection.isOpen = true) :
    ∃ seq, Recovers holds ((start c).run events).connection.log
      ((start c).run events).connection.timeline.contents seq := by
  obtain ⟨hbase, htimeline, -⟩ := Connection.holds_openOn h hs hopen
  obtain ⟨frames, hframes, hlog⟩ := holds_run_of_mendsAll h (s := start c) hbase hkeep hmends hend
  have hall := encodeLogWith_append_eq_ok_iff.mpr ⟨_, _, Replay.encodeLog_records data, hframes, rfl⟩
  refine ⟨_, _, _, hall, hlog, ?_, UInt64.le_refl _⟩
  have hcontents := contents_run (pinned_start hopen) hseq
  rw [hcontents, Timeline.contents_ofRecords, List.flatMap_append, KeyMap.writeAll_append, operations_acknowledged]
  show _ = c.timeline.contents.writeAll _
  rw [htimeline, Timeline.contents_ofRecords]

/-! ## Behind a closing -/

/-- A request to a closed connection has nothing to do with the log and with what is current. -/
theorem step_of_closed (hclosed : s.connection.isOpen = false) (q : Request) :
    (s.step q).2.connection.log = s.connection.log ∧ (s.step q).2.connection.isOpen = s.connection.isOpen ∧
      (s.step q).2.connection.sequence = s.connection.sequence ∧
      (s.step q).2.connection.timeline.contents = s.connection.timeline.contents := by
  by_cases hq : q.reads = true
  · exact s.step_of_reads hq
  cases q with
  | write w => simp only [step, Connection.write_of_closed hclosed, and_self]
  | close => simp only [step, Connection.close_of_closed hclosed, and_self]
  | drop => simp only [step, Connection.drop, Connection.close_of_closed hclosed, and_self]
  | _ => exact absurd rfl hq

/-- A connection that is closed stays so, and its log is not touched any more. -/
theorem closed_run {holds : σ → Bytes → Prop} {data : Bytes} (hclosed : s.connection.isOpen = false)
    (hs : holds s.connection.log data) {events : List (Event σ)} (hkeep : KeepsBytes holds events) :
    (s.run events).connection.isOpen = false ∧ holds (s.run events).connection.log data := by
  induction events generalizing s with
  | nil => exact ⟨hclosed, hs⟩
  | cons event events ih =>
    have hrest : KeepsBytes holds events := fun change hchange => hkeep change (List.mem_cons_of_mem _ hchange)
    cases event with
    | storage change => exact ih (s := s.next (.storage change)) hclosed (hkeep change List.mem_cons_self _ _ hs) hrest
    | request q =>
      obtain ⟨hlog, hisOpen, -⟩ := step_of_closed hclosed q
      exact ih (s := (s.step q).2) (hisOpen.trans hclosed) (hlog ▸ hs) hrest

/-- A session on any lawful log, in which every write so far has mended the log, is closed, and goes on in some way.

* The frames of the compacted records exist. The closing fails with the error of the rewriting, or else ends as the
  synchronisation does.
* From then on the connection refuses every call, and closing it again does nothing.
* All requests, before and behind the closing, are answered as if each reader owned a copy of what it saw first.
* A copy of what is in the log from then on is opened, in any mode, with the contents from before the closing.
* The lock of a directory that an open connection is on is free when it has been closed. -/
theorem failing_close_loses_nothing {holds : σ → Bytes → Prop} (h : Lawful holds) {log : σ} {data : Bytes}
    (hs : holds log data) {path : Option String} {options : EngineOptions} {c : Connection σ}
    (hopen : Connection.openOn path options log = .ok c) {events later : List (Event σ)}
    (hkeep : KeepsBytes holds (events ++ .request .close :: later)) (hmends : (start c).mendsAll events = true)
    (hseq : (start c).WritesBelow (events ++ .request .close :: later))
    (hisOpen : ((start c).run events).connection.isOpen = true) :
    let s := (start c).run events
    let t := (start c).run (events ++ .request .close :: later)
    (∃ frames, encodeLog s.connection.compacted = .ok frames ∧
      ((∃ e kept, rewrite frames s.connection.log = (.error e, kept) ∧ s.connection.close.1 = .error e) ∨
        ∃ written, rewrite frames s.connection.log = (.ok (), written) ∧
          s.connection.close.1 = (sync written).1)) ∧
    t.connection.Refuses ∧
    (Ideal.start c.timeline.contents).follow ((start c).trace (events ++ .request .close :: later)) =
      ((start c).trace (events ++ .request .close :: later)).map Prod.snd ∧
    (∃ bytes, holds t.connection.log bytes ∧
      ∀ {τ : Type} [LogStorage τ] {holds' : τ → Bytes → Prop}, Faithful holds' → ∀ copy : τ, holds' copy bytes →
        ∀ (path : Option String) (options : EngineOptions), options.validate = .ok () →
        ∃ d, Connection.openOn path options copy = .ok d ∧ ∀ key, d.get key = s.connection.get key) ∧
    ∀ (held : Connection Medium) (id : FileId), held.isOpen = true → held.log.handle.lock? = some id →
      held.close.2.log.media.disk.isLocked id = false := by
  intro s t
  have hbefore : KeepsBytes holds events := fun change hchange => hkeep change (List.mem_append_left _ hchange)
  have hlater : KeepsBytes holds later := fun change hchange =>
    hkeep change (List.mem_append_right _ (List.mem_cons_of_mem _ hchange))
  have hbelow : (start c).WritesBelow events := (sequencesSuffice_append.mp hseq).1
  have ht : t = (s.step .close).2.run later := run_append ..
  obtain ⟨seq, hrecovers⟩ := recovers_run_of_mendsAll h hs hopen hbefore hmends hbelow hisOpen
  have hloggable := loggable_run (s := start c) (Connection.loggable_openOn h hs hopen) events
  obtain ⟨frames, hframes⟩ := Connection.exists_compacted hloggable
  obtain ⟨bytes, rs, hbytes, hclosed, hcontents⟩ := hrecovers.close h
  obtain ⟨hstays, hlog⟩ := closed_run (s := (s.step .close).2) s.connection.isOpen_close hclosed hlater
  refine ⟨⟨frames, hframes, Connection.close_cases hisOpen hframes⟩, ?_, (readers_isolated hopen _ hseq).1,
    ⟨bytes, ht ▸ hlog, ?_⟩, fun held id hheld hlock => Connection.isLocked_close hheld hlock⟩
  · exact Connection.refuses_of_closed (ht ▸ hstays)
  · intro τ _ holds' h' copy hcopy path options hvalid
    refine ⟨_, Connection.openOn_encodeLog hbytes (h'.readAll_eq hcopy) hvalid, fun key => ?_⟩
    rw [Connection.get_of_isOpen rfl, Connection.get_of_isOpen hisOpen, hcontents]

/-- With a view and a key that is erased behind it: once the rewriting fails, once the synchronisation does, and the
sibling of the log in a directory cannot be written because it is a folder. -/
theorem failing_close_loses_nothing_faulty :
    let data : Bytes := [66, 76, 79, 71, 1, 0, 1, 18, 0, 0, 0, 7, 0, 0, 0, 0, 0, 0, 0, 1, 0, 0, 0, 97, 1, 0, 0, 0, 1,
      225, 104, 124, 77]
    let log : FaultyLog := { log := ⟨data⟩ }
    let c : Connection FaultyLog := ⟨none, {}, .ofRecords [.put 7 [97] [1]], log, true⟩
    let fault : LogFault := ⟨.io (.reported "disk full"), 0⟩
    let events (method : LogMethod) : List (Event FaultyLog) := [.request .openView, .request (.write (.put [98] [2])),
      .request (.write (.delete [97])), .storage (·.setFault method (some fault))]
    let later : List (Event FaultyLog) := [.request (.getAt 0 [97]), .request (.get [98]), .request .close]
    let disk : Disk := ((({} : Disk).makeDirectories "LOG.tmp").2.write "LOG" []).2
    let held : Connection Medium := ⟨some "", {}, .ofRecords [], ⟨.directory ⟨"", 1⟩ ⟨"LOG", 0, 0⟩,
      { disk := (disk.write "LOCK" []).2.lock 1 }⟩, true⟩
    log.log.data = data ∧ Connection.openOn none {} log = .ok c ∧
      (∀ method ∈ [LogMethod.rewrite, .sync],
        KeepsBytes (fun f bytes => f.log.data = bytes) (events method ++ .request .close :: later) ∧
        (start c).mendsAll (events method) = true ∧
        (start c).WritesBelow (events method ++ .request .close :: later) ∧
        ((start c).run (events method)).connection.isOpen = true ∧
        ((start c).run (events method)).connection.close.1 = .error fault.error ∧
        ((start c).run (events method ++ .request .close :: later)).connection.Refuses ∧
        ∃ d, Connection.openOn none {}
            ((start c).run (events method ++ .request .close :: later)).connection.log.log = .ok d ∧
          d.get [97] = .ok none ∧ d.get [98] = .ok (some [2])) ∧
      held.close.1 = .error (.ofSystem .isADirectory) ∧ held.close.2.log.media.disk.isLocked 1 = false := by
  intro data log c fault events later disk held
  have hopen : Connection.openOn none {} log = .ok c :=
    Connection.openOn_encodeLog (by decide +kernel) rfl (by decide)
  have hkeep : ∀ method, KeepsBytes (fun f bytes => f.log.data = bytes) (events method ++ .request .close :: later) := by
    intro method
    simp only [KeepsBytes, events, later, List.cons_append, List.nil_append, List.mem_cons, List.not_mem_nil,
      reduceCtorEq, Event.storage.injEq, false_or, or_false]
    rintro change rfl log bytes h
    exact h
  have hseq : ∀ method ∈ [LogMethod.rewrite, .sync],
      (start c).WritesBelow (events method ++ .request .close :: later) := by decide +kernel
  have hmends : ∀ method ∈ [LogMethod.rewrite, .sync], (start c).mendsAll (events method) = true := by decide +kernel
  have hisOpen : ∀ method ∈ [LogMethod.rewrite, .sync],
      ((start c).run (events method)).connection.isOpen = true := by decide +kernel
  have hresult : ∀ method ∈ [LogMethod.rewrite, .sync],
      ((start c).run (events method)).connection.close.1 = .error fault.error := by decide +kernel
  have hcurrent : ∀ method ∈ [LogMethod.rewrite, .sync],
      ((start c).run (events method)).connection.get [97] = .ok none ∧
        ((start c).run (events method)).connection.get [98] = .ok (some [2]) := by decide +kernel
  refine ⟨rfl, hopen, fun method hmethod => ?_, by decide +kernel, ?_⟩
  · obtain ⟨-, hrefuses, -, ⟨bytes, hlog, hcopy⟩, -⟩ := failing_close_loses_nothing FaultyLog.lawful rfl hopen
      (hkeep method) (hmends method hmethod) (hseq method hmethod) (hisOpen method hmethod)
    obtain ⟨d, hd, hget⟩ := hcopy MemoryLog.faithful _ hlog none {} (by decide)
    obtain ⟨hgone, hkept⟩ := hcurrent method hmethod
    exact ⟨hkeep method, hmends method hmethod, hseq method hmethod, hisOpen method hmethod, hresult method hmethod,
      hrefuses, d, hd, (hget [97]).trans hgone, (hget [98]).trans hkept⟩
  · have hrewrite : LogMethod.rewrite ∈ [LogMethod.rewrite, .sync] := by decide
    obtain ⟨-, -, -, -, hlock⟩ := failing_close_loses_nothing FaultyLog.lawful rfl hopen (hkeep .rewrite)
      (hmends _ hrewrite) (hseq _ hrewrite) (hisOpen _ hrewrite)
    exact hlock held 1 rfl rfl

end Session

end OrderedStore
