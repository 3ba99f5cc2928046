import OrderedStore.Proofs.Guarding

/-!
# Batches take effect once

A batch takes operations until it is written, and is written once: then all of its operations are one commit. What
is done with it afterwards, with other children or with the store does not apply it again.

* `Client.trace`, `Client.accepted`, `Client.consumed`: what has been answered, and what this says of a batch;
* `Client.Tracked`, `Client.tracks_step`: a batch holds what its trace tells, and every call keeps this;
* `Store.contents_of_apply`, `Store.engine_close`: what the write of a batch and the end of a store do to the contents;
* `Client.TakesEffectOnce`: what follows for the calls that come next;
* `Client.batch_takes_effect_once`: every batch, at every moment of a run.
-/

namespace OrderedStore

open Client

namespace Client

/-! ## What has been answered -/

/-- The calls among the events with their replies. -/
def trace {ε κ ς δ : Type} [Engine ε κ ς] (act : δ → ε → ε) (c : Client ε κ ς) :
    List (Event δ) → List (Call × Client.Reply)
  | [] => []
  | .call q :: events => (q, (c.step q).1) :: (c.next act (.call q)).trace act events
  | .change d :: events => (c.next act (.change d)).trace act events

/-- The operation that batch `n` has taken with an answered call. -/
def accepted? (n : Nat) : Call × Client.Reply → Option Operation
  | (.child k (.batch (.add op)), .ok .done) => if k = n then some op else none
  | _ => none

/-- The operations that batch `n` has taken, in order. -/
def accepted (n : Nat) (trace : List (Call × Client.Reply)) : List Operation := trace.filterMap (accepted? n)

/-- The call writes batch `n`. -/
def Call.writes (n : Nat) : Call → Bool
  | .child k (.batch .write) | .child k (.batch .writeAndClose) => k = n
  | _ => false

theorem Call.isWrite_of_writes {n : Nat} {q : Call} (h : q.writes n = true) : q.isWrite = true := by
  unfold writes at h
  split at h
  · rfl
  · rfl
  · cases h

/-- An answered call has applied batch `n`. -/
def applies (n : Nat) (answered : Call × Client.Reply) : Bool :=
  answered.1.writes n && answered.2 = .ok (.applied true)

/-- An answered call has used batch `n` up: it was applied, or the engine refused it. -/
def consumes (n : Nat) (answered : Call × Client.Reply) : Bool :=
  answered.1.writes n && match answered.2 with
    | .ok (.applied true) | .error (.applyFailure _) => true
    | _ => false

/-- Batch `n` has been used up. -/
def consumed (n : Nat) (trace : List (Call × Client.Reply)) : Bool := trace.any (consumes n)

/-- The reply of a batch that has been used up. -/
def BatchCall.spent : BatchCall → Client.Reply
  | .add _ => .error .alreadyApplied
  | .write | .writeAndClose => .ok (.applied false)

/-- The answered call neither adds to batch `n` nor uses it up. -/
def Silent (n : Nat) (answered : Call × Client.Reply) : Prop :=
  accepted? n answered = none ∧ consumes n answered = false

variable {n : Nat} {q : Call} {answered : Call × Client.Reply} {trace : List (Call × Client.Reply)}

theorem consumes_of_applies (h : applies n answered = true) : consumes n answered = true := by
  obtain ⟨q, reply⟩ := answered
  obtain ⟨hwrites, hreply⟩ := Bool.and_eq_true_iff.mp h
  obtain rfl : reply = .ok (.applied true) := of_decide_eq_true hreply
  exact Bool.and_eq_true_iff.mpr ⟨hwrites, rfl⟩

theorem accepted?_of_writes (h : q.writes n = true) (reply : Client.Reply) : accepted? n (q, reply) = none := by
  unfold Call.writes at h
  split at h
  · rfl
  · rfl
  · cases h

theorem silent_of_not_writes {reply : Client.Reply} (hwrites : q.writes n = false)
    (haccepted : accepted? n (q, reply) = none) : Silent n (q, reply) :=
  ⟨haccepted, by rw [consumes, hwrites, Bool.false_and]⟩

/-- Calls of other children say nothing of a batch. -/
theorem silent_of_not_asked (hq : ∀ q', q ≠ .child n q') (reply : Client.Reply) : Silent n (q, reply) := by
  refine silent_of_not_writes ?_ ?_
  · unfold Call.writes
    split
    · rename_i k
      exact decide_eq_false fun hk => hq (.batch .write) (by rw [hk])
    · rename_i k
      exact decide_eq_false fun hk => hq (.batch .writeAndClose) (by rw [hk])
    · rfl
  · unfold accepted?
    split
    · rename_i k op hanswered
      cases hanswered
      exact if_neg fun hk => hq (.batch (.add op)) (by rw [hk])
    · rfl

/-- Neither do calls that are not for a batch. -/
theorem silent_of_noChild (q : Call) : Silent n (q, .ok .noChild) := by
  refine ⟨?_, Bool.and_false _⟩
  unfold accepted?
  split
  · rename_i hanswered
    cases hanswered
  · rfl

theorem accepted_concat (h : accepted? n answered = none) : accepted n (trace ++ [answered]) = accepted n trace := by
  rw [accepted, List.filterMap_append, List.filterMap_cons_none h, List.filterMap_nil, List.append_nil]
  rfl

theorem consumed_concat : consumed n (trace ++ [answered]) = (consumed n trace || consumes n answered) := by
  rw [consumed, List.any_append, List.any_cons, List.any_nil, Bool.or_false]
  rfl

end Client

namespace Store

variable {σ : Type} [LogStorage σ] {s : OnConnection σ} {b : Store.Batch}

/-! ## One batch -/

/-- A token that holds no reader is given up without the connection. -/
theorem engine_discard {token : TokenId} (h : ∀ held, s.tokens.get? token = some held → held.seq? = none) (id : Nat) :
    (s.forget token id).engine = s.engine ∧ (s.discard token id).engine = s.engine := by
  have hrelease : (s.release token).engine = s.engine := by
    cases hget : s.tokens.get? token with
    | none => rw [Store.release, hget]
    | some held => rw [release_eq hget, h held hget]; rfl
  exact ⟨hrelease, hrelease⟩

/-- Closing a batch after a write has nothing to do with the connection. -/
theorem Batch.writeAndClose_eq (h : ∀ held, s.tokens.get? b.token = some held → held.seq? = none) :
    (b.writeAndClose s).1 = (b.write s).1 ∧ (b.writeAndClose s).2.engine = (b.write s).2.2.engine := by
  obtain ⟨result, progress, engine, counters, hwrite, -, -⟩ := Batch.write_eq b s
  rw [Batch.writeAndClose, hwrite]
  exact ⟨rfl, (engine_discard (s := { s with engine, counters }) h b.id).2⟩

/-- A batch that is applied is one commit; without operations it is none. -/
theorem sequence_of_apply {ops : List Operation} {engine : Connection σ}
    (hw : s.engine.write (.apply ops) = (.ok (), engine)) :
    engine.sequence = if ops = [] then s.engine.sequence else s.engine.sequence + 1 := by
  obtain ⟨-, ⟨e, he, -⟩ | ⟨-, hops, ht⟩ | ⟨-, r, hr, ht⟩⟩ := Connection.timeline_write hw
  · cases he
  · rw [if_pos (show ops = [] from hops), Connection.sequence, ht]
    rfl
  · have hne : ops ≠ [] := by
      rintro rfl
      cases hr
    rw [if_neg hne, Connection.sequence, ht]
    exact (Write.record?_eq_some hr).1

/-- Its operations are all that changes. -/
theorem contents_of_apply (h : s.Guarded) (hseq : s.engine.sequence.toNat < UInt64.size - 1) {ops : List Operation}
    {engine : Connection σ} (hw : s.engine.write (.apply ops) = (.ok (), engine)) :
    engine.timeline.contents = s.engine.timeline.contents.writeAll ops := by
  obtain ⟨-, ⟨e, he, -⟩ | ⟨-, hops, ht⟩ | ⟨-, r, hr, ht⟩⟩ := Connection.timeline_write hw
  · cases he
  · rw [ht, show ops = [] from hops]
    rfl
  · obtain ⟨hrseq, hrops⟩ := Write.record?_eq_some hr
    have hlt : s.engine.timeline.sequence < r.seq := hrseq ▸ Session.lt_succ_sequence hseq
    rw [ht, Timeline.contents_commit h.bounded (UInt64.le_of_lt hlt), hrops]
    rfl

/-- A write that is refused leaves the timeline as it is. -/
theorem timeline_of_refused {ops : List Operation} {e : EngineError} {engine : Connection σ}
    (hw : s.engine.write (.apply ops) = (.error e, engine)) : engine.timeline = s.engine.timeline := by
  obtain ⟨-, ⟨e', -, ht⟩ | ⟨hok, -⟩ | ⟨hok, -⟩⟩ := Connection.timeline_write hw
  · exact ht
  · cases hok
  · cases hok

/-! ## The end of a store -/

/-- The connection has been left by readers: the log, the last commit and what is current stay as they are. -/
structure Left (c c' : Connection σ) : Prop where
  log : c'.log = c.log
  isOpen : c'.isOpen = c.isOpen
  sequence : c'.sequence = c.sequence
  contents : c'.timeline.contents = c.timeline.contents

theorem left_release {c : Connection σ} (h : Left c s.engine) (token : TokenId) : Left c (s.release token).engine := by
  cases hget : s.tokens.get? token with
  | none =>
    rw [Store.release, hget]
    exact h
  | some held =>
    rw [release_eq hget]
    cases hheld : held.seq? with
    | none => exact h
    | some seq =>
      exact ⟨h.log, h.isOpen, (Timeline.sequence_unpin _ _).trans h.sequence,
        (Timeline.contents_unpin _ _).trans h.contents⟩

theorem left_releaseAll (s : OnConnection σ) : Left s.engine s.releaseAll.engine :=
  releaseMany_keeps (P := fun s' => Left s.engine s'.engine) (fun _ token h => left_release h token) _
    ⟨rfl, rfl, rfl, rfl⟩

/-- The log of a connection is closed by what is current. -/
theorem Left.log_close {c c' : Connection σ} (h : Left c c') : c'.close.2.log = c.close.2.log := by
  have hcompacted : c'.compacted = c.compacted := by
    have hlive : c'.timeline.live = c.timeline.live := congrArg KeyMap.entries h.contents
    rw [Connection.compacted, Connection.compacted, hlive, h.sequence]
  unfold Connection.close
  rw [h.isOpen]
  split
  · exact h.log
  · show LogStorage.release c'.compact.2 = LogStorage.release c.compact.2
    rw [Connection.compact, Connection.compact, hcompacted, h.log]

/-- Closing an open store leaves its contents as they are, and closes the connection as it was. -/
theorem engine_close (hopen : s.isOpen = true) :
    s.close.2.engine.timeline.contents = s.engine.timeline.contents ∧ s.close.2.engine.sequence = s.engine.sequence ∧
      s.close.2.engine.log = s.engine.close.2.log := by
  obtain ⟨counters, hclose⟩ := close_of_isOpen hopen
  have hleft := left_releaseAll s
  have htimeline := Connection.timeline_close s.releaseAll.engine
  rw [hclose]
  exact ⟨(congrArg Timeline.contents htimeline).trans hleft.contents,
    (congrArg Timeline.sequence htimeline).trans hleft.sequence, hleft.log_close⟩

theorem close_of_not_isOpen (hclosed : s.isOpen = false) : s.close.2 = s := by
  rw [Store.close, hclosed]
  rfl

end Store

namespace Client

variable {σ : Type} {n : Nat} {b b' : Store.Batch} {fate fate' : Fate} {trace : List (Call × Client.Reply)}
  {s s' : Store.OnConnection σ}

/-! ## What a batch holds -/

/-- Batch `n` is as its trace tells: while it has not been used up, it waits to be written, and it holds the operations
that it has taken. -/
structure Tracked (s : Store.OnConnection σ) (n : Nat) (b : Store.Batch) (fate : Fate)
    (trace : List (Call × Client.Reply)) : Prop where
  once : trace.countP (applies n) ≤ (consumed n trace).toNat
  pending : fate ≠ .dropped → (b.progress = .pending ↔ consumed n trace = false)
  holds : ∀ ops, s.tokens.get? n = some (.batch ops) → ops = accepted n trace

/-- The token may be given up, and the batch be dropped. -/
theorem Tracked.spared (h : Tracked s n b fate trace)
    (hfate : fate' ≠ .dropped → fate ≠ .dropped ∧ b'.progress = b.progress)
    (hheld : ∀ held, s'.tokens.get? n = some held → s.tokens.get? n = some held) :
    Tracked s' n b' fate' trace where
  once := h.once
  pending hne := by
    obtain ⟨hbefore, hprogress⟩ := hfate hne
    rw [hprogress]
    exact h.pending hbefore
  holds ops hops := h.holds ops (hheld _ hops)

theorem Tracked.silent (h : Tracked s n b fate trace) {answered : Call × Client.Reply} (hsilent : Silent n answered) :
    Tracked s n b fate (trace ++ [answered]) := by
  have hconsumed : consumed n (trace ++ [answered]) = consumed n trace := by
    rw [consumed_concat, hsilent.2, Bool.or_false]
  have happlies : applies n answered = false :=
    Bool.eq_false_iff.mpr fun happlied => Bool.false_ne_true (hsilent.2.symm.trans (consumes_of_applies happlied))
  constructor
  · rw [hconsumed, List.countP_append, List.countP_singleton, happlies]
    exact h.once
  · rw [hconsumed]
    exact h.pending
  · rw [accepted_concat hsilent.1]
    exact h.holds

/-- An operation is added. -/
theorem Tracked.add (h : Tracked s n b fate trace) {ops : List Operation} (hops : s.tokens.get? n = some (.batch ops))
    (op : Operation) :
    Tracked (s.hold n (.batch (ops ++ [op]))) n b fate (trace ++ [(.child n (.batch (.add op)), .ok .done)]) := by
  have hop : accepted? n (.child n (.batch (.add op)), .ok .done) = some op := if_pos rfl
  have haccepted : accepted n (trace ++ [(.child n (.batch (.add op)), .ok .done)]) = accepted n trace ++ [op] := by
    rw [accepted, List.filterMap_append, List.filterMap_cons_some hop, List.filterMap_nil]
    rfl
  have hconsumed : consumed n (trace ++ [(.child n (.batch (.add op)), .ok .done)]) = consumed n trace := by
    rw [consumed_concat]
    exact Bool.or_false _
  constructor
  · rw [hconsumed, List.countP_append]
    exact h.once
  · rw [hconsumed]
    exact h.pending
  · intro ops' hops'
    cases (Store.get?_hold hops (.batch (ops ++ [op]))).symm.trans hops'
    rw [haccepted, ← h.holds ops hops]

/-- The batch is used up: it had not been before. -/
theorem Tracked.used (h : Tracked s n b fate trace) (hfate : fate ≠ .dropped) (hpending : b.progress = .pending)
    {q : Call} {reply : Client.Reply} (hwrites : q.writes n = true) (hused : consumes n (q, reply) = true)
    (hspent : b'.progress ≠ .pending) (hheld : s'.tokens = s.tokens) :
    Tracked s' n b' fate (trace ++ [(q, reply)]) := by
  have hbefore : consumed n trace = false := (h.pending hfate).mp hpending
  have hconsumed : consumed n (trace ++ [(q, reply)]) = true := by rw [consumed_concat, hused, Bool.or_true]
  constructor
  · have honce := h.once
    rw [hbefore] at honce
    rw [hconsumed, List.countP_append, Nat.le_zero.mp honce, Nat.zero_add]
    exact List.countP_le_length
  · rw [hconsumed]
    exact fun _ => ⟨fun hprogress => absurd hprogress hspent, nofun⟩
  · rw [accepted_concat (accepted?_of_writes hwrites reply), hheld]
    exact h.holds

variable [LogStorage σ]

/-- A batch is written. -/
theorem Tracked.write (h : Tracked s n b fate trace) (hfate : fate ≠ .dropped) {q : Call}
    (hwrites : q.writes n = true) :
    Tracked (b.write s).2.2 n (b.write s).2.1 fate (trace ++ [(q, (b.write s).1.map .applied)]) := by
  have hsilent : ∀ {reply : Client.Reply}, consumes n (q, reply) = false → Silent n (q, reply) :=
    fun hreply => ⟨accepted?_of_writes hwrites _, hreply⟩
  have hused : ∀ reply : Client.Reply, consumes n (q, reply) =
      match reply with
      | .ok (.applied true) | .error (.applyFailure _) => true
      | _ => false := by
    intro reply
    rw [consumes, hwrites, Bool.true_and]
  have hcases := Store.Batch.writes b s
  generalize b.write s = written at hcases ⊢
  cases hcases with
  | closed | again | storeClosed => exact h.silent (hsilent (hused _))
  | engineClosed => exact (h.silent (hsilent (hused _))).spared (fun hne => ⟨hne, rfl⟩) fun _ => id
  | applied _ hpending => exact h.used hfate hpending hwrites (hused _) nofun rfl
  | failed _ hpending => exact h.used hfate hpending hwrites (hused _) nofun rfl

variable {c : OnConnection σ} {isOpen : Bool}

/-- A batch that is asked is as its trace tells afterwards. -/
theorem tracked_ask (ha : c.Accounted isOpen) (hn : c.places[n]? = some ⟨.batch b, fate⟩) (hfate : fate ≠ .dropped)
    (h : Tracked c.store n b fate trace) (q : ChildCall) :
    ∃ b' fate', (c.ask n ⟨.batch b, fate⟩ q).2.places[n]? = some ⟨.batch b', fate'⟩ ∧
      Tracked (c.ask n ⟨.batch b, fate⟩ q).2.store n b' fate'
        (trace ++ [(.child n q, (c.ask n ⟨.batch b, fate⟩ q).1)]) := by
  have htoken : b.token = n := (ha.listed n _ hn).1
  have hset : ∀ place, (c.places.set n place)[n]? = some place :=
    fun _ => List.getElem?_set_self (List.getElem?_eq_some_iff.mp hn).1
  cases q with
  | cursor q | snapshot q => exact ⟨b, fate, hn, h.silent (silent_of_noChild _)⟩
  | batch q =>
    cases q with
    | add op =>
      refine ⟨b, fate, hn, ?_⟩
      show Tracked (b.add op c.store).2 n b fate (trace ++ [(_, (b.add op c.store).1.map fun _ => .done)])
      rcases Store.Batch.add_cases op b c.store with ⟨e, hadd⟩ | ⟨ops, hops, hadd⟩
      · rw [hadd]
        exact h.silent (silent_of_not_writes rfl rfl)
      · rw [hadd, htoken]
        exact h.add (htoken ▸ Store.get?_of_batch? hops) op
    | write =>
      exact ⟨(b.write c.store).2.1, fate, hset _, h.write (q := .child n (.batch .write)) hfate (decide_eq_true rfl)⟩
    | writeAndClose =>
      have hwrite := h.write (q := .child n (.batch .writeAndClose)) hfate (decide_eq_true rfl)
      have hdiscard : Store.Keeps True (b.write c.store).2.2 _ fun _ => True :=
        Store.keeps_discard (b.write c.store).2.1.token (b.write c.store).2.1.id
      exact ⟨b, .dropped, hset _, hwrite.spared (fun hne => absurd rfl hne) fun held => hdiscard.held n held trivial⟩
  | close =>
    rw [ask_close]
    refine ⟨b, .closed, hset _, ?_⟩
    have hforget : Store.Keeps True c.store _ fun _ => True := Store.keeps_forget b.token b.id
    exact (h.silent (silent_of_not_writes rfl rfl)).spared (fun _ => ⟨hfate, rfl⟩)
      fun held => hforget.held n held trivial
  | drop =>
    rw [ask_drop]
    refine ⟨b, .dropped, hset _, ?_⟩
    have hdiscard : Store.Keeps True c.store _ fun _ => True := Store.keeps_discard b.token b.id
    exact (h.silent (silent_of_not_writes rfl rfl)).spared (fun hne => absurd rfl hne)
      fun held => hdiscard.held n held trivial

/-- A batch that has just been made holds nothing and waits to be written. -/
theorem tracked_new (ha : c.Accounted isOpen) {q : Call} (hreply : (c.step q).1 = .ok (.child c.places.length))
    (hplaces : (c.step q).2.places = c.places ++ [⟨.batch b, .inUse⟩])
    (haccepted : accepted c.places.length trace = []) (hconsumed : consumed c.places.length trace = false) :
    Tracked (c.step q).2.store c.places.length b .inUse trace := by
  obtain ⟨r, hr, hstep⟩ := exists_opens_of_reply hreply
  rw [hstep] at hreply hplaces ⊢
  cases hr with
  | refused e => cases hreply
  | opened held _ _ _ _ _ hempty =>
    cases List.append_cancel_left hplaces
    obtain ⟨hpending, rfl⟩ := hempty b rfl
    refine ⟨?_, fun _ => ⟨fun _ => hconsumed, fun _ => hpending⟩, fun ops hops => ?_⟩
    · have happlies : trace.countP (applies c.places.length) = 0 :=
        List.countP_eq_zero.mpr fun answered hmem happlied => List.any_eq_false.mp hconsumed answered hmem
          (consumes_of_applies happlied)
      rw [happlies]
      exact Nat.zero_le _
    · rw [← length_tokens ha] at hops
      cases (Store.get?_adopt _ _ _).symm.trans hops
      exact haccepted.symm

/-- Every batch is as its trace tells, and of one that has not been made it tells nothing. -/
structure Tracks (c : OnConnection σ) (trace : List (Call × Client.Reply)) : Prop where
  unmade : ∀ n, c.places.length ≤ n → accepted n trace = [] ∧ consumed n trace = false
  made : ∀ n b fate, c.places[n]? = some ⟨.batch b, fate⟩ → Tracked c.store n b fate trace

/-- A call keeps this. -/
theorem tracks_step (ha : c.Accounted isOpen) (h : Tracks c trace) (q : Call) :
    Tracks (c.step q).2 (trace ++ [(q, (c.step q).1)]) := by
  have hlonger : c.places.length ≤ (c.step q).2.places.length := by
    rcases c.places_step q with ⟨handle, -, hplaces⟩ | ⟨-, hplaces | ⟨m, q', _, _, -, -, hplaces, -⟩⟩
    · rw [hplaces, List.length_append]
      exact Nat.le_add_right _ _
    · rw [hplaces]
    · rw [hplaces, List.length_set]
  have hunasked : ∀ n, c.places.length ≤ n → Silent n (q, (c.step q).1) := by
    intro n hn
    by_cases hasked : ∃ q', q = .child n q'
    · obtain ⟨q', rfl⟩ := hasked
      rw [step_unmade (List.getElem?_eq_none hn)]
      exact silent_of_noChild _
    · exact silent_of_not_asked (fun q' heq => hasked ⟨q', heq⟩) _
  constructor
  · intro n hn
    obtain ⟨haccepted, hconsumed⟩ := h.unmade n (hlonger.trans hn)
    have hsilent := hunasked n (hlonger.trans hn)
    rw [accepted_concat hsilent.1, consumed_concat, hsilent.2, Bool.or_false]
    exact ⟨haccepted, hconsumed⟩
  · intro n b fate hn
    by_cases hlt : n < c.places.length
    · have hplace := List.getElem?_eq_getElem hlt
      by_cases hasked : ∃ q', q = .child n q'
      · obtain ⟨q', rfl⟩ := hasked
        have hkind := kind_places_step hplace hn
        obtain ⟨⟨handle, fate'⟩, hhandle⟩ : ∃ place, c.places[n] = place := ⟨_, rfl⟩
        rw [hhandle] at hplace hkind
        obtain ⟨b', rfl⟩ : ∃ b', handle = .batch b' := by
          cases handle with
          | batch b' => exact ⟨b', rfl⟩
          | cursor | snapshot => cases hkind
        by_cases hfate : fate' = .dropped
        · rw [step_dropped hplace hfate] at hn ⊢
          exact (h.made n b fate hn).silent (silent_of_noChild _)
        · obtain ⟨b'', fate'', hplace', htracked⟩ :=
            tracked_ask ha hplace hfate (h.made n b' fate' hplace) q'
          rw [step_child hplace hfate] at hn ⊢
          cases hplace'.symm.trans hn
          exact htracked
      · have hq : ∀ q', q ≠ .child n q' := fun q' heq => hasked ⟨q', heq⟩
        have halters : q.alters n = false := by
          cases q with
          | child k q' =>
            have hne : k ≠ n := fun heq => hq q' (heq ▸ rfl)
            rcases q' with (_ | _ | _ | _) | (_ | _ | _) | _ | _ | _
            all_goals first | rfl | exact decide_eq_false hne
          | _ => rfl
        rw [getElem?_places_step hlt hq] at hn
        exact ((h.made n b fate hn).silent (silent_of_not_asked hq _)).spared (fun hne => ⟨hne, rfl⟩)
          fun held => (keeps_step ha q).held n held ⟨hlt, halters⟩
    · have hle := Nat.not_lt.mp hlt
      rcases c.places_step q with ⟨handle, hreply, hplaces⟩ | ⟨-, hplaces | ⟨m, q', _, _, -, -, hplaces, -⟩⟩
      · have hnew := hn
        rw [hplaces, List.getElem?_append_right hle, List.getElem?_singleton] at hnew
        split at hnew
        · rename_i hzero
          obtain rfl : n = c.places.length := by omega
          cases hnew
          obtain ⟨haccepted, hconsumed⟩ := h.unmade _ hle
          exact (tracked_new ha hreply hplaces haccepted hconsumed).silent (hunasked _ hle)
        · cases hnew
      · rw [hplaces, List.getElem?_eq_none hle] at hn
        cases hn
      · rw [hplaces, List.getElem?_eq_none (by rwa [List.length_set])] at hn
        cases hn

/-- Batches are as their traces tell, in every state of a client. By induction on the events. -/
theorem tracks_run (ha : c.Accounted isOpen) (h : Tracks c trace) (events : List (Event (σ → σ))) :
    Tracks (c.run Connection.mapLog events) (trace ++ c.trace Connection.mapLog events) := by
  induction events generalizing c isOpen trace with
  | nil =>
    rw [Client.trace, List.append_nil]
    exact h
  | cons event events ih =>
    have haccounted := accounted_next ha event
    cases event with
    | call q =>
      have hstep := ih haccounted (tracks_step ha h q)
      rwa [List.append_assoc] at hstep
    | change f => exact ih haccounted ⟨h.unmade, fun n b fate hn => (h.made n b fate hn).spared (fun hne => ⟨hne, rfl⟩)
        fun _ => id⟩

/-! ## What follows for the calls that come next -/

/-- What the trace says of batch `n`, and of the next call. -/
structure TakesEffectOnce (c : OnConnection σ) (n : Nat) (b : Store.Batch) (fate : Fate)
    (trace : List (Call × Client.Reply)) : Prop where
  /-- It has been applied once at most. -/
  once : trace.countP (applies n) ≤ 1
  /-- While it is live, it holds what it has taken, and it can be written until it has been used up. -/
  live : b.state c.store ≠ .closed →
    b.operations c.store = accepted n trace ∧ (b.state c.store = .pending ↔ consumed n trace = false)
  /-- Applying it is one commit, or none if it has no operations. -/
  applied : ∀ q, q.writes n = true → (c.step q).1 = .ok (.applied true) →
    (c.step q).2.store.engine.sequence =
      if accepted n trace = [] then c.store.engine.sequence else c.store.engine.sequence + 1
  /-- A write that is refused changes nothing that can be read. -/
  refused : ∀ q e, q.writes n = true → (c.step q).1 = .error e →
    (c.step q).2.store.engine.timeline = c.store.engine.timeline
  /-- A batch that has been used up refuses operations and is not written again, and says when it is closed. -/
  spent : consumed n trace = true → fate ≠ .dropped → ∀ q : BatchCall,
    (c.step (.child n (.batch q))).1 = (if b.state c.store = .closed then .error (.closed .batch) else q.spent) ∧
      (c.step (.child n (.batch q))).2.store.engine = c.store.engine ∧
      (q ≠ .writeAndClose → (c.step (.child n (.batch q))).2 = c)
  /-- Nothing but a write goes to the connection. -/
  only : ∀ q : ChildCall, (Call.child n q).writes n = false →
    (c.step (.child n q)).2.store.engine = c.store.engine

section Next

variable (ha : c.Accounted isOpen) (hn : c.places[n]? = some ⟨.batch b, fate⟩)

include ha hn

omit [LogStorage σ] in
/-- The token of a batch holds no reader, and it holds something only while the batch is in use. -/
theorem held_of_batch {held : Held Timeline.Cursor Timeline.View} (hheld : c.store.tokens.get? b.token = some held) :
    held.seq? = none ∧ fate = .inUse := by
  have hget := Store.Accounted.get? ha hn
  rw [← show b.token = n from (ha.listed n _ hn).1, hheld, Option.map_some] at hget
  split at hget
  · rename_i hlive
    refine ⟨?_, hlive.2⟩
    cases held with
    | batch => rfl
    | cursor | snapshot => cases hget
  · cases hget

/-- Both calls that write a batch are answered as its write is, and do to the connection what it does. -/
theorem step_of_writes (hfate : fate ≠ .dropped) {q : Call} (hwrites : q.writes n = true) :
    (c.step q).1 = (b.write c.store).1.map .applied ∧ (c.step q).2.store.engine = (b.write c.store).2.2.engine := by
  unfold Call.writes at hwrites
  split at hwrites
  · obtain rfl := of_decide_eq_true hwrites
    rw [step_child hn hfate]
    exact ⟨rfl, rfl⟩
  · obtain rfl := of_decide_eq_true hwrites
    obtain ⟨hresult, hengine⟩ :=
      Store.Batch.writeAndClose_eq (s := c.store) (b := b) fun held hheld => (held_of_batch ha hn hheld).1
    rw [step_child hn hfate]
    exact ⟨congrArg (Except.map Outcome.applied) hresult, hengine⟩
  · cases hwrites

omit ha in
/-- A batch that has been dropped is not written. -/
theorem fate_of_writes {q : Call} (hwrites : q.writes n = true) (hreply : (c.step q).1 ≠ .ok .noChild) :
    fate ≠ .dropped := by
  intro hfate
  unfold Call.writes at hwrites
  split at hwrites
  · obtain rfl := of_decide_eq_true hwrites
    exact hreply (by rw [step_dropped hn hfate])
  · obtain rfl := of_decide_eq_true hwrites
    exact hreply (by rw [step_dropped hn hfate])
  · cases hwrites

/-- A batch that is applied goes to the connection with what it has taken. -/
theorem write_of_applied (h : Tracked c.store n b fate trace) {q : Call} (hwrites : q.writes n = true)
    (hreply : (c.step q).1 = .ok (.applied true)) :
    c.store.engine.write (.apply (accepted n trace)) = (.ok (), (c.step q).2.store.engine) := by
  have hfate := fate_of_writes hn hwrites (hreply ▸ nofun)
  obtain ⟨hresult, hengine⟩ := step_of_writes ha hn hfate hwrites
  have hcases := Store.Batch.writes b c.store
  rw [hreply] at hresult
  rw [hengine]
  generalize b.write c.store = written at hcases hresult
  cases hcases with
  | @applied ops engine hbatch _ _ hwrite =>
    have hget : c.store.tokens.get? n = some (.batch ops) :=
      (show b.token = n from (ha.listed n _ hn).1) ▸ Store.get?_of_batch? hbatch
    rw [← h.holds ops hget]
    exact hwrite
  | closed | again | storeClosed | engineClosed | failed => cases hresult

theorem timeline_of_error {q : Call} {e : StoreError} (hwrites : q.writes n = true) (hreply : (c.step q).1 = .error e) :
    (c.step q).2.store.engine.timeline = c.store.engine.timeline := by
  have hfate := fate_of_writes hn hwrites (hreply ▸ nofun)
  obtain ⟨hresult, hengine⟩ := step_of_writes ha hn hfate hwrites
  have hcases := Store.Batch.writes b c.store
  rw [hreply] at hresult
  rw [hengine]
  generalize b.write c.store = written at hcases hresult
  cases hcases with
  | closed | again | storeClosed => rfl
  | engineClosed _ _ _ hwrite => exact Store.timeline_of_refused hwrite
  | applied => cases hresult
  | failed _ _ _ hwrite => exact Store.timeline_of_refused hwrite

/-- What is asked of a batch that has been used up. -/
theorem step_of_spent (hfate : fate ≠ .dropped) (hspent : b.progress ≠ .pending) (q : BatchCall) :
    (c.step (.child n (.batch q))).1 = (if b.state c.store = .closed then .error (.closed .batch) else q.spent) ∧
      (c.step (.child n (.batch q))).2.store.engine = c.store.engine ∧
      (q ≠ .writeAndClose → (c.step (.child n (.batch q))).2 = c) := by
  have hsteady : b.progress ≠ .closed := (ha.listed n _ hn).2.2
  have hsame : c.places.set n ⟨.batch b, fate⟩ = c.places := set_of_getElem? hn
  -- The batch does nothing, and its replies tell whether it is closed.
  obtain ⟨result, e, hwrite, hadd, hresult, he⟩ : ∃ result e, b.write c.store = (result, b, c.store) ∧
      (∀ op, b.add op c.store = (.error e, c.store)) ∧
      (result.map .applied : Client.Reply) =
        (if b.state c.store = .closed then .error (.closed .batch) else .ok (.applied false)) ∧
      e = if b.state c.store = .closed then .closed .batch else .alreadyApplied := by
    cases hbatch : c.store.batch? b.token with
    | none =>
      have hstate : b.state c.store = .closed := by rw [Store.Batch.state, hbatch]; rfl
      refine ⟨.error (.closed .batch), .closed .batch, ?_, fun op => ?_, (if_pos hstate).symm, (if_pos hstate).symm⟩
      · rw [Store.Batch.write, hbatch]
      · rw [Store.Batch.add, hbatch]
    | some ops =>
      have hstate : b.state c.store ≠ .closed := by
        rw [Store.Batch.state, hbatch]
        exact hsteady
      refine ⟨.ok false, .alreadyApplied, ?_, fun op => ?_, (if_neg hstate).symm, (if_neg hstate).symm⟩
      · simp only [Store.Batch.write, hbatch, if_pos hspent]
      · simp only [Store.Batch.add, hbatch, if_neg hspent]
  cases q with
  | add op =>
    rw [step_child hn hfate]
    show (b.add op c.store).1.map (fun _ => Outcome.done) = _ ∧ (b.add op c.store).2.engine = _ ∧
      (_ → { c with store := (b.add op c.store).2 } = c)
    rw [hadd, he]
    refine ⟨?_, rfl, fun _ => rfl⟩
    split <;> rfl
  | write =>
    rw [step_child hn hfate]
    show (b.write c.store).1.map Outcome.applied = _ ∧ (b.write c.store).2.2.engine = _ ∧
      (_ → (⟨(b.write c.store).2.2, c.places.set n ⟨.batch (b.write c.store).2.1, fate⟩⟩ : OnConnection σ) = c)
    rw [hwrite, hsame]
    exact ⟨hresult, rfl, fun _ => rfl⟩
  | writeAndClose =>
    obtain ⟨hreply, hengine⟩ :=
      step_of_writes ha hn hfate (q := .child n (.batch .writeAndClose)) (decide_eq_true rfl)
    rw [hreply, hengine, hwrite]
    exact ⟨hresult, rfl, fun hne => absurd rfl hne⟩

/-- Calls of a batch that do not write it. -/
theorem engine_of_not_writes {q : ChildCall} (hwrites : (Call.child n q).writes n = false) :
    (c.step (.child n q)).2.store.engine = c.store.engine := by
  have hdiscard := Store.engine_discard (fun held hheld => (held_of_batch ha hn hheld).1) b.id
  by_cases hfate : fate = .dropped
  · rw [step_dropped hn hfate]
  · rw [step_child hn hfate]
    cases q with
    | cursor q | snapshot q => rfl
    | batch q =>
      cases q with
      | add op =>
        show (b.add op c.store).2.engine = c.store.engine
        rcases Store.Batch.add_cases op b c.store with ⟨e, hadd⟩ | ⟨ops, -, hadd⟩
        · rw [hadd]
        · rw [hadd]
          rfl
      | write | writeAndClose => exact absurd rfl (of_decide_eq_false hwrites)
    | close =>
      rw [ask_close]
      exact hdiscard.1
    | drop =>
      rw [ask_drop]
      exact hdiscard.2

/-- A batch that is as its trace tells takes effect once. -/
theorem takesEffectOnce_of_tracked (h : Tracked c.store n b fate trace) : TakesEffectOnce c n b fate trace where
  once := h.once.trans (Bool.toNat_le _)
  live hlive := by
    have hsome : (c.store.batch? b.token).isSome = true := by
      by_contra hnone
      rw [Store.Batch.state, if_neg hnone] at hlive
      exact hlive rfl
    obtain ⟨ops, hops⟩ := Option.isSome_iff_exists.mp hsome
    have hget := Store.get?_of_batch? hops
    obtain ⟨-, hfate⟩ := held_of_batch ha hn hget
    rw [show b.token = n from (ha.listed n _ hn).1] at hget
    constructor
    · rw [Store.Batch.operations, hops, Option.getD_some]
      exact h.holds ops hget
    · rw [Store.Batch.state, if_pos hsome]
      exact h.pending (by rw [hfate]; decide)
  applied q hwrites hreply := Store.sequence_of_apply (write_of_applied ha hn h hwrites hreply)
  refused q e := timeline_of_error ha hn
  spent hconsumed hfate :=
    step_of_spent ha hn hfate fun hpending => Bool.false_ne_true (((h.pending hfate).mp hpending).symm.trans hconsumed)
  only q := engine_of_not_writes ha hn

end Next

/-- The readers stay guarded as long as sequences do not wrap around. -/
theorem guarded_run (ha : c.Accounted isOpen) (hg : c.store.Guarded) {events : List (Event (σ → σ))}
    (hseq : c.WritesBelow events) : (c.run Connection.mapLog events).store.Guarded := by
  induction events generalizing c isOpen with
  | nil => exact hg
  | cons event events ih => exact ih (accounted_next ha event) (guarded_next hg ha hseq.1) hseq.2

/-- Every batch of a store, at every moment of every run and whatever happens to the log: it has been applied at most
once. When it is applied, that is one commit, and the contents change by all the operations that it has taken, in
their order. From the first write on that was applied or refused by the engine it refuses operations, and writing it
again changes nothing. Nothing but writing it goes to the connection, and neither does closing or dropping the store
apply it: an open store leaves its contents as they are, and the connection is closed as it was. -/
theorem batch_takes_effect_once {path : Option String} {options : EngineOptions} {log : σ} {connection : Connection σ}
    (hopen : Connection.openOn path options log = .ok connection) (storePath : Option String) (storeOptions : Options)
    (events : List (Event (σ → σ))) :
    let c₀ : OnConnection σ := start (Store.ofEngine storePath storeOptions connection)
    let c := c₀.run Connection.mapLog events
    let trace := c₀.trace Connection.mapLog events
    (∀ n b fate, c.places[n]? = some ⟨.batch b, fate⟩ → TakesEffectOnce c n b fate trace ∧
      ∀ q, q.writes n = true → (c.step q).1 = .ok (.applied true) → WritesBelow c₀ (events ++ [.call q]) →
        (c.step q).2.store.engine.timeline.contents =
          c.store.engine.timeline.contents.writeAll (accepted n trace)) ∧
    ∀ q, q.ends = true →
      (c.step q).2.store.engine.timeline.contents = c.store.engine.timeline.contents ∧
        (c.step q).2.store.engine.sequence = c.store.engine.sequence ∧
        (c.step q).2.store.engine.log =
          if c.store.isOpen then c.store.engine.close.2.log else c.store.engine.log := by
  intro c₀ c trace
  have hstart : c₀.Accounted true := accounted_start hopen storePath storeOptions
  have ha : c.Accounted _ := accounted_run hstart events
  have htracks : Tracks c ([] ++ trace) :=
    tracks_run hstart ⟨fun _ _ => ⟨rfl, rfl⟩, fun _ _ _ hn => nomatch hn⟩ events
  refine ⟨fun n b fate hn => ?_, fun q hends => ?_⟩
  · have htracked := htracks.made n b fate hn
    refine ⟨takesEffectOnce_of_tracked ha hn htracked, fun q hwrites hreply hseq => ?_⟩
    obtain ⟨hbefore, hnow, -⟩ := sequencesSuffice_append.mp hseq
    have hguarded := guarded_run hstart (guarded_start hopen storePath storeOptions) hbefore
    exact Store.contents_of_apply hguarded (hnow (Call.isWrite_of_writes hwrites))
      (write_of_applied ha hn htracked hwrites hreply)
  · have hstep : (c.step q).2.store = c.store.close.2 := by
      cases q with
      | close | drop => rfl
      | _ => cases hends
    rw [hstep]
    cases hisOpen : c.store.isOpen with
    | true => exact Store.engine_close hisOpen
    | false =>
      rw [Store.close_of_not_isOpen hisOpen]
      exact ⟨rfl, rfl, rfl⟩

/-- Two batches take an operation each. The log refuses the first one, which then does nothing any more; the second
one is applied. -/
theorem batch_takes_effect_once_faulty :
    let log : FaultyLog := { log := ⟨[66, 76, 79, 71, 1, 0, 1, 18, 0, 0, 0, 7, 0, 0, 0, 0, 0, 0, 0, 1, 0, 0, 0, 97, 1,
      0, 0, 0, 1, 225, 104, 124, 77]⟩ }
    let connection : Connection FaultyLog := ⟨none, {}, .ofRecords [.put 7 [97] [1]], log, true⟩
    let fault : LogFault := ⟨.io (.reported "no space left"), 3⟩
    let events : List (Event (FaultyLog → FaultyLog)) := [.call .openBatch,
      .call (.child 0 (.batch (.add (.put [98] [2])))), .call .openBatch, .call (.child 1 (.batch (.add (.delete [97])))),
      .change (·.setFault .append fault), .call (.child 0 (.batch .write)), .change (·.setFault .append none)]
    let c₀ : OnConnection FaultyLog := start (Store.ofEngine none {} connection)
    let c := c₀.run Connection.mapLog events
    Connection.openOn none {} log = .ok connection ∧ WritesBelow c₀ (events ++ [.call (.child 1 (.batch .write))]) ∧
      c.places = [⟨.batch ⟨0, 1, .failed⟩, .inUse⟩, ⟨.batch ⟨1, 2, .pending⟩, .inUse⟩] ∧
      (c.step (.child 0 (.batch .write))).1 = .ok (.applied false) ∧
      (c.step (.child 1 (.batch .write))).1 = .ok (.applied true) ∧
      (c.step (.child 1 (.batch .write))).2.store.engine.timeline.contents =
        c.store.engine.timeline.contents.writeAll [.delete [97]] := by
  intro log connection fault events c₀ c
  have hopen : Connection.openOn none {} log = .ok connection :=
    Connection.openOn_encodeLog (by decide +kernel) rfl (by decide)
  have hseq : WritesBelow c₀ (events ++ [.call (.child 1 (.batch .write))]) := by decide +kernel
  have hplaces : c.places = [⟨.batch ⟨0, 1, .failed⟩, .inUse⟩, ⟨.batch ⟨1, 2, .pending⟩, .inUse⟩] := by decide +kernel
  have hstate : (⟨0, 1, .failed⟩ : Store.Batch).state c.store ≠ .closed := by decide +kernel
  have hconsumed : consumed 0 (c₀.trace Connection.mapLog events) = true := by decide +kernel
  have haccepted : accepted 1 (c₀.trace Connection.mapLog events) = [.delete [97]] := by decide +kernel
  have happlied : (c.step (.child 1 (.batch .write))).1 = .ok (.applied true) := by decide +kernel
  have hfirst : c.places[0]? = some ⟨.batch ⟨0, 1, .failed⟩, .inUse⟩ := by
    rw [hplaces]
    rfl
  have hsecond : c.places[1]? = some ⟨.batch ⟨1, 2, .pending⟩, .inUse⟩ := by
    rw [hplaces]
    rfl
  obtain ⟨hbatches, -⟩ := batch_takes_effect_once hopen none {} events
  obtain ⟨hreply, -⟩ := (hbatches 0 _ _ hfirst).1.spent hconsumed nofun .write
  have hcontents := (hbatches 1 _ _ hsecond).2 (.child 1 (.batch .write)) rfl happlied hseq
  rw [if_neg hstate] at hreply
  refine ⟨hopen, hseq, hplaces, hreply, happlied, ?_⟩
  rw [hcontents, haccepted]

end Client

end OrderedStore
