import OrderedStore.Proofs.Leftovers
import OrderedStore.Proofs.Persistence
import OrderedStore.Proofs.Settling

/-!
# Compaction writes a canonical log

A log that is closed holds one put for every entry, in ascending order of keys and all at the last sequence. It does
not tell how the entries came about, or which versions were still kept for readers.

* `Loggable`: a value that is short enough for a put of its own; `loggable_of_encodeWith`: each value in a record that
  has a frame is so;
* `Timeline.Loggable`: so is each value that is kept; `Session.loggable_run`: requests keep this on any storage;
* `Connection.exists_compacted`: therefore a compaction never fails at its records;
* `Session.run_of_effects_eq_nil`: what is current stays so as long as nothing is acknowledged;
* `Session.Reached.close_canonical`: the bytes that a closing leaves.
-/

namespace OrderedStore

open LogStorage

/-! ## Values that can be logged -/

/-- A put of the key and the value has a frame: with the sequence and both lengths it is within the limit. -/
def Loggable (key value : Bytes) : Prop := 16 + key.length + value.length < Payload.limit

instance (key value : Bytes) : Decidable (Loggable key value) :=
  inferInstanceAs (Decidable (16 + key.length + value.length < Payload.limit))

namespace Payload

theorem length_of_field {bs front : Bytes} (h : field bs = .ok front) : front.length = 4 + bs.length := by
  obtain ⟨-, rfl⟩ := field_eq_ok_iff.mp h
  rw [List.length_append, Bytes.length_ofNatLE]

theorem length_of_encodeOperation_put {key value front : Bytes} (h : encodeOperation (.put key value) = .ok front) :
    front.length = 9 + key.length + value.length := by
  simp only [encodeOperation, bind_eq_ok_iff, pure_eq_ok_iff] at h
  obtain ⟨k, hk, v, hv, rfl⟩ := h
  simp only [List.cons_append, List.length_cons, List.length_append, length_of_field hk, length_of_field hv]
  omega

/-- The operations of a batch are written one behind the other, each as a whole. -/
theorem exists_of_encodeOperations {ops : List Operation} {fields : Bytes} (h : encodeOperations ops = .ok fields)
    {op : Operation} (hop : op ∈ ops) : ∃ front, encodeOperation op = .ok front ∧ front.length ≤ fields.length := by
  induction ops generalizing fields with
  | nil => cases hop
  | cons first ops ih =>
    simp only [encodeOperations, bind_eq_ok_iff, pure_eq_ok_iff] at h
    obtain ⟨front, hfront, rest, hrest, rfl⟩ := h
    rw [List.length_append]
    rcases List.mem_cons.mp hop with rfl | hop
    · exact ⟨front, hfront, Nat.le_add_right ..⟩
    · obtain ⟨front', hfront', hle⟩ := ih hrest hop
      exact ⟨front', hfront', Nat.le_trans hle (Nat.le_add_left ..)⟩

/-- A value that a record binds takes as much of its payload as a put of its own would take. -/
theorem loggable_of_encodeFields {r : Record} {fields : Bytes} (h : encodeFields r = .ok fields)
    (hlimit : 8 + fields.length < limit) {key value : Bytes} (hop : .put key value ∈ r.operations) :
    Loggable key value := by
  unfold Loggable
  cases r with
  | put seq k v =>
    cases List.mem_singleton.mp hop
    simp only [encodeFields, bind_eq_ok_iff, pure_eq_ok_iff] at h
    obtain ⟨k, hk, v, hv, rfl⟩ := h
    rw [List.length_append, length_of_field hk, length_of_field hv] at hlimit
    omega
  | delete seq k => cases List.mem_singleton.mp hop
  | batch seq ops =>
    simp only [encodeFields] at h
    split at h
    · simp only [bind_eq_ok_iff, pure_eq_ok_iff] at h
      obtain ⟨rest, hrest, rfl⟩ := h
      obtain ⟨front, hfront, hle⟩ := exists_of_encodeOperations hrest hop
      rw [length_of_encodeOperation_put hfront] at hle
      rw [List.length_append, Bytes.length_ofNatLE] at hlimit
      omega
    · cases h

end Payload

variable {sum : Bytes → UInt32}

/-- A record has a frame if its fields can be written, and are within the limit together with the sequence. -/
theorem exists_frame_iff {r : Record} : (∃ frame, Frame.encodeWith sum r = .ok frame) ↔
    ∃ fields, Payload.encodeFields r = .ok fields ∧ 8 + fields.length < Payload.limit := by
  constructor
  · rintro ⟨frame, hframe⟩
    obtain ⟨payload, hpayload, hlimit, -⟩ := Frame.encodeWith_eq_ok_iff.mp hframe
    obtain ⟨fields, hfields, rfl⟩ := Payload.encode_eq_ok_iff.mp hpayload
    rw [List.length_append, Bytes.length_ofNatLE] at hlimit
    exact ⟨fields, hfields, hlimit⟩
  · rintro ⟨fields, hfields, hlimit⟩
    refine ⟨_, Frame.encodeWith_eq_ok_iff.mpr ⟨_, Payload.encode_eq_ok_iff.mpr ⟨fields, hfields, rfl⟩, ?_, rfl⟩⟩
    rwa [List.length_append, Bytes.length_ofNatLE]

theorem loggable_of_encodeWith {r : Record} {frame : Bytes} (h : Frame.encodeWith sum r = .ok frame)
    {key value : Bytes} (hop : .put key value ∈ r.operations) : Loggable key value := by
  obtain ⟨fields, hfields, hlimit⟩ := exists_frame_iff.mp ⟨frame, h⟩
  exact Payload.loggable_of_encodeFields hfields hlimit hop

/-- At whatever sequence. -/
theorem Loggable.exists_frame {key value : Bytes} (h : Loggable key value) (seq : Sequence) :
    ∃ frame, Frame.encodeWith sum (.put seq key value) = .ok frame := by
  unfold Loggable at h
  have hkey := Payload.field_eq_ok_iff.mpr ⟨show key.length < Payload.limit by omega, rfl⟩
  have hvalue := Payload.field_eq_ok_iff.mpr ⟨show value.length < Payload.limit by omega, rfl⟩
  refine exists_frame_iff.mpr ⟨_, bind_eq_ok_iff.mpr ⟨_, hkey, bind_eq_ok_iff.mpr ⟨_, hvalue, rfl⟩⟩, ?_⟩
  simp only [List.length_append, Bytes.length_ofNatLE]
  omega

/-- The delete of a key has a frame if the key is short enough. -/
theorem exists_frame_delete_iff {key : Bytes} {seq : Sequence} :
    (∃ frame, Frame.encodeWith sum (.delete seq key) = .ok frame) ↔ 12 + key.length < Payload.limit := by
  rw [exists_frame_iff]
  constructor
  · rintro ⟨fields, hfields, hlimit⟩
    rw [Payload.length_of_field hfields] at hlimit
    omega
  · intro hfits
    refine ⟨_, Payload.field_eq_ok_iff.mpr ⟨by omega, rfl⟩, ?_⟩
    rw [List.length_append, Bytes.length_ofNatLE]
    omega

/-- Records that have frames are a log. -/
theorem exists_encodeLogWith {rs : List Record} (h : ∀ r ∈ rs, ∃ frame, Frame.encodeWith sum r = .ok frame) :
    ∃ data, encodeLogWith sum rs = .ok data := by
  induction rs with
  | nil => exact ⟨[], rfl⟩
  | cons r rs ih =>
    obtain ⟨frame, hframe⟩ := h r List.mem_cons_self
    obtain ⟨rest, hrest⟩ := ih fun r hr => h r (List.mem_cons_of_mem _ hr)
    exact ⟨_, encodeLogWith_cons_eq_ok_iff.mpr ⟨frame, rest, hframe, hrest, rfl⟩⟩

/-! ## Timelines of values that can be logged -/

namespace Timeline

/-- Every value that is kept can be logged. -/
def Loggable (t : Timeline) : Prop :=
  t.versions.Every fun key v => ∀ value, v.value = some value → OrderedStore.Loggable key value

variable {t : Timeline} {r : Record} {frame : Bytes}

/-- A record that is in a log writes values that can be logged, below whatever floor. -/
theorem Loggable.record (h : t.Loggable) (hframe : Frame.encodeWith sum r = .ok frame) (floor : Sequence) :
    (t.versions.record r floor).Every fun key v => ∀ value, v.value = some value → OrderedStore.Loggable key value := by
  refine VersionMap.Every.apply h (fun op hop value hvalue => ?_) floor
  cases op with
  | put key value =>
    cases hvalue
    exact loggable_of_encodeWith hframe hop
  | delete key => cases hvalue

theorem loggable_ofRecords {rs : List Record} {data : Bytes} (h : encodeLogWith sum rs = .ok data) :
    (ofRecords rs).Loggable := by
  induction rs using List.reverseRecOn generalizing data with
  | nil => exact VersionMap.every_empty _
  | append_singleton rs r ih =>
    obtain ⟨front, rest, hfront, -, -⟩ := encodeLogWith_append_eq_ok_iff.mp h
    obtain ⟨frame, hframe⟩ := exists_frame_of_mem h (List.mem_append_right rs List.mem_cons_self)
    rw [ofRecords_append_singleton]
    exact (ih hfront).record hframe r.seq

/-- So is each value that is current. -/
theorem Loggable.of_mem_contents (h : t.Loggable) {e : Entry} (he : e ∈ t.contents.entries) :
    OrderedStore.Loggable e.1 e.2 := by
  obtain ⟨seq, hvalue⟩ := VersionMap.Every.of_mem_live h he
  exact hvalue e.2 rfl

theorem le_sequence_ofRecords {rs : List Record} (h : r ∈ rs) : r.seq ≤ (ofRecords rs).sequence := by
  induction rs using List.reverseRecOn with
  | nil => cases h
  | append_singleton rs last ih =>
    rw [ofRecords_append_singleton]
    obtain ⟨hle, hlast⟩ := sequence_le_replay (ofRecords rs) last
    rcases List.mem_append.mp h with h | h
    · exact UInt64.le_trans (ih h) hle
    · exact List.mem_singleton.mp h ▸ hlast

theorem Loggable.unpin (h : t.Loggable) (seq : Sequence) : (t.unpin seq).Loggable := by
  simp only [Timeline.unpin]
  split
  · exact h
  · exact VersionMap.Every.sweep h _

end Timeline

namespace Connection

/-- The frames of a compaction exist if the values that are current can be logged. -/
theorem exists_compacted_of_live {σ : Type} {c : Connection σ}
    (h : ∀ e ∈ c.timeline.contents.entries, Loggable e.1 e.2) : ∃ data, encodeLog c.compacted = .ok data := by
  refine exists_encodeLogWith fun r hr => ?_
  obtain ⟨e, he, rfl⟩ := List.mem_map.mp hr
  exact (h e he).exists_frame c.sequence

/-- They always exist. -/
theorem exists_compacted {σ : Type} {c : Connection σ} (h : c.timeline.Loggable) :
    ∃ data, encodeLog c.compacted = .ok data :=
  exists_compacted_of_live fun _ he => h.of_mem_contents he

variable {σ : Type} [LogStorage σ] {c : Connection σ}

/-- What is published has been logged. -/
theorem loggable_write (h : c.timeline.Loggable) (w : Write) : (c.write w).2.timeline.Loggable := by
  obtain ⟨make, -, heq⟩ | ⟨-, heq⟩ := c.write_eq w
  · rw [heq]
    obtain ⟨-, -, heq⟩ | ⟨-, -, -, -, heq⟩ | ⟨-, size, -, ⟨-, log, -, -, heq⟩ | ⟨offset, log, happend, -, heq⟩⟩ :=
      commit_cases (Prod.eta (c.commit make)).symm
    · rw [heq]
      exact h
    · rw [heq]
      exact h
    · rw [heq]
      exact h
    · rw [heq]
      unfold appendRecord at happend
      split at happend
      · cases happend
      · rename_i frame hframe
        exact h.record hframe _
  · rw [heq]
    exact h

theorem loggable_openOn {holds : σ → Bytes → Prop} (h : Lawful holds) {log : σ} {data : Bytes} (hs : holds log data)
    {path : Option String} {options : EngineOptions} (hopen : openOn path options log = .ok c) :
    c.timeline.Loggable := by
  obtain ⟨-, htimeline, -⟩ := holds_openOn h hs hopen
  rw [htimeline]
  exact Timeline.loggable_ofRecords (Replay.encodeLog_records data)

/-- On a storage that does not fail, a closing leaves the compacted records. -/
theorem close_eq_ok {holds : σ → Bytes → Prop} (h : Faithful holds) (hisOpen : c.isOpen = true) {data bytes : Bytes}
    (hs : holds c.log data) (hbytes : encodeLog c.compacted = .ok bytes) :
    c.close.1 = .ok () ∧ holds c.close.2.log bytes := by
  obtain ⟨log, hrewrite⟩ := h.rewrites bytes hs
  have hlog := h.rewrite_ok hs hrewrite
  obtain ⟨log', hsync⟩ := h.syncs hlog
  have hlog' : holds log' bytes := by
    have := h.sync hlog
    rwa [hsync] at this
  have hclose : c.close = (.ok (), { c with log := release log', isOpen := false }) := by
    simp only [close, hisOpen, compact, rewriteRecords, hbytes, hrewrite, hsync, Bool.not_true, Bool.false_eq_true,
      if_false]
  rw [hclose]
  exact ⟨rfl, h.release hlog'⟩

omit [LogStorage σ] in
/-- The compacted records stand at the last sequence, if there are any. -/
theorem sequence_compacted (c : Connection σ) : (Timeline.ofRecords c.compacted).sequence =
    if c.timeline.contents.entries = [] then 0 else c.sequence := by
  split
  · rename_i hnil
    have hlive : c.timeline.live = [] := hnil
    rw [compacted, hlive]
    rfl
  · rename_i hne
    obtain ⟨e, he⟩ := List.exists_mem_of_ne_nil _ hne
    have hle := Timeline.le_sequence_ofRecords (List.mem_map_of_mem he : Record.put c.sequence e.1 e.2 ∈ c.compacted)
    exact UInt64.le_antisymm c.sequence_compacted_le hle

omit [LogStorage σ] in
/-- The compacted records are those of the contents and the sequence, whatever else the connection has come through. -/
theorem compacted_congr {τ : Type} {d : Connection τ} (hcontents : d.timeline.contents = c.timeline.contents)
    (hseq : d.sequence = c.sequence) : d.compacted = c.compacted := by
  have hlive : d.timeline.live = c.timeline.live := congrArg KeyMap.entries hcontents
  rw [compacted, compacted, hlive, hseq]

omit [LogStorage σ] in
/-- They are compacted to themselves. -/
theorem compacted_ofRecords {τ : Type} {d : Connection τ}
    (hcontents : d.timeline.contents = (Timeline.ofRecords c.compacted).contents)
    (hseq : d.sequence = (Timeline.ofRecords c.compacted).sequence) : d.compacted = c.compacted := by
  rw [contents_compacted] at hcontents
  rw [sequence_compacted] at hseq
  by_cases hnil : c.timeline.contents.entries = []
  · -- without entries there is no record that tells the sequence, and none that has to be told
    have hlive : c.timeline.live = [] := hnil
    have hlive' : d.timeline.live = [] := (congrArg KeyMap.entries hcontents).trans hnil
    rw [compacted, compacted, hlive, hlive', List.map_nil, List.map_nil]
  · rw [if_neg hnil] at hseq
    exact compacted_congr hcontents hseq

end Connection

/-! ## Sessions -/

theorem Write.operations_ne_nil {seq : Sequence} {w : Write} {r : Record} (h : w.record? seq = some r) :
    w.operations ≠ [] := by
  cases w with
  | put | delete => exact List.cons_ne_nil _ _
  | apply ops =>
    intro hnil
    cases (if_pos hnil : (apply ops).record? seq = none).symm.trans h

namespace Session

variable {σ : Type} [LogStorage σ] {s : Session σ}

theorem loggable_step (h : s.connection.timeline.Loggable) (q : Request) :
    (s.step q).2.connection.timeline.Loggable := by
  obtain heq | ⟨w, r, rfl, -, -⟩ | ⟨seq, heq⟩ | ⟨seq, heq⟩ := s.timeline_step q
  · exact heq ▸ h
  · exact Connection.loggable_write h w
  · exact heq ▸ h
  · exact heq ▸ h.unpin seq

theorem loggable_run (h : s.connection.timeline.Loggable) (events : List (Event σ)) :
    (s.run events).connection.timeline.Loggable := by
  induction events generalizing s with
  | nil => exact h
  | cons event events ih =>
    cases event with
    | request q => exact ih (s := (s.step q).2) (loggable_step h q)
    | storage change => exact ih (s := s.next (.storage change)) h

/-- A request that applies no operation leaves what is current. -/
theorem step_of_effect_eq_nil {q : Request} (h : effect (q, (s.step q).1) = []) :
    (s.step q).2.connection.sequence = s.connection.sequence ∧
      (s.step q).2.connection.timeline.contents = s.connection.timeline.contents := by
  cases q with
  | write w =>
    obtain ⟨result, c, hw⟩ : ∃ result c, s.connection.write w = (result, c) := ⟨_, _, rfl⟩
    simp only [step, hw] at h ⊢
    obtain ⟨-, ⟨e, rfl, ht⟩ | ⟨rfl, hops, ht⟩ | ⟨rfl, r, hr, ht⟩⟩ := Connection.timeline_write hw
    · exact ⟨congrArg Timeline.sequence ht, congrArg Timeline.contents ht⟩
    · exact ⟨congrArg Timeline.sequence ht, congrArg Timeline.contents ht⟩
    · exact absurd h (Write.operations_ne_nil hr)
  | close | drop =>
    have ht := s.connection.timeline_close
    exact ⟨congrArg Timeline.sequence ht, congrArg Timeline.contents ht⟩
  | _ => exact (s.step_of_reads rfl).2.2

/-- By induction on the events. -/
theorem run_of_effects_eq_nil {events : List (Event σ)} (h : effects (s.trace events) = []) :
    (s.run events).connection.sequence = s.connection.sequence ∧
      (s.run events).connection.timeline.contents = s.connection.timeline.contents := by
  induction events generalizing s with
  | nil => exact ⟨rfl, rfl⟩
  | cons event events ih =>
    cases event with
    | request q =>
      obtain ⟨hnow, hrest⟩ := List.append_eq_nil_iff.mp h
      obtain ⟨hseq, hcontents⟩ := step_of_effect_eq_nil hnow
      obtain ⟨hseq', hcontents'⟩ := ih (s := (s.step q).2) hrest
      exact ⟨hseq'.trans hseq, hcontents'.trans hcontents⟩
    | storage change => exact ih (s := s.next (.storage change)) h

/-! ## Canonical logs -/

/-- What any opening of any log and any events lead to while the connection is open. -/
def Reached (holds : σ → Bytes → Prop) (s : Session σ) : Prop :=
  s.connection.isOpen = true ∧ ∃ path options log data c events, holds log data ∧
    Connection.openOn path options log = .ok c ∧ KeepsBytes holds events ∧ (start c).run events = s

variable {holds : σ → Bytes → Prop}

theorem Reached.exists_holds (h : Lawful holds) (hs : s.Reached holds) : ∃ data, holds s.connection.log data := by
  obtain ⟨hisOpen, path, options, log, data, c, events, hlog, hopen, hkeep, rfl⟩ := hs
  obtain ⟨hbase, -⟩ := Connection.holds_openOn h hlog hopen
  obtain ⟨more, hmore⟩ := leaves_run h (s := start c) hbase hkeep hisOpen
  exact ⟨_, hmore⟩

theorem Reached.loggable (h : Lawful holds) (hs : s.Reached holds) : s.connection.timeline.Loggable := by
  obtain ⟨-, path, options, log, data, c, events, hlog, hopen, -, rfl⟩ := hs
  exact loggable_run (s := start c) (Connection.loggable_openOn h hlog hopen) events

/-- A closing succeeds and leaves the compacted records. -/
theorem Reached.close (h : Faithful holds) (hs : s.Reached holds) :
    ∃ bytes, encodeLog s.connection.compacted = .ok bytes ∧
    s.connection.close.1 = .ok () ∧ holds s.connection.close.2.log bytes := by
  obtain ⟨data, hdata⟩ := hs.exists_holds h.toLawful
  obtain ⟨bytes, hbytes⟩ := Connection.exists_compacted (hs.loggable h.toLawful)
  exact ⟨bytes, hbytes, Connection.close_eq_ok h hs.1 hdata hbytes⟩

/-- On logs that do not fail, whatever the session has done and whichever readers it has: closing succeeds and leaves
one put for every entry of the map that its lookups give, in ascending order of keys, all at the last sequence.

* Any other session that ends with the same lookups and the same sequence leaves the same bytes.
* Whoever opens a copy of the bytes and commits nothing leaves the copy as it is. -/
theorem Reached.close_canonical (h : Faithful holds) (hs : s.Reached holds) :
    ∃ (m : Contents) (bytes : Bytes), (∀ key, s.connection.get key = .ok (m.get? key)) ∧
      encodeLog (m.entries.map fun e => .put s.connection.sequence e.1 e.2) = .ok bytes ∧
      s.connection.close.1 = .ok () ∧ holds s.connection.close.2.log bytes ∧
      (∀ {τ : Type} [LogStorage τ] {holds' : τ → Bytes → Prop}, Faithful holds' → ∀ s' : Session τ,
        s'.Reached holds' → (∀ key, s'.connection.get key = s.connection.get key) →
        s'.connection.sequence = s.connection.sequence →
        s'.connection.close.1 = .ok () ∧ holds' s'.connection.close.2.log bytes) ∧
      ∀ {τ : Type} [LogStorage τ] {holds' : τ → Bytes → Prop}, Faithful holds' → ∀ copy : τ, holds' copy bytes →
        ∀ (path : Option String) (options : EngineOptions), options.validate = .ok () →
        ∃ c, Connection.openOn path options copy = .ok c ∧
          ∀ events, KeepsBytes holds' events → ((start c).run events).connection.isOpen = true →
            effects ((start c).trace events) = [] →
            ((start c).run events).connection.close.1 = .ok () ∧
              holds' ((start c).run events).connection.close.2.log bytes := by
  have hget := fun key => Connection.get_of_isOpen hs.1 key
  obtain ⟨bytes, hbytes, hresult, hlog⟩ := hs.close h
  refine ⟨_, bytes, hget, hbytes, hresult, hlog, ?_, ?_⟩
  · intro τ _ holds' h' s' hs' hsame hseq
    have hcontents : s'.connection.timeline.contents = s.connection.timeline.contents := KeyMap.ext_get? fun key =>
      Except.ok.inj ((Connection.get_of_isOpen hs'.1 key).symm.trans ((hsame key).trans (hget key)))
    obtain ⟨bytes', hbytes', hclosed⟩ := hs'.close h'
    rw [Connection.compacted_congr hcontents hseq, hbytes] at hbytes'
    cases hbytes'
    exact hclosed
  · intro τ _ holds' h' copy hcopy path options hvalid
    obtain ⟨c, hopen, htimeline⟩ : ∃ c, Connection.openOn path options copy = .ok c ∧
        c.timeline = .ofRecords s.connection.compacted :=
      ⟨_, Connection.openOn_encodeLog hbytes (h'.readAll_eq hcopy) hvalid, rfl⟩
    refine ⟨c, hopen, fun events hkeep hisOpen hnone => ?_⟩
    have hreached : ((start c).run events).Reached holds' :=
      ⟨hisOpen, path, options, copy, bytes, c, events, hcopy, hopen, hkeep, rfl⟩
    obtain ⟨hseq, hcontents⟩ := run_of_effects_eq_nil hnone
    have hsame : ((start c).run events).connection.compacted = s.connection.compacted :=
      Connection.compacted_ofRecords (hcontents.trans (congrArg Timeline.contents htimeline))
        (hseq.trans (congrArg Timeline.sequence htimeline))
    obtain ⟨bytes', hbytes', hclosed⟩ := hreached.close h'
    rw [hsame, hbytes] at hbytes'
    cases hbytes'
    exact hclosed

/-- A key that is bound twice under a view and a cursor, and one that is erased, against a log that has the second
binding at the same sequence, and against a visit to a copy of what is left. -/
theorem Reached.close_canonical_histories :
    let data : Bytes := [66, 76, 79, 71, 1, 0, 1, 18, 0, 0, 0, 4, 0, 0, 0, 0, 0, 0, 0, 1, 0, 0, 0, 97, 1, 0, 0, 0, 2,
      57, 228, 243, 62]
    let c : Connection MemoryLog := ⟨none, {}, .ofRecords [], .empty, true⟩
    let events : List (Event MemoryLog) := [.write (.put [97] [1]), .openView, .write (.put [98] [3]), .openCursor,
      .write (.put [97] [2]), .write (.delete [98])].map .request
    let s := (start c).run events
    let d : Connection MemoryLog := ⟨none, {}, .ofRecords [.put 4 [97] [2]], ⟨data⟩, true⟩
    let visit : List (Event MemoryLog) := [.openCursor, .write (.apply []), .get [97]].map .request
    Faithful (fun (log : MemoryLog) bytes => log.data = bytes) ∧ s.Reached (fun log bytes => log.data = bytes) ∧
      (start d).Reached (fun log bytes => log.data = bytes) ∧ (∀ key, d.get key = s.connection.get key) ∧
      d.sequence = s.connection.sequence ∧ s.connection.timeline.versions.versionCount = 4 ∧
      s.connection.close.2.log.data = data ∧ d.close.2.log.data = data ∧
      ((start d).run visit).connection.close.2.log.data = data := by
  intro data c events s d visit
  have hopenC : Connection.openOn none {} MemoryLog.empty = .ok c := Connection.openOn_encodeLog rfl rfl (by decide)
  have hdata : encodeLog [.put 4 [97] [2]] = .ok data := by decide +kernel
  have hopenD : Connection.openOn none {} ⟨data⟩ = .ok d := Connection.openOn_encodeLog hdata rfl (by decide)
  have hkeep : ∀ requests : List Request,
      KeepsBytes (fun (log : MemoryLog) bytes => log.data = bytes) (requests.map .request) := by
    intro requests change hchange
    obtain ⟨q, -, hq⟩ := List.mem_map.mp hchange
    cases hq
  have hs : s.Reached fun log bytes => log.data = bytes :=
    ⟨by decide +kernel, none, {}, .empty, [], c, events, rfl, hopenC, hkeep _, rfl⟩
  have hd : (start d).Reached fun log bytes => log.data = bytes :=
    ⟨rfl, none, {}, ⟨data⟩, data, d, [], rfl, hopenD, nofun, rfl⟩
  have hcontents : d.timeline.contents = s.connection.timeline.contents := by decide +kernel
  have hget : ∀ key, d.get key = s.connection.get key := fun key => by
    rw [Connection.get_of_isOpen rfl, Connection.get_of_isOpen hs.1, hcontents]
  have hseq : d.sequence = s.connection.sequence := by decide +kernel
  obtain ⟨m, bytes, -, -, -, hlog, hsame, hagain⟩ := hs.close_canonical MemoryLog.faithful
  obtain ⟨-, hlog'⟩ := hsame MemoryLog.faithful (start d) hd hget hseq
  have hbytes : bytes = data := hlog'.symm.trans (by decide +kernel)
  obtain ⟨d', hopen, hvisit⟩ := hagain MemoryLog.faithful ⟨data⟩ hbytes.symm none {} (by decide)
  cases hopen.symm.trans hopenD
  obtain ⟨-, hlog''⟩ := hvisit visit (hkeep _) (by decide +kernel) (by decide +kernel)
  exact ⟨MemoryLog.faithful, hs, hd, hget, hseq, by decide +kernel, hlog.trans hbytes, hlog'.trans hbytes,
    hlog''.trans hbytes⟩

end Session

end OrderedStore
