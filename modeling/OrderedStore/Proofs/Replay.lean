import OrderedStore.Proofs.Frame
import OrderedStore.Replay

/-!
# Replay undoes encoding

Replay splits the bytes of a log into the frames of the records that it returns and a rest at whose
front no record stands.

* `readWith_split`: this split, for any bytes;
* `readWith_append`: records whose frames stand in front are returned first;
* `replay_inverts_encoding`: replay is the inverse of encoding on the longest front of the bytes that
  is a list of frames;
* `records_readWith_take`: a log that is cut gives the records whose frames lie below the cut.
-/

namespace OrderedStore

variable {sum : Bytes → UInt32}

/-! ## Lists of frames -/

theorem encodeLogWith_cons_eq_ok_iff {r : Record} {rs : List Record} {data : Bytes} :
    encodeLogWith sum (r :: rs) = .ok data ↔
      ∃ frame rest, Frame.encodeWith sum r = .ok frame ∧ encodeLogWith sum rs = .ok rest ∧
        data = frame ++ rest := by
  simp only [encodeLogWith, bind_eq_ok_iff, pure_eq_ok_iff, eq_comm (b := data)]
  exact ⟨fun ⟨frame, hf, rest, hr, h⟩ => ⟨frame, rest, hf, hr, h⟩,
    fun ⟨frame, rest, hf, hr, h⟩ => ⟨frame, hf, rest, hr, h⟩⟩

theorem encodeLogWith_append_eq_ok_iff {rs rs' : List Record} {data : Bytes} :
    encodeLogWith sum (rs ++ rs') = .ok data ↔
      ∃ front rest, encodeLogWith sum rs = .ok front ∧ encodeLogWith sum rs' = .ok rest ∧
        data = front ++ rest := by
  induction rs generalizing data with
  | nil =>
    refine ⟨fun h => ⟨[], data, rfl, h, rfl⟩, ?_⟩
    rintro ⟨front, rest, hf, hr, rfl⟩
    cases hf
    exact hr
  | cons r rs ih =>
    simp only [List.cons_append, encodeLogWith_cons_eq_ok_iff, ih]
    constructor
    · rintro ⟨frame, _, hf, ⟨front, rest, hfront, hrest, rfl⟩, rfl⟩
      exact ⟨_, rest, ⟨frame, front, hf, hfront, rfl⟩, hrest, (List.append_assoc ..).symm⟩
    · rintro ⟨_, rest, ⟨frame, front, hf, hfront, rfl⟩, hrest, rfl⟩
      exact ⟨frame, _, hf, ⟨front, rest, hfront, hrest, rfl⟩, List.append_assoc ..⟩

theorem exists_frame_of_mem {rs : List Record} {data : Bytes} (h : encodeLogWith sum rs = .ok data) {r : Record}
    (hr : r ∈ rs) : ∃ frame, Frame.encodeWith sum r = .ok frame := by
  obtain ⟨before, behind, rfl⟩ := List.append_of_mem hr
  obtain ⟨_, _, -, h, -⟩ := encodeLogWith_append_eq_ok_iff.mp h
  obtain ⟨frame, -, hf, -⟩ := encodeLogWith_cons_eq_ok_iff.mp h
  exact ⟨frame, hf⟩

namespace Replay

/-! ## One frame at a time -/

theorem readWith_nil (offset : Nat) : readWith sum offset [] = ⟨[], offset, offset, none⟩ := by
  rw [readWith, if_pos rfl]

theorem readWith_of_error {data : Bytes} {fault : FrameFault} (hne : data ≠ [])
    (h : Frame.parseWith sum data = .error fault) (offset : Nat) :
    readWith sum offset data = ⟨[], offset, offset + data.length, some ⟨fault, offset⟩⟩ := by
  rw [readWith, if_neg hne]
  split
  · rename_i h'
    rw [h] at h'
    cases h'
    rfl
  · rename_i h'
    rw [h] at h'
    cases h'

theorem readWith_frame {r : Record} {frame : Bytes} (h : Frame.encodeWith sum r = .ok frame) (offset : Nat)
    (rest : Bytes) :
    readWith sum offset (frame ++ rest) =
      { readWith sum (offset + frame.length) rest with
        records := r :: (readWith sum (offset + frame.length) rest).records } := by
  have hparse := Frame.parseWith_append h rest
  have hne : frame ++ rest ≠ [] := by
    have := Frame.length_pos h
    exact fun hnil => by simp_all
  rw [readWith, if_neg hne]
  split
  · rename_i h'
    rw [hparse] at h'
    cases h'
  · rename_i h'
    rw [hparse] at h'
    cases h'
    rw [List.drop_left]

/-! ## Whole logs -/

/-- The bytes of a log are the frames of the records that replay returns, up to the length that it reports,
and a rest: there is none if there is no damage, and otherwise the damage says why no record stands at its
front. By induction along the frames. -/
theorem readWith_split (offset : Nat) (data : Bytes) :
    ∃ front rest, data = front ++ rest ∧ encodeLogWith sum (readWith sum offset data).records = .ok front ∧
      (readWith sum offset data).validLength = offset + front.length ∧
      (readWith sum offset data).totalLength = offset + data.length ∧
      ((rest = [] ∧ (readWith sum offset data).damage = none) ∨
        ∃ fault, rest ≠ [] ∧ Frame.parseWith sum rest = .error fault ∧
          (readWith sum offset data).damage = some ⟨fault, offset + front.length⟩) := by
  induction hn : data.length using Nat.strongRecOn generalizing offset data with
  | ind n ih =>
    subst hn
    by_cases hnil : data = []
    · subst hnil
      rw [readWith_nil]
      exact ⟨[], [], rfl, rfl, rfl, rfl, .inl ⟨rfl, rfl⟩⟩
    · cases hparse : Frame.parseWith sum data with
      | error fault =>
        rw [readWith_of_error hnil hparse]
        exact ⟨[], data, rfl, rfl, rfl, rfl, .inr ⟨fault, hnil, hparse, rfl⟩⟩
      | ok parsed =>
        obtain ⟨r, m⟩ := parsed
        obtain ⟨frame, tail, henc, rfl, rfl⟩ := Frame.parseWith_eq_ok_iff.mp hparse
        have hlen : tail.length < (frame ++ tail).length := by
          have := Frame.length_pos henc
          rw [List.length_append]
          omega
        obtain ⟨front, rest, rfl, hlog, hvalid, htotal, hend⟩ := ih _ hlen (offset + frame.length) tail rfl
        rw [readWith_frame henc]
        refine ⟨frame ++ front, rest, (List.append_assoc ..).symm, ?_, ?_, ?_, ?_⟩
        · exact encodeLogWith_cons_eq_ok_iff.mpr ⟨frame, front, henc, hlog, rfl⟩
        · rw [hvalid, List.length_append, Nat.add_assoc]
        · rw [htotal, @List.length_append _ frame, Nat.add_assoc]
        · rw [List.length_append, ← Nat.add_assoc]
          exact hend

/-- Records whose frames stand at the front of a log are the first that replay returns. -/
theorem readWith_append {rs : List Record} {front : Bytes} (h : encodeLogWith sum rs = .ok front) (offset : Nat)
    (rest : Bytes) :
    readWith sum offset (front ++ rest) =
      { readWith sum (offset + front.length) rest with
        records := rs ++ (readWith sum (offset + front.length) rest).records } := by
  induction rs generalizing offset front with
  | nil =>
    cases h
    rfl
  | cons r rs ih =>
    obtain ⟨frame, tail, hf, hr, rfl⟩ := encodeLogWith_cons_eq_ok_iff.mp h
    rw [List.append_assoc, readWith_frame hf, ih hr, List.length_append, Nat.add_assoc]
    rfl

/-- A log that is a list of frames is read back without damage. -/
theorem readWith_encodeLogWith {rs : List Record} {data : Bytes} (h : encodeLogWith sum rs = .ok data)
    (offset : Nat) :
    readWith sum offset data = ⟨rs, offset + data.length, offset + data.length, none⟩ := by
  have := readWith_append h offset []
  rwa [List.append_nil, readWith_nil, List.append_nil] at this

/-- The bytes up to the valid length are the frames of the records. -/
theorem encodeLogWith_records (sum : Bytes → UInt32) (data : Bytes) :
    encodeLogWith sum (readWith sum 0 data).records = .ok (data.take (readWith sum 0 data).validLength) := by
  obtain ⟨front, rest, rfl, hlog, hvalid, -, -⟩ := @readWith_split sum 0 data
  rw [Nat.zero_add] at hvalid
  rw [hvalid, List.take_left]
  exact hlog

theorem totalLength_readWith (sum : Bytes → UInt32) (data : Bytes) :
    (readWith sum 0 data).totalLength = data.length := by
  obtain ⟨front, rest, -, -, -, htotal, -⟩ := @readWith_split sum 0 data
  rw [htotal, Nat.zero_add]

theorem validLength_le (sum : Bytes → UInt32) (data : Bytes) :
    (readWith sum 0 data).validLength ≤ data.length := by
  obtain ⟨front, rest, rfl, -, hvalid, -, -⟩ := @readWith_split sum 0 data
  rw [hvalid, Nat.zero_add, List.length_append]
  exact Nat.le_add_right ..

/-- There is no damage exactly if all bytes are valid. -/
theorem damage_eq_none_iff (sum : Bytes → UInt32) (data : Bytes) :
    (readWith sum 0 data).damage = none ↔ (readWith sum 0 data).validLength = data.length := by
  obtain ⟨front, rest, rfl, -, hvalid, -, hend⟩ := @readWith_split sum 0 data
  rw [hvalid, Nat.zero_add, List.length_append]
  rcases hend with ⟨rfl, hnone⟩ | ⟨fault, hne, -, hsome⟩
  · simp only [hnone, List.length_nil, Nat.add_zero]
  · have := List.length_pos_iff.mpr hne
    simp only [hsome, reduceCtorEq, false_iff]
    omega

/-- For any bytes and any checksum, replay returns records whose frames, one behind the other, are the bytes up
to the valid length; whatever list of records has its frames at the front of the bytes, the returned list
begins with it; and there is no damage exactly if the valid length is that of all bytes. -/
theorem replay_inverts_encoding (sum : Bytes → UInt32) (data : Bytes) :
    (∀ r ∈ (readWith sum 0 data).records, ∃ frame, Frame.encodeWith sum r = .ok frame) ∧
    encodeLogWith sum (readWith sum 0 data).records = .ok (data.take (readWith sum 0 data).validLength) ∧
    (∀ rs front, encodeLogWith sum rs = .ok front → front <+: data → rs <+: (readWith sum 0 data).records) ∧
    (readWith sum 0 data).totalLength = data.length ∧
    ((readWith sum 0 data).damage = none ↔
      (readWith sum 0 data).validLength = (readWith sum 0 data).totalLength) := by
  have hlog := encodeLogWith_records sum data
  have htotal := totalLength_readWith sum data
  refine ⟨fun r hr => exists_frame_of_mem hlog hr, hlog, fun rs front h hprefix => ?_, htotal, ?_⟩
  · obtain ⟨rest, rfl⟩ := hprefix
    rw [readWith_append h]
    exact List.prefix_append ..
  · rw [htotal]
    exact damage_eq_none_iff sum data

/-! ## Logs that are cut -/

/-- The records of a list whose frames, one behind the other, end within `n` bytes. -/
def framesWithin (sum : Bytes → UInt32) (n : Nat) : List Record → List Record
  | [] => []
  | r :: rs =>
    match Frame.encodeWith sum r with
    | .error _ => []
    | .ok frame => if frame.length ≤ n then r :: framesWithin sum (n - frame.length) rs else []

/-- A log that is cut gives the records whose frames lie below the cut: what is left of the frame that is cut
is not read as a record. -/
theorem records_readWith_take {rs : List Record} {data : Bytes} (h : encodeLogWith sum rs = .ok data)
    (n offset : Nat) : (readWith sum offset (data.take n)).records = framesWithin sum n rs := by
  induction rs generalizing data n offset with
  | nil =>
    cases h
    rw [List.take_nil, readWith_nil]
    rfl
  | cons r rs ih =>
    obtain ⟨frame, rest, hf, hr, rfl⟩ := encodeLogWith_cons_eq_ok_iff.mp h
    simp only [framesWithin, hf]
    split
    · rename_i hle
      rw [List.take_append, List.take_of_length_le hle, readWith_frame hf]
      exact congrArg _ (ih hr ..)
    · rename_i hgt
      rw [List.take_append_of_le_length (by omega)]
      by_cases hnil : frame.take n = []
      · rw [hnil, readWith_nil]
      · cases hparse : Frame.parseWith sum (frame.take n) with
        | error fault => rw [readWith_of_error hnil hparse]
        | ok parsed => exact absurd hparse (Frame.parseWith_take_ne_ok hf (by omega) parsed.1 parsed.2)

/-- A cut behind the frames of `rs` keeps all of `rs`. -/
theorem framesWithin_append {rs : List Record} {front : Bytes} (h : encodeLogWith sum rs = .ok front)
    (rs' : List Record) (n : Nat) :
    framesWithin sum (front.length + n) (rs ++ rs') = rs ++ framesWithin sum n rs' := by
  induction rs generalizing front with
  | nil =>
    cases h
    rw [List.length_nil, Nat.zero_add]
    rfl
  | cons r rs ih =>
    obtain ⟨frame, rest, hf, hr, rfl⟩ := encodeLogWith_cons_eq_ok_iff.mp h
    simp only [List.cons_append, framesWithin, hf, List.length_append]
    rw [if_pos (by omega), Nat.add_assoc, Nat.add_sub_cancel_left, ih hr]

end Replay

end OrderedStore
