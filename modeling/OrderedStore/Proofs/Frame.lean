import OrderedStore.Proofs.Payload
import OrderedStore.Record.Frame

/-!
# Frames are read as they are written

For any checksum, the bytes at the front of a log are read as a record exactly if they are that
record's frame (`parseWith_eq_ok_iff`). So a frame is read back whatever stands behind it
(`parseWith_append`), and no strict front of a frame is read as a record (`parseWith_take_ne_ok`).
-/

namespace OrderedStore.Frame

/-- Everything before the payload. -/
def header (kind : Record.Kind) (n : Nat) : Bytes :=
  magic ++ Bytes.ofNatLE 2 version ++ kind.tag :: Bytes.ofNatLE 4 n

theorem length_header (kind : Record.Kind) (n : Nat) : (header kind n).length = headerSize := rfl

theorem body_eq (kind : Record.Kind) (payload : Bytes) :
    body kind payload = header kind payload.length ++ payload := rfl

theorem length_body (kind : Record.Kind) (payload : Bytes) :
    (body kind payload).length = headerSize + payload.length := by
  rw [body_eq, List.length_append, length_header]

theorem encodeWith_eq_ok_iff {sum : Bytes → UInt32} {r : Record} {frame : Bytes} :
    encodeWith sum r = .ok frame ↔
      ∃ payload, Payload.encode r = .ok payload ∧ payload.length < Payload.limit ∧
        frame = body r.kind payload ++ Bytes.ofNatLE checksumSize (sum (body r.kind payload)).toNat := by
  simp only [encodeWith, bind_eq_ok_iff]
  refine exists_congr fun payload => and_congr_right fun _ => ?_
  split
  · rename_i h
    rw [pure_eq_ok_iff, eq_comm]
    exact ⟨fun e => ⟨h, e⟩, fun e => e.2⟩
  · rename_i h
    exact ⟨fun e => (nomatch e), fun e => absurd e.1 h⟩

/-- What stands behind a header is read exactly if it is a payload of the announced length, the checksum of
what it covers, and any bytes. -/
theorem parseBody_eq_ok_iff {sum : Bytes → UInt32} {kind : Record.Kind} {length n : Nat} {covered rest : Bytes}
    {r : Record} :
    parseBody sum kind length covered rest = .ok (r, n) ↔
      ∃ payload tail, payload.length = length ∧
        rest = payload ++ (Bytes.ofNatLE checksumSize (sum covered).toNat ++ tail) ∧
        Payload.decode kind payload = .ok r ∧ n = headerSize + length + checksumSize := by
  constructor
  · intro h
    obtain ⟨hn, hlen⟩ := parseBody_eq_ok h
    simp only [parseBody] at h
    split at h
    · cases h
    · rename_i hsum
      split at h
      · cases h
      · rename_i heq
        split at h
        · cases h
        · rename_i record hdec
          simp only [Except.ok.injEq, Prod.mk.injEq] at h
          obtain ⟨rfl, -⟩ := h
          have hsize : ((rest.drop length).take checksumSize).length = checksumSize := by
            rw [List.length_take, List.length_drop]
            omega
          have hword : Bytes.ofNatLE checksumSize (sum covered).toNat = (rest.drop length).take checksumSize := by
            have hlt := Bytes.toNatLE_lt ((rest.drop length).take checksumSize)
            have hround := Bytes.ofNatLE_toNatLE ((rest.drop length).take checksumSize)
            rw [hsize] at hlt hround
            rw [← Decidable.of_not_not heq, UInt32.toNat_ofNat_of_lt' hlt, hround]
          refine ⟨rest.take length, (rest.drop length).drop checksumSize, ?_, ?_, hdec, hn⟩
          · rw [List.length_take]
            omega
          · rw [hword, List.take_append_drop, List.take_append_drop]
  · rintro ⟨payload, tail, rfl, rfl, hdec, rfl⟩
    have hlt : (sum covered).toNat < Bytes.capacity checksumSize := (sum covered).toNat_lt
    simp only [parseBody, List.drop_left, List.take_left, hdec]
    rw [List.take_left' (Bytes.length_ofNatLE _ _), Bytes.length_ofNatLE, if_neg (Nat.lt_irrefl _),
      Bytes.toNatLE_ofNatLE_of_lt hlt, UInt32.ofNat_toNat, if_neg (fun h => h rfl)]

theorem parseWith_header (sum : Bytes → UInt32) (kind : Record.Kind) {n : Nat} (hn : n < Payload.limit)
    (rest : Bytes) :
    parseWith sum (header kind n ++ rest) =
      parseBody sum kind n ((header kind n ++ rest).take (headerSize + n)) rest := by
  have hlen : Bytes.toNatLE (Bytes.ofNatLE 4 n) = n := Bytes.toNatLE_ofNatLE_of_lt hn
  have hver : Bytes.toNatLE (Bytes.ofNatLE 2 version) = version := by decide
  have htag : Record.Kind.ofTag? kind.tag = some kind := Record.Kind.ofTag?_eq_some_iff.mpr rfl
  simp only [Bytes.ofNatLE] at hlen hver
  simp only [header, magic, Bytes.ofNatLE, List.cons_append, List.nil_append, parseWith, hlen, hver, htag,
    ne_eq, not_true_eq_false, if_false]

/-- A record is read at the front of `data` only behind a header. -/
theorem exists_header {sum : Bytes → UInt32} {data : Bytes} {r : Record} {n : Nat}
    (h : parseWith sum data = .ok (r, n)) :
    ∃ kind length rest, length < Payload.limit ∧ data = header kind length ++ rest := by
  unfold parseWith at h
  split at h
  · rename_i m₀ m₁ m₂ m₃ v₀ v₁ tag l₀ l₁ l₂ l₃ rest
    split at h
    · cases h
    · rename_i hmagic
      split at h
      · cases h
      · rename_i hversion
        split at h
        · cases h
        · rename_i kind hkind
          refine ⟨kind, Bytes.toNatLE [l₀, l₁, l₂, l₃], rest, Bytes.toNatLE_lt [l₀, l₁, l₂, l₃], ?_⟩
          have hv : Bytes.ofNatLE 2 version = [v₀, v₁] := by
            rw [← Decidable.of_not_not hversion]
            exact Bytes.ofNatLE_toNatLE [v₀, v₁]
          have hl : Bytes.ofNatLE 4 (Bytes.toNatLE [l₀, l₁, l₂, l₃]) = [l₀, l₁, l₂, l₃] :=
            Bytes.ofNatLE_toNatLE [l₀, l₁, l₂, l₃]
          rw [header, ← Decidable.of_not_not hmagic, hv, hl, ← Record.Kind.ofTag?_eq_some_iff.mp hkind]
          rfl
  · cases h

theorem take_header (kind : Record.Kind) (payload tail : Bytes) :
    (header kind payload.length ++ (payload ++ tail)).take (headerSize + payload.length) = body kind payload := by
  rw [← List.append_assoc, ← body_eq, List.take_left' (length_body kind payload)]

/-- A record is read at the front of `data` exactly if its frame stands there. -/
theorem parseWith_eq_ok_iff {sum : Bytes → UInt32} {data : Bytes} {r : Record} {n : Nat} :
    parseWith sum data = .ok (r, n) ↔
      ∃ frame rest, encodeWith sum r = .ok frame ∧ data = frame ++ rest ∧ n = frame.length := by
  have hframe : ∀ payload : Bytes, (body r.kind payload ++ Bytes.ofNatLE checksumSize
      (sum (body r.kind payload)).toNat).length = headerSize + payload.length + checksumSize := fun payload => by
    rw [List.length_append, length_body, Bytes.length_ofNatLE]
  constructor
  · intro h
    obtain ⟨kind, length, rest, hlen, rfl⟩ := exists_header h
    rw [parseWith_header sum kind hlen, parseBody_eq_ok_iff] at h
    obtain ⟨payload, tail, rfl, hrest, hdec, rfl⟩ := h
    obtain ⟨rfl, henc⟩ := Payload.decode_eq_ok_iff.mp hdec
    have hcovered : (header r.kind payload.length ++ rest).take (headerSize + payload.length) = body r.kind payload := by
      rw [hrest, take_header]
    rw [hcovered] at hrest
    refine ⟨_, tail, encodeWith_eq_ok_iff.mpr ⟨payload, henc, hlen, rfl⟩, ?_, (hframe payload).symm⟩
    rw [hrest, body_eq, List.append_assoc, List.append_assoc]
  · rintro ⟨frame, rest, henc, rfl, rfl⟩
    obtain ⟨payload, hpay, hlen, rfl⟩ := encodeWith_eq_ok_iff.mp henc
    have hdata : body r.kind payload ++ Bytes.ofNatLE checksumSize (sum (body r.kind payload)).toNat ++ rest =
        header r.kind payload.length ++
          (payload ++ (Bytes.ofNatLE checksumSize (sum (body r.kind payload)).toNat ++ rest)) := by
      rw [body_eq, List.append_assoc, List.append_assoc]
    rw [hdata, parseWith_header sum r.kind hlen, parseBody_eq_ok_iff, take_header, hframe]
    exact ⟨payload, rest, rfl, rfl, Payload.decode_eq_ok_iff.mpr ⟨rfl, hpay⟩, rfl⟩

/-- A frame is read back whatever stands behind it. -/
theorem parseWith_append {sum : Bytes → UInt32} {r : Record} {frame : Bytes} (h : encodeWith sum r = .ok frame)
    (rest : Bytes) : parseWith sum (frame ++ rest) = .ok (r, frame.length) :=
  parseWith_eq_ok_iff.mpr ⟨frame, rest, h, rfl, rfl⟩

theorem length_pos {sum : Bytes → UInt32} {r : Record} {frame : Bytes} (h : encodeWith sum r = .ok frame) :
    0 < frame.length :=
  (parseWith_bounds (parseWith_append h [])).1

/-- No strict front of a frame is read as a record: a record read there would be read from the whole frame as
well, which is longer. -/
theorem parseWith_take_ne_ok {sum : Bytes → UInt32} {r : Record} {frame : Bytes} (h : encodeWith sum r = .ok frame)
    {n : Nat} (hn : n < frame.length) (r' : Record) (m : Nat) : parseWith sum (frame.take n) ≠ .ok (r', m) := by
  intro hparse
  obtain ⟨frame', rest, henc, htake, rfl⟩ := parseWith_eq_ok_iff.mp hparse
  have hlong : parseWith sum frame = .ok (r', frame'.length) := by
    rw [← List.take_append_drop n frame, htake, List.append_assoc]
    exact parseWith_append henc _
  have hshort := parseWith_append h []
  rw [List.append_nil, hlong] at hshort
  have hle : frame'.length ≤ n := by
    have := congrArg List.length htake
    simp only [List.length_take, List.length_append] at this
    omega
  simp only [Except.ok.injEq, Prod.mk.injEq] at hshort
  omega

end OrderedStore.Frame
