import OrderedStore.Proofs.Crc32
import OrderedStore.Proofs.Replay

/-!
# One changed byte

A log in which a single byte has been changed is read up to the frame that holds the byte, and is
damaged there. Nothing else is asked of the checksum than that it changes with every single byte of
what it covers (`DetectsByte`), which the CRC-32 does.

A change of the magic, the version, the kind, the payload or the checksum is found by comparing the
checksum. A change of the length moves the checksum to another place, where it may happen to be right;
it is found because no payload is a strict front of another one of its kind.

* `Frame.parseWith_modify_ne_ok`: a frame with a changed byte is not read as a record, whatever stands
  behind it;
* `Replay.readWith_modify`: what is read of a log with a changed byte;
* `changed_byte_localized`: the same for the checksum that logs use.
-/

namespace OrderedStore

/-- The checksum changes with every single byte of what it covers. -/
def DetectsByte (sum : Bytes → UInt32) : Prop :=
  ∀ (bs : Bytes) (p : Nat) (x : UInt8), p < bs.length → x ≠ 0 → sum (bs.modify p (· ^^^ x)) ≠ sum bs

theorem detectsByte_crc32 : DetectsByte crc32 := fun _ _ _ hp hx => crc32_modify_ne hp hx

/-! ## Changing one element of a list -/

theorem modify_append_of_lt {α : Type} {l l' : List α} {p : Nat} (hp : p < l.length) (f : α → α) :
    (l ++ l').modify p f = l.modify p f ++ l' := by
  induction l generalizing p with
  | nil => exact absurd hp (Nat.not_lt_zero p)
  | cons a l ih =>
    cases p with
    | zero => rfl
    | succ p =>
      have hp' : p < l.length := Nat.lt_of_succ_lt_succ hp
      rw [List.cons_append, List.modify_succ_cons, List.modify_succ_cons, ih hp', List.cons_append]

theorem modify_append_of_le {α : Type} {l l' : List α} {p : Nat} (hp : l.length ≤ p) (f : α → α) :
    (l ++ l').modify p f = l ++ l'.modify (p - l.length) f := by
  induction l generalizing p with
  | nil => rfl
  | cons a l ih =>
    cases p with
    | zero => exact absurd hp (Nat.not_succ_le_zero _)
    | succ p =>
      have hp' : l.length ≤ p := Nat.le_of_succ_le_succ hp
      rw [List.cons_append, List.modify_succ_cons, ih hp', List.length_cons, Nat.add_sub_add_right, List.cons_append]

theorem modify_xor_ne {bs : Bytes} {p : Nat} (hp : p < bs.length) {x : UInt8} (hx : x ≠ 0) :
    bs.modify p (· ^^^ x) ≠ bs := by
  intro h
  have hbyte := List.getElem_modify_eq (· ^^^ x) p bs (by rwa [List.length_modify])
  simp only [h] at hbyte
  have hzero : bs[p] ^^^ 0 = bs[p] ^^^ x := by rw [UInt8.xor_zero, ← hbyte]
  exact hx ((UInt8.xor_right_inj _).mp hzero).symm

namespace Frame

/-! ## Headers -/

/-- What stands before the length. -/
def lead (kind : Record.Kind) : Bytes := magic ++ Bytes.ofNatLE 2 version ++ [kind.tag]

theorem header_eq (kind : Record.Kind) (n : Nat) : header kind n = lead kind ++ Bytes.ofNatLE 4 n := rfl

theorem length_lead (kind : Record.Kind) : (lead kind).length = 7 := rfl

theorem lead_injective {kind kind' : Record.Kind} (h : lead kind = lead kind') : kind = kind' := by
  have htag : kind.tag = kind'.tag := by
    have := (List.append_cancel_left h)
    exact List.head_eq_of_cons_eq this
  have hkind := Record.Kind.ofTag?_eq_some_iff.mpr htag
  rw [Record.Kind.ofTag?_eq_some_iff.mpr rfl] at hkind
  exact Option.some.inj hkind

theorem ofNatLE_four_inj {n n' : Nat} (hn : n < Payload.limit) (hn' : n' < Payload.limit)
    (h : Bytes.ofNatLE 4 n = Bytes.ofNatLE 4 n') : n = n' := by
  rw [← Bytes.toNatLE_ofNatLE_of_lt hn, h, Bytes.toNatLE_ofNatLE_of_lt hn']

theorem header_inj {kind kind' : Record.Kind} {n n' : Nat} (hn : n < Payload.limit) (hn' : n' < Payload.limit)
    (h : header kind n = header kind' n') : kind = kind' ∧ n = n' := by
  rw [header_eq, header_eq] at h
  obtain ⟨hlead, hlength⟩ := List.append_inj h rfl
  exact ⟨lead_injective hlead, ofNatLE_four_inj hn hn' hlength⟩

/-- A change before the length leaves the length. -/
theorem length_eq_of_modify_header {kind kind' : Record.Kind} {n n' p : Nat} {f : UInt8 → UInt8}
    (hn : n < Payload.limit) (hn' : n' < Payload.limit) (hp : p < 7)
    (h : (header kind n).modify p f = header kind' n') : n = n' := by
  rw [header_eq, header_eq, modify_append_of_lt hp] at h
  have hlength : ((lead kind).modify p f).length = (lead kind').length := by
    rw [List.length_modify, length_lead, length_lead]
  exact ofNatLE_four_inj hn hn' (List.append_inj h hlength).2

/-- A change of the length leaves the kind. -/
theorem kind_eq_of_modify_header {kind kind' : Record.Kind} {n n' p : Nat} {f : UInt8 → UInt8} (hp : 7 ≤ p)
    (h : (header kind n).modify p f = header kind' n') : kind = kind' := by
  rw [header_eq, header_eq, modify_append_of_le hp] at h
  exact lead_injective (List.append_inj h rfl).1

/-! ## Frames -/

variable {sum : Bytes → UInt32}

/-- The checksum that stands behind a body. -/
def word (sum : Bytes → UInt32) (kind : Record.Kind) (payload : Bytes) : Bytes :=
  Bytes.ofNatLE checksumSize (sum (body kind payload)).toNat

theorem length_word (kind : Record.Kind) (payload : Bytes) : (word sum kind payload).length = checksumSize :=
  Bytes.length_ofNatLE ..

theorem encodeWith_eq_ok_iff_append {r : Record} {frame : Bytes} :
    encodeWith sum r = .ok frame ↔
      ∃ payload, Payload.encode r = .ok payload ∧ payload.length < Payload.limit ∧
        frame = header r.kind payload.length ++ (payload ++ word sum r.kind payload) := by
  simp only [encodeWith_eq_ok_iff, body_eq, word, List.append_assoc]

/-- A body with a changed byte has another checksum than the body. -/
theorem word_ne_of_modify_body (hsum : DetectsByte sum) {kind kind' : Record.Kind} {payload payload' : Bytes}
    {p : Nat} {x : UInt8} (hp : p < headerSize + payload.length) (hx : x ≠ 0)
    (h : (body kind payload).modify p (· ^^^ x) = body kind' payload') :
    word sum kind payload ≠ word sum kind' payload' := by
  intro hword
  have hlt : (sum (body kind payload)).toNat < Bytes.capacity checksumSize := UInt32.toNat_lt _
  have hlt' : (sum (body kind' payload')).toNat < Bytes.capacity checksumSize := UInt32.toNat_lt _
  have hnat : (sum (body kind payload)).toNat = (sum (body kind' payload')).toNat := by
    rw [word, word] at hword
    rw [← Bytes.toNatLE_ofNatLE_of_lt hlt, hword, Bytes.toNatLE_ofNatLE_of_lt hlt']
  have hp' : p < (body kind payload).length := by rwa [length_body]
  have hne := hsum (body kind payload) p x hp' hx
  rw [h] at hne
  exact hne (UInt32.toNat_inj.mp hnat.symm)

section Frames

variable {r r' : Record} {payload payload' rest rest' : Bytes} {p : Nat} {x : UInt8}

/-- A change before the length leaves the length, so the checksum is compared that stood there; a change of the
length leaves the kind, so another payload of this kind would have to be read. -/
theorem modify_header_ne (hsum : DetectsByte sum) (hpay : Payload.encode r = .ok payload)
    (hpay' : Payload.encode r' = .ok payload') (hlim : payload.length < Payload.limit)
    (hlim' : payload'.length < Payload.limit) (hp : p < headerSize) (hx : x ≠ 0) :
    (header r.kind payload.length).modify p (· ^^^ x) ++ (payload ++ (word sum r.kind payload ++ rest)) ≠
      header r'.kind payload'.length ++ (payload' ++ (word sum r'.kind payload' ++ rest')) := by
  intro heq
  have hsize : ((header r.kind payload.length).modify p (· ^^^ x)).length =
      (header r'.kind payload'.length).length := by
    rw [List.length_modify, length_header, length_header]
  obtain ⟨hhead, hrest⟩ := List.append_inj heq hsize
  by_cases hlead : p < 7
  · have hlen := length_eq_of_modify_header hlim hlim' hlead hhead
    obtain ⟨hpayload, hrest⟩ := List.append_inj hrest hlen
    have hbody : (body r.kind payload).modify p (· ^^^ x) = body r'.kind payload' := by
      rw [body_eq, body_eq, modify_append_of_lt hp, hhead, hpayload]
    refine word_ne_of_modify_body hsum (Nat.lt_add_right _ hp) hx hbody ?_
    exact (List.append_inj hrest (by rw [length_word, length_word])).1
  · have hkind := kind_eq_of_modify_header (Nat.not_lt.mp hlead) hhead
    have hpayload := Payload.encode_append_inj hkind hpay hpay' hrest
    rw [← hkind, ← hpayload] at hhead
    exact modify_xor_ne hp hx hhead

/-- A change of the payload changes the checksum. -/
theorem modify_payload_ne (hsum : DetectsByte sum) (hlim : payload.length < Payload.limit)
    (hlim' : payload'.length < Payload.limit) (hp : p < payload.length) (hx : x ≠ 0) :
    header r.kind payload.length ++ (payload.modify p (· ^^^ x) ++ (word sum r.kind payload ++ rest)) ≠
      header r'.kind payload'.length ++ (payload' ++ (word sum r'.kind payload' ++ rest')) := by
  intro heq
  obtain ⟨hhead, hrest⟩ := List.append_inj heq rfl
  have hlen : (payload.modify p (· ^^^ x)).length = payload'.length := by
    rw [List.length_modify]
    exact (header_inj hlim hlim' hhead).2
  obtain ⟨hpayload, hrest⟩ := List.append_inj hrest hlen
  have hbody : (body r.kind payload).modify (headerSize + p) (· ^^^ x) = body r'.kind payload' := by
    have hle : (header r.kind payload.length).length ≤ headerSize + p := Nat.le_add_right ..
    rw [body_eq, body_eq, modify_append_of_le hle, length_header, Nat.add_sub_cancel_left, hpayload, hhead]
  refine word_ne_of_modify_body hsum (Nat.add_lt_add_left hp _) hx hbody ?_
  exact (List.append_inj hrest (by rw [length_word, length_word])).1

/-- The checksum of a body is not changed. -/
theorem modify_word_ne (hlim : payload.length < Payload.limit) (hlim' : payload'.length < Payload.limit)
    (hp : p < checksumSize) (hx : x ≠ 0) :
    header r.kind payload.length ++ (payload ++ ((word sum r.kind payload).modify p (· ^^^ x) ++ rest)) ≠
      header r'.kind payload'.length ++ (payload' ++ (word sum r'.kind payload' ++ rest')) := by
  intro heq
  obtain ⟨hhead, hrest⟩ := List.append_inj heq rfl
  obtain ⟨hkind, hlen⟩ := header_inj hlim hlim' hhead
  obtain ⟨hpayload, hrest⟩ := List.append_inj hrest hlen
  have hsize : ((word sum r.kind payload).modify p (· ^^^ x)).length = (word sum r'.kind payload').length := by
    rw [List.length_modify, length_word, length_word]
  have hword := (List.append_inj hrest hsize).1
  rw [← hkind, ← hpayload] at hword
  exact modify_xor_ne (by rwa [length_word]) hx hword

end Frames

/-- No frame becomes another one, with anything behind it, by a change of one of its bytes. The cases are where
the byte is. -/
theorem modify_frame_ne (hsum : DetectsByte sum) {r r' : Record} {frame frame' : Bytes}
    (h : encodeWith sum r = .ok frame) (h' : encodeWith sum r' = .ok frame') {p : Nat} (hp : p < frame.length)
    {x : UInt8} (hx : x ≠ 0) (rest rest' : Bytes) : (frame ++ rest).modify p (· ^^^ x) ≠ frame' ++ rest' := by
  obtain ⟨payload, hpay, hlim, rfl⟩ := encodeWith_eq_ok_iff_append.mp h
  obtain ⟨payload', hpay', hlim', rfl⟩ := encodeWith_eq_ok_iff_append.mp h'
  rw [List.length_append, List.length_append, length_header, length_word] at hp
  rw [List.append_assoc, List.append_assoc, List.append_assoc, List.append_assoc]
  by_cases hheader : p < headerSize
  · rw [modify_append_of_lt hheader]
    exact modify_header_ne hsum hpay hpay' hlim hlim' hheader hx
  rw [modify_append_of_le (Nat.not_lt.mp hheader), length_header]
  by_cases hpayload : p - headerSize < payload.length
  · rw [modify_append_of_lt hpayload]
    exact modify_payload_ne hsum hlim hlim' hpayload hx
  have hword : p - headerSize - payload.length < checksumSize := by omega
  rw [modify_append_of_le (Nat.not_lt.mp hpayload), modify_append_of_lt (by rwa [length_word])]
  exact modify_word_ne hlim hlim' hword hx

/-- A frame with a changed byte is not read as a record, whatever stands behind it. -/
theorem parseWith_modify_ne_ok (hsum : DetectsByte sum) {r : Record} {frame : Bytes}
    (h : encodeWith sum r = .ok frame) {p : Nat} (hp : p < frame.length) {x : UInt8} (hx : x ≠ 0) (rest : Bytes)
    (r' : Record) (n : Nat) : parseWith sum ((frame ++ rest).modify p (· ^^^ x)) ≠ .ok (r', n) := by
  intro hparse
  obtain ⟨frame', rest', h', heq, -⟩ := parseWith_eq_ok_iff.mp hparse
  exact modify_frame_ne hsum h h' hp hx rest rest' heq

end Frame

namespace Replay

variable {sum : Bytes → UInt32}

/-- Every byte of a log of frames is in one of them. By induction on the records. -/
theorem exists_frame_at {rs : List Record} {data : Bytes} (h : encodeLogWith sum rs = .ok data) {p : Nat}
    (hp : p < data.length) :
    ∃ before hit behind front frame back, rs = before ++ hit :: behind ∧ encodeLogWith sum before = .ok front ∧
      Frame.encodeWith sum hit = .ok frame ∧ data = front ++ (frame ++ back) ∧
      front.length ≤ p ∧ p < front.length + frame.length := by
  induction rs generalizing data p with
  | nil =>
    cases h
    exact absurd hp (Nat.not_lt_zero p)
  | cons r rs ih =>
    obtain ⟨frame, rest, hframe, hrest, rfl⟩ := encodeLogWith_cons_eq_ok_iff.mp h
    by_cases hfirst : p < frame.length
    · exact ⟨[], r, rs, [], frame, rest, rfl, rfl, hframe, rfl, Nat.zero_le p, by rwa [List.length_nil, Nat.zero_add]⟩
    · rw [List.length_append] at hp
      obtain ⟨before, hit, behind, front, hitFrame, back, rfl, hfront, hhit, rfl, hle, hlt⟩ :=
        ih hrest (p := p - frame.length) (by omega)
      refine ⟨r :: before, hit, behind, frame ++ front, hitFrame, back, rfl, ?_, hhit, ?_, ?_, ?_⟩
      · exact encodeLogWith_cons_eq_ok_iff.mpr ⟨frame, front, hframe, hfront, rfl⟩
      · rw [List.append_assoc]
      · rw [List.length_append]
        omega
      · rw [List.length_append]
        omega

/-- A log of frames in which one byte is changed is read up to the frame of this byte. -/
theorem readWith_modify (hsum : DetectsByte sum) {before : List Record} {hit : Record} {front frame : Bytes}
    (hfront : encodeLogWith sum before = .ok front) (hframe : Frame.encodeWith sum hit = .ok frame) {p : Nat}
    (hle : front.length ≤ p) (hlt : p < front.length + frame.length) {x : UInt8} (hx : x ≠ 0) (back : Bytes) :
    ∃ fault, readWith sum 0 ((front ++ (frame ++ back)).modify p (· ^^^ x)) =
      ⟨before, front.length, (front ++ (frame ++ back)).length, some ⟨fault, front.length⟩⟩ := by
  have hbyte : p - front.length < frame.length := by omega
  have hne : (frame ++ back).modify (p - front.length) (· ^^^ x) ≠ [] := by
    intro hnil
    have := congrArg List.length hnil
    rw [List.length_modify, List.length_append, List.length_nil] at this
    omega
  cases hparse : Frame.parseWith sum ((frame ++ back).modify (p - front.length) (· ^^^ x)) with
  | ok parsed => exact absurd hparse (Frame.parseWith_modify_ne_ok hsum hframe hbyte hx back parsed.1 parsed.2)
  | error fault =>
    refine ⟨fault, ?_⟩
    rw [modify_append_of_le hle, readWith_append hfront, readWith_of_error hne hparse, List.length_modify,
      @List.length_append _ front, Nat.zero_add, List.append_nil]

end Replay

/-- Whichever byte of a log is changed, and however: the records whose frames end at or before the byte are read as
they were, and the log is damaged where the frame of the byte starts. -/
theorem changed_byte_localized {rs : List Record} {data : Bytes} (h : encodeLog rs = .ok data) {p : Nat}
    (hp : p < data.length) {x : UInt8} (hx : x ≠ 0) :
    ∃ before hit behind front frame, rs = before ++ hit :: behind ∧ encodeLog before = .ok front ∧
      Frame.encode hit = .ok frame ∧ front.length ≤ p ∧ p < front.length + frame.length ∧
      ∃ fault, Replay.read (data.modify p (· ^^^ x)) =
        ⟨before, front.length, data.length, some ⟨fault, front.length⟩⟩ := by
  obtain ⟨before, hit, behind, front, frame, back, rfl, hfront, hframe, rfl, hle, hlt⟩ := Replay.exists_frame_at h hp
  refine ⟨before, hit, behind, front, frame, rfl, hfront, hframe, hle, hlt, ?_⟩
  exact Replay.readWith_modify detectsByte_crc32 hfront hframe hle hlt hx back

/-- The second frame is made to end earlier, where its value holds the checksum of what is then in front. -/
theorem changed_byte_localized_length :
    let value : Bytes := [142, 95, 220, 194, 0, 0, 0, 0]
    let rs : List Record := [.put 7 [97] [1], .put 8 [] value]
    let data : Bytes := [66, 76, 79, 71, 1, 0, 1, 18, 0, 0, 0, 7, 0, 0, 0, 0, 0, 0, 0, 1, 0, 0, 0, 97, 1, 0, 0, 0, 1,
      225, 104, 124, 77] ++ ([66, 76, 79, 71, 1, 0, 1, 24, 0, 0, 0, 8, 0, 0, 0, 0, 0, 0, 0, 0, 0, 0, 0, 8, 0, 0, 0] ++
      value ++ [129, 55, 141, 104])
    encodeLog rs = .ok data ∧ 40 < data.length ∧ (8 : UInt8) ≠ 0 ∧
      ∃ before hit behind front frame, rs = before ++ hit :: behind ∧ encodeLog before = .ok front ∧
        Frame.encode hit = .ok frame ∧ front.length ≤ 40 ∧ 40 < front.length + frame.length ∧
        ∃ fault, Replay.read (data.modify 40 (· ^^^ 8)) =
          ⟨before, front.length, data.length, some ⟨fault, front.length⟩⟩ := by
  intro value rs data
  have hdata : encodeLog rs = .ok data := by cbv
  exact ⟨hdata, by decide, by decide, changed_byte_localized hdata (by decide) (by decide)⟩

end OrderedStore
