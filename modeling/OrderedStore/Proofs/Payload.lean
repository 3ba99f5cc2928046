import OrderedStore.Record.Payload

/-!
# Payloads are read as they are written

A reader takes its value off the front of a byte string. For every part of a payload, what is taken
off is what the writer puts there, and nothing else is accepted: each reader is described by one
equivalence, with any bytes behind the part.

* `takeNumber_eq_ok_iff`, `takeField_eq_ok_iff`, `takeOperation_eq_ok_iff`,
  `takeOperations_eq_ok_iff`, `takeFields_eq_ok_iff`: the parts of a payload;
* `decode_eq_ok_iff`: a payload decodes to a record exactly if it is that record's payload;
* `encode_append_inj`: no payload is a strict front of another one of its kind.
-/

namespace OrderedStore

/-- A sequence of two computations that may fail gives a value if both do. -/
theorem bind_eq_ok_iff {ε α β : Type} {x : Except ε α} {f : α → Except ε β} {b : β} :
    x >>= f = .ok b ↔ ∃ a, x = .ok a ∧ f a = .ok b := by
  cases x with
  | error e => exact ⟨fun h => (nomatch h), fun ⟨_, h, _⟩ => (nomatch h)⟩
  | ok a =>
    refine ⟨fun h => ⟨a, rfl, h⟩, fun ⟨a', ha, h⟩ => ?_⟩
    cases ha
    exact h

theorem pure_eq_ok_iff {ε α : Type} {a b : α} : (pure a : Except ε α) = .ok b ↔ a = b :=
  ⟨fun h => Except.ok.inj h, fun h => h ▸ rfl⟩

namespace Payload

/-! ## Numbers and fields -/

theorem takeBytes_eq_ok_iff {n : Nat} {bs front rest : Bytes} :
    takeBytes n bs = .ok (front, rest) ↔ front.length = n ∧ bs = front ++ rest := by
  simp only [takeBytes]
  constructor
  · intro h
    split at h
    · rename_i hlen
      simp only [Except.ok.injEq, Prod.mk.injEq] at h
      obtain ⟨rfl, rfl⟩ := h
      exact ⟨hlen, (List.take_append_drop n bs).symm⟩
    · cases h
  · rintro ⟨rfl, rfl⟩
    simp only [List.take_left, List.drop_left, if_true]

theorem takeNumber_eq_ok_iff {w n : Nat} {bs rest : Bytes} :
    takeNumber w bs = .ok (n, rest) ↔ n < Bytes.capacity w ∧ bs = Bytes.ofNatLE w n ++ rest := by
  simp only [takeNumber, bind_eq_ok_iff, pure_eq_ok_iff, Prod.exists, Prod.mk.injEq, takeBytes_eq_ok_iff]
  constructor
  · rintro ⟨front, _, ⟨rfl, rfl⟩, rfl, rfl⟩
    exact ⟨Bytes.toNatLE_lt front, by rw [Bytes.ofNatLE_toNatLE]⟩
  · rintro ⟨hn, rfl⟩
    exact ⟨_, _, ⟨Bytes.length_ofNatLE w n, rfl⟩, Bytes.toNatLE_ofNatLE_of_lt hn, rfl⟩

theorem field_eq_ok_iff {bs front : Bytes} :
    field bs = .ok front ↔ bs.length < limit ∧ front = Bytes.ofNatLE 4 bs.length ++ bs := by
  unfold field
  split
  · rename_i h
    exact ⟨fun e => ⟨h, (Except.ok.inj e).symm⟩, fun e => e.2 ▸ rfl⟩
  · rename_i h
    exact ⟨fun e => (nomatch e), fun e => absurd e.1 h⟩

theorem takeField_eq_ok_iff {bs value rest : Bytes} :
    takeField bs = .ok (value, rest) ↔ ∃ front, field value = .ok front ∧ bs = front ++ rest := by
  simp only [takeField, bind_eq_ok_iff, Prod.exists, takeNumber_eq_ok_iff, takeBytes_eq_ok_iff, field_eq_ok_iff]
  constructor
  · rintro ⟨n, _, ⟨hn, rfl⟩, rfl, rfl⟩
    exact ⟨_, ⟨hn, rfl⟩, by rw [List.append_assoc]⟩
  · rintro ⟨_, ⟨hn, rfl⟩, rfl⟩
    exact ⟨_, _, ⟨hn, List.append_assoc ..⟩, rfl, rfl⟩

/-! ## Operations -/

theorem takeOperation_eq_ok_iff {bs rest : Bytes} {op : Operation} :
    takeOperation bs = .ok (op, rest) ↔ ∃ front, encodeOperation op = .ok front ∧ bs = front ++ rest := by
  cases bs with
  | nil =>
    refine ⟨fun h => (nomatch h), fun ⟨front, h, hnil⟩ => ?_⟩
    obtain ⟨rfl, -⟩ := List.append_eq_nil_iff.mp hnil.symm
    cases op <;> simp only [encodeOperation, bind_eq_ok_iff, pure_eq_ok_iff, List.cons_append, reduceCtorEq,
      and_false, exists_false] at h
  | cons tag bs =>
    simp only [takeOperation]
    constructor
    · intro h
      split at h
      · rename_i htag
        simp only [bind_eq_ok_iff, pure_eq_ok_iff, Prod.exists, Prod.mk.injEq, takeField_eq_ok_iff] at h
        obtain ⟨key, _, ⟨k, hk, rfl⟩, value, _, ⟨v, hv, rfl⟩, rfl, rfl⟩ := h
        refine ⟨1 :: k ++ v, ?_, by rw [htag, List.cons_append, List.cons_append, List.append_assoc]⟩
        simp only [encodeOperation, bind_eq_ok_iff, pure_eq_ok_iff]
        exact ⟨k, hk, v, hv, rfl⟩
      · split at h
        · rename_i htag
          simp only [bind_eq_ok_iff, pure_eq_ok_iff, Prod.exists, Prod.mk.injEq, takeField_eq_ok_iff] at h
          obtain ⟨key, _, ⟨k, hk, rfl⟩, rfl, rfl⟩ := h
          refine ⟨2 :: k, ?_, by rw [htag, List.cons_append]⟩
          simp only [encodeOperation, bind_eq_ok_iff, pure_eq_ok_iff]
          exact ⟨k, hk, rfl⟩
        · cases h
    · rintro ⟨front, h, hbs⟩
      cases op with
      | put key value =>
        simp only [encodeOperation, bind_eq_ok_iff, pure_eq_ok_iff] at h
        obtain ⟨k, hk, v, hv, rfl⟩ := h
        simp only [List.cons_append, List.append_assoc, List.cons.injEq] at hbs
        obtain ⟨rfl, rfl⟩ := hbs
        simp only [if_true, bind_eq_ok_iff, pure_eq_ok_iff, Prod.exists, Prod.mk.injEq, takeField_eq_ok_iff]
        exact ⟨key, _, ⟨k, hk, rfl⟩, value, _, ⟨v, hv, rfl⟩, rfl, rfl⟩
      | delete key =>
        simp only [encodeOperation, bind_eq_ok_iff, pure_eq_ok_iff] at h
        obtain ⟨k, hk, rfl⟩ := h
        simp only [List.cons_append, List.cons.injEq] at hbs
        obtain ⟨rfl, rfl⟩ := hbs
        simp only [show ¬ (2 : UInt8) = 1 by decide, if_true, if_false, bind_eq_ok_iff, pure_eq_ok_iff, Prod.exists,
          Prod.mk.injEq, takeField_eq_ok_iff]
        exact ⟨key, _, ⟨k, hk, rfl⟩, rfl, rfl⟩

/-- By induction on the number of operations that are read. -/
theorem takeOperations_eq_ok_iff {n : Nat} {bs rest : Bytes} {ops : List Operation} :
    takeOperations n bs = .ok (ops, rest) ↔
      ops.length = n ∧ ∃ front, encodeOperations ops = .ok front ∧ bs = front ++ rest := by
  induction n generalizing bs rest ops with
  | zero =>
    simp only [takeOperations, Except.ok.injEq, Prod.mk.injEq, List.length_eq_zero_iff]
    constructor
    · rintro ⟨rfl, rfl⟩
      exact ⟨rfl, [], rfl, rfl⟩
    · rintro ⟨rfl, front, h, rfl⟩
      cases h
      exact ⟨rfl, rfl⟩
  | succ n ih =>
    simp only [takeOperations, bind_eq_ok_iff, pure_eq_ok_iff, Prod.exists, Prod.mk.injEq, takeOperation_eq_ok_iff, ih]
    constructor
    · rintro ⟨op, _, ⟨f, hf, rfl⟩, ops, _, ⟨rfl, fs, hfs, rfl⟩, rfl, rfl⟩
      refine ⟨List.length_cons, f ++ fs, ?_, by rw [List.append_assoc]⟩
      simp only [encodeOperations, bind_eq_ok_iff, pure_eq_ok_iff]
      exact ⟨f, hf, fs, hfs, rfl⟩
    · rintro ⟨hlen, front, h, rfl⟩
      cases ops with
      | nil => cases hlen
      | cons op ops =>
        simp only [encodeOperations, bind_eq_ok_iff, pure_eq_ok_iff] at h
        obtain ⟨f, hf, fs, hfs, rfl⟩ := h
        exact ⟨op, _, ⟨f, hf, List.append_assoc ..⟩, ops, _, ⟨Nat.succ.inj hlen, fs, hfs, rfl⟩, rfl, rfl⟩

/-! ## Records -/

theorem takeFields_eq_ok_iff {kind : Record.Kind} {seq : Sequence} {bs rest : Bytes} {r : Record} :
    takeFields kind seq bs = .ok (r, rest) ↔
      r.kind = kind ∧ r.seq = seq ∧ ∃ front, encodeFields r = .ok front ∧ bs = front ++ rest := by
  constructor
  · intro h
    cases kind with
    | put =>
      simp only [takeFields, bind_eq_ok_iff, pure_eq_ok_iff, Prod.exists, Prod.mk.injEq, takeField_eq_ok_iff] at h
      obtain ⟨key, _, ⟨k, hk, rfl⟩, value, _, ⟨v, hv, rfl⟩, rfl, rfl⟩ := h
      refine ⟨rfl, rfl, k ++ v, ?_, by rw [List.append_assoc]⟩
      simp only [encodeFields, bind_eq_ok_iff, pure_eq_ok_iff]
      exact ⟨k, hk, v, hv, rfl⟩
    | delete =>
      simp only [takeFields, bind_eq_ok_iff, pure_eq_ok_iff, Prod.exists, Prod.mk.injEq, takeField_eq_ok_iff] at h
      obtain ⟨key, _, ⟨k, hk, rfl⟩, rfl, rfl⟩ := h
      exact ⟨rfl, rfl, k, hk, rfl⟩
    | batch =>
      simp only [takeFields, bind_eq_ok_iff, pure_eq_ok_iff, Prod.exists, Prod.mk.injEq, takeNumber_eq_ok_iff,
        takeOperations_eq_ok_iff] at h
      obtain ⟨_, _, ⟨hn, rfl⟩, ops, _, ⟨rfl, fs, hfs, rfl⟩, rfl, rfl⟩ := h
      refine ⟨rfl, rfl, Bytes.ofNatLE 4 ops.length ++ fs, ?_, by rw [List.append_assoc]⟩
      simp only [encodeFields, limit, hn, if_true, bind_eq_ok_iff, pure_eq_ok_iff]
      exact ⟨fs, hfs, rfl⟩
  · rintro ⟨rfl, rfl, front, h, rfl⟩
    cases r with
    | put seq key value =>
      simp only [encodeFields, bind_eq_ok_iff, pure_eq_ok_iff] at h
      obtain ⟨k, hk, v, hv, rfl⟩ := h
      simp only [Record.kind, takeFields, bind_eq_ok_iff, pure_eq_ok_iff, Prod.exists, Prod.mk.injEq,
        takeField_eq_ok_iff]
      exact ⟨key, _, ⟨k, hk, List.append_assoc ..⟩, value, _, ⟨v, hv, rfl⟩, rfl, rfl⟩
    | delete seq key =>
      simp only [Record.kind, takeFields, bind_eq_ok_iff, pure_eq_ok_iff, Prod.exists, Prod.mk.injEq,
        takeField_eq_ok_iff]
      exact ⟨key, _, ⟨front, h, rfl⟩, rfl, rfl⟩
    | batch seq ops =>
      simp only [encodeFields] at h
      split at h
      · rename_i hn
        simp only [bind_eq_ok_iff, pure_eq_ok_iff] at h
        obtain ⟨fs, hfs, rfl⟩ := h
        simp only [Record.kind, takeFields, bind_eq_ok_iff, pure_eq_ok_iff, Prod.exists, Prod.mk.injEq,
          takeNumber_eq_ok_iff, takeOperations_eq_ok_iff]
        exact ⟨_, _, ⟨hn, List.append_assoc ..⟩, ops, _, ⟨rfl, fs, hfs, rfl⟩, rfl, rfl⟩
      · cases h

theorem encode_eq_ok_iff {r : Record} {payload : Bytes} :
    encode r = .ok payload ↔
      ∃ fields, encodeFields r = .ok fields ∧ payload = Bytes.ofNatLE 8 r.seq.toNat ++ fields := by
  simp only [encode, bind_eq_ok_iff, pure_eq_ok_iff, eq_comm (b := payload)]

/-- Reading a payload is strict: it gives a record exactly if the bytes are that record's payload. -/
theorem decode_eq_ok_iff {kind : Record.Kind} {payload : Bytes} {r : Record} :
    decode kind payload = .ok r ↔ r.kind = kind ∧ encode r = .ok payload := by
  simp only [decode, bind_eq_ok_iff, Prod.exists, takeNumber_eq_ok_iff, takeFields_eq_ok_iff, encode_eq_ok_iff]
  constructor
  · rintro ⟨seq, _, ⟨hseq, rfl⟩, r', rest, ⟨hk, hr, fields, hf, rfl⟩, h⟩
    split at h
    · rename_i hrest
      simp only [pure_eq_ok_iff] at h
      subst h hrest
      refine ⟨hk, fields, hf, ?_⟩
      rw [hr, UInt64.toNat_ofNat_of_lt' hseq, List.append_nil]
    · cases h
  · rintro ⟨rfl, fields, hf, rfl⟩
    refine ⟨r.seq.toNat, fields, ⟨r.seq.toNat_lt, rfl⟩, r, [], ⟨rfl, ?_, fields, hf, (List.append_nil _).symm⟩, ?_⟩
    · rw [UInt64.ofNat_toNat]
    · rfl

/-- Payloads of one kind are prefix-free: whoever reads one knows where it ends, whatever stands behind it. -/
theorem encode_append_inj {r r' : Record} (hkind : r.kind = r'.kind) {payload payload' tail tail' : Bytes}
    (h : encode r = .ok payload) (h' : encode r' = .ok payload') (heq : payload ++ tail = payload' ++ tail') :
    payload = payload' := by
  obtain ⟨fields, hf, rfl⟩ := encode_eq_ok_iff.mp h
  obtain ⟨fields', hf', rfl⟩ := encode_eq_ok_iff.mp h'
  rw [List.append_assoc, List.append_assoc] at heq
  have hlen : (Bytes.ofNatLE 8 r.seq.toNat).length = (Bytes.ofNatLE 8 r'.seq.toNat).length := by
    rw [Bytes.length_ofNatLE, Bytes.length_ofNatLE]
  obtain ⟨hseq, hrest⟩ := List.append_inj heq hlen
  have hnat : r.seq.toNat = r'.seq.toNat := by
    rw [← Bytes.toNatLE_ofNatLE_of_lt (w := 8) r.seq.toNat_lt, hseq, Bytes.toNatLE_ofNatLE_of_lt r'.seq.toNat_lt]
  have hr : takeFields r.kind r.seq (fields ++ tail) = .ok (r, tail) :=
    takeFields_eq_ok_iff.mpr ⟨rfl, rfl, fields, hf, rfl⟩
  have hr' : takeFields r.kind r.seq (fields ++ tail) = .ok (r', tail') :=
    takeFields_eq_ok_iff.mpr ⟨hkind.symm, (UInt64.toNat_inj.mp hnat).symm, fields', hf', hrest⟩
  rw [hr] at hr'
  cases hr'
  rw [List.append_cancel_right hrest]

end Payload

end OrderedStore
