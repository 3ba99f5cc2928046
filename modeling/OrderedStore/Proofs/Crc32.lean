import Mathlib.Logic.Function.Iterate
import OrderedStore.Crc32

/-!
# CRC-32 tells bytes apart

A division step loses nothing: the bit that leaves the register shows as the highest bit of the next
one, since the polynomial has that bit. So the register is an injective function of the register
before, for fixed bytes, and of the last byte, for a fixed register.

* `shift_injective`, `feed_injective`, `feed_injective_byte`: one step, one byte;
* `crc32_modify_ne`: changing one byte of a byte string changes its checksum.
-/

namespace OrderedStore

namespace Crc32

/-! ## One step -/

theorem toNat_half (c : UInt32) : (c >>> 1).toNat = c.toNat / 2 := by
  rw [UInt32.toNat_shiftRight]
  show c.toNat >>> 1 = c.toNat / 2
  rw [Nat.shiftRight_eq_div_pow, Nat.pow_one]

theorem and_one_eq_one_iff (c : UInt32) : c &&& 1 = 1 ↔ c.toNat % 2 = 1 := by
  rw [← UInt32.toNat_inj, UInt32.toNat_and]
  show c.toNat &&& 1 = 1 ↔ _
  rw [Nat.and_one_is_mod]

theorem eq_of_half_eq {c d : UInt32} (hlow : c &&& 1 = 1 ↔ d &&& 1 = 1) (hhalf : c >>> 1 = d >>> 1) : c = d := by
  have hdiv : c.toNat / 2 = d.toNat / 2 := by rw [← toNat_half, ← toNat_half, hhalf]
  rw [and_one_eq_one_iff, and_one_eq_one_iff] at hlow
  have heq : c.toNat = d.toNat := by omega
  exact UInt32.toNat_inj.mp heq

/-- What is left of the register has a clear highest bit, so it never differs by the polynomial. -/
theorem half_xor_ne (c d : UInt32) : (c >>> 1) ^^^ (0xEDB88320 : UInt32) ≠ d >>> 1 := by
  intro h
  have hpoly : (c >>> 1) ^^^ (d >>> 1) = 0xEDB88320 := by
    rw [← h, ← UInt32.xor_assoc, UInt32.xor_self, UInt32.zero_xor]
  have hc : c.toNat / 2 < 2 ^ 31 := by have := c.toNat_lt; omega
  have hd : d.toNat / 2 < 2 ^ 31 := by have := d.toNat_lt; omega
  have hlt : ((c >>> 1) ^^^ (d >>> 1)).toNat < 2 ^ 31 := by
    rw [UInt32.toNat_xor, toNat_half, toNat_half]
    exact Nat.xor_lt_two_pow hc hd
  rw [hpoly] at hlt
  exact absurd hlt (by decide)

theorem shift_injective : Function.Injective shift := by
  intro c d h
  simp only [shift] at h
  by_cases hc : c &&& 1 = 1 <;> by_cases hd : d &&& 1 = 1
  · rw [if_pos hc, if_pos hd, UInt32.xor_left_inj] at h
    exact eq_of_half_eq (iff_of_true hc hd) h
  · rw [if_pos hc, if_neg hd] at h
    exact absurd h (half_xor_ne c d)
  · rw [if_neg hc, if_pos hd] at h
    exact absurd h.symm (half_xor_ne d c)
  · rw [if_neg hc, if_neg hd] at h
    exact eq_of_half_eq (iff_of_false hc hd) h

/-! ## Bytes -/

theorem shift_eight_injective :
    Function.Injective fun c => shift (shift (shift (shift (shift (shift (shift (shift c))))))) :=
  Function.Injective.iterate shift_injective 8

/-- For a fixed byte, the register after it determines the register before. -/
theorem feed_injective (b : UInt8) : Function.Injective (feed · b) := by
  intro c d h
  have hxor : c ^^^ b.toUInt32 = d ^^^ b.toUInt32 := shift_eight_injective h
  exact (UInt32.xor_left_inj _).mp hxor

/-- From a fixed register, the register after a byte determines the byte. -/
theorem feed_injective_byte (c : UInt32) : Function.Injective (feed c) := by
  intro b b' h
  have hxor : c ^^^ b.toUInt32 = c ^^^ b'.toUInt32 := shift_eight_injective h
  have hword : b.toUInt32.toNat = b'.toUInt32.toNat := by rw [(UInt32.xor_right_inj c).mp hxor]
  rw [UInt8.toNat_toUInt32, UInt8.toNat_toUInt32] at hword
  exact UInt8.toNat_inj.mp hword

/-- The register after all bytes of a string determines the register before them. By induction on the bytes. -/
theorem foldl_feed_injective (bs : Bytes) : Function.Injective (bs.foldl feed ·) := by
  induction bs with
  | nil => exact fun c d h => h
  | cons b bs ih => exact ih.comp (feed_injective b)

end Crc32

/-- A byte string in which one byte is changed has another checksum. -/
theorem crc32_modify_ne {bs : Bytes} {p : Nat} (hp : p < bs.length) {x : UInt8} (hx : x ≠ 0) :
    crc32 (bs.modify p (· ^^^ x)) ≠ crc32 bs := by
  intro h
  rw [crc32, crc32, UInt32.xor_left_inj, List.modify_eq_take_cons_drop hp, List.foldl_append, List.foldl_cons] at h
  have hsplit : bs.foldl Crc32.feed 0xFFFFFFFF =
      (bs.drop (p + 1)).foldl Crc32.feed (Crc32.feed ((bs.take p).foldl Crc32.feed 0xFFFFFFFF) bs[p]) := by
    rw [← List.foldl_cons, ← List.drop_eq_getElem_cons hp, ← List.foldl_append, List.take_append_drop]
  rw [hsplit] at h
  have hbyte : bs[p] ^^^ x = bs[p] := Crc32.feed_injective_byte _ (Crc32.foldl_feed_injective _ h)
  have hzero : bs[p] ^^^ x = bs[p] ^^^ 0 := by rw [hbyte, UInt8.xor_zero]
  exact hx ((UInt8.xor_right_inj _).mp hzero)

end OrderedStore
