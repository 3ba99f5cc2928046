/-!
# Byte strings

Keys, values and logs are byte strings, ordered byte by byte as unsigned numbers, a proper prefix
first. Numbers inside a log are little-endian:

* `Bytes.ofNatLE w n`: the `w` bytes of `n`, least significant first;
* `Bytes.toNatLE bs`: the number that `bs` spells;
* `Bytes.capacity w`: the number of byte strings of width `w`;
* `toNatLE_ofNatLE`, `ofNatLE_toNatLE`: each undoes the other within a width.
-/

namespace OrderedStore

/-- A byte string. -/
abbrev Bytes := List UInt8

namespace Bytes

/-- The `w` little-endian bytes of `n`; what does not fit is dropped. -/
def ofNatLE : Nat → Nat → Bytes
  | 0, _ => []
  | w + 1, n => UInt8.ofNat (n % 256) :: ofNatLE w (n / 256)

/-- The number with the given little-endian bytes. -/
def toNatLE : Bytes → Nat
  | [] => 0
  | b :: bs => b.toNat + 256 * toNatLE bs

/-- How many numbers `w` bytes can spell. -/
def capacity : Nat → Nat
  | 0 => 1
  | w + 1 => 256 * capacity w

@[simp] theorem length_ofNatLE (w n : Nat) : (ofNatLE w n).length = w := by
  induction w generalizing n with
  | zero => rfl
  | succ w ih => simp only [ofNatLE, List.length_cons, ih]

theorem toNatLE_ofNatLE (w n : Nat) : toNatLE (ofNatLE w n) = n % capacity w := by
  induction w generalizing n with
  | zero => simp only [ofNatLE, toNatLE, capacity, Nat.mod_one]
  | succ w ih =>
    have h : n % 256 % 2 ^ 8 = n % 256 := Nat.mod_eq_of_lt (Nat.mod_lt n (by decide))
    rw [ofNatLE, toNatLE, ih, UInt8.toNat_ofNat', h, capacity, Nat.mod_mul]

theorem toNatLE_ofNatLE_of_lt {w n : Nat} (h : n < capacity w) : toNatLE (ofNatLE w n) = n := by
  rw [toNatLE_ofNatLE, Nat.mod_eq_of_lt h]

theorem toNatLE_lt (bs : Bytes) : toNatLE bs < capacity bs.length := by
  induction bs with
  | nil => exact Nat.zero_lt_one
  | cons b bs ih =>
    rw [toNatLE, List.length_cons, capacity]
    have hb : b.toNat < 256 := b.toNat_lt
    omega

theorem ofNatLE_toNatLE (bs : Bytes) : ofNatLE bs.length (toNatLE bs) = bs := by
  induction bs with
  | nil => rfl
  | cons b bs ih =>
    have hb : b.toNat < 256 := b.toNat_lt
    rw [List.length_cons, ofNatLE, toNatLE]
    congr 1
    · rw [Nat.add_mul_mod_self_left, Nat.mod_eq_of_lt hb, UInt8.ofNat_toNat]
    · rw [Nat.add_mul_div_left _ _ (by decide), Nat.div_eq_of_lt hb, Nat.zero_add, ih]

/-- Two byte strings of which neither is smaller are equal. -/
theorem lt_of_not_lt_of_ne {a b : Bytes} (h : ¬ a < b) (hne : b ≠ a) : b < a := by
  rcases List.le_iff_lt_or_eq.mp (List.not_lt.mp h) with h | h
  · exact h
  · exact absurd h hne

/-- The UTF-8 bytes of a text. -/
def ofText (text : String) : Bytes := text.toUTF8.toList

/-- The text with these UTF-8 bytes, if they spell one. -/
def toText? (bs : Bytes) : Option String := String.fromUTF8? ⟨bs.toArray⟩

end Bytes

end OrderedStore
