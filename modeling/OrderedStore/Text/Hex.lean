import OrderedStore.Bytes

/-!
# Hexadecimal text

Lower-case digits. `hexWord` writes a checksum with all its eight digits, `hexByte` a byte with
its two, `hexNumber` a number with no leading zero.
-/

namespace OrderedStore.Text

/-- The `w` lowest hexadecimal digits of `n`. -/
def hexDigits : Nat → Nat → List Char
  | 0, _ => []
  | w + 1, n => hexDigits w (n / 16) ++ [Nat.digitChar (n % 16)]

def hexByte (b : UInt8) : List Char := hexDigits 2 b.toNat

def hexWord (w : UInt32) : String := String.ofList (hexDigits 8 w.toNat)

def hexNumber (n : Nat) : List Char := Nat.toDigits 16 n

/-- A byte string as pairs of digits. -/
def hexBytes (bs : Bytes) : String := String.ofList (bs.flatMap hexByte)

@[simp] theorem length_hexDigits (w n : Nat) : (hexDigits w n).length = w := by
  induction w generalizing n with
  | zero => rfl
  | succ w ih => simp only [hexDigits, List.length_append, ih, List.length_singleton]

end OrderedStore.Text
