import OrderedStore.Text.Hex

/-!
# Bytes for a terminal

Printable ASCII stands for itself, quotes and backslashes are escaped, and any other byte is
written as two hexadecimal digits. The result is printable ASCII whatever the bytes are.
-/

namespace OrderedStore.Text

/-- One byte as it is shown. -/
def escapeByte (b : UInt8) : List Char :=
  if b = 9 then ['\\', 't']
  else if b = 10 then ['\\', 'n']
  else if b = 13 then ['\\', 'r']
  else if b = 34 then ['\\', '"']
  else if b = 39 then ['\\', '\'']
  else if b = 92 then ['\\', '\\']
  else if 32 ≤ b && b ≤ 126 then [Char.ofNat b.toNat]
  else '\\' :: 'x' :: hexByte b

/-- A byte string as it is shown. -/
def escapeBytes (bs : Bytes) : String := String.ofList (bs.flatMap escapeByte)

end OrderedStore.Text
