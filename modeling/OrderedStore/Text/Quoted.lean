import OrderedStore.Text.Hex
import OrderedStore.Text.Unprintable

/-!
# Quoted text

Diagnostic texts show a string between double quotes, with the quote, the backslash and the common
controls escaped by a letter and every other character that cannot be seen by its number. An
apostrophe needs no escape there. A path is quoted as any other text is.
-/

namespace OrderedStore.Text

/-- One character inside quotes. -/
def quoteChar (c : Char) : List Char :=
  if c = '\x00' then ['\\', '0']
  else if c = '\t' then ['\\', 't']
  else if c = '\n' then ['\\', 'n']
  else if c = '\r' then ['\\', 'r']
  else if c = '"' then ['\\', '"']
  else if c = '\\' then ['\\', '\\']
  else if isUnprintable c then ['\\', 'u', '\x7b'] ++ hexNumber c.toNat ++ ['\x7d']
  else [c]

/-- A text between quotes. -/
def quoted (text : String) : String :=
  String.ofList ('"' :: text.toList.flatMap quoteChar ++ ['"'])

/-- A path that may be absent. -/
def quotedPath? : Option String → String
  | none => "None"
  | some path => s!"Some({quoted path})"

end OrderedStore.Text
