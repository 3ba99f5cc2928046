import OrderedStore.Text.Hex

/-!
# Records as JSON text

Records of named values, and lists of records, spread over lines with two blanks for each level.

* `jsonString`: a string as JSON writes it: quote, backslash and the controls are escaped;
* `JsonRecord.render`, `renderRecords`: a record and a list of records.
-/

namespace OrderedStore.Text

/-- One character inside a JSON string. -/
def jsonChar (c : Char) : List Char :=
  if c = '"' then ['\\', '"']
  else if c = '\\' then ['\\', '\\']
  else if c = '\x08' then ['\\', 'b']
  else if c = '\x0c' then ['\\', 'f']
  else if c = '\n' then ['\\', 'n']
  else if c = '\r' then ['\\', 'r']
  else if c = '\t' then ['\\', 't']
  else if c.toNat < 32 then ['\\', 'u'] ++ hexDigits 4 c.toNat
  else [c]

/-- A text as a JSON string. -/
def jsonString (text : String) : String := String.ofList ('"' :: text.toList.flatMap jsonChar ++ ['"'])

/-- A value in a record. -/
inductive JsonValue where
  | null
  /-- A number, by its digits. -/
  | number (digits : String)
  | text (chars : String)
  deriving DecidableEq

def JsonValue.render : JsonValue → String
  | null => "null"
  | number digits => digits
  | text chars => jsonString chars

/-- Named values, in the order in which they are written. -/
abbrev JsonRecord := List (String × JsonValue)

/-- Lines between brackets, with a comma behind every line but the last. -/
def bracketed (opening closing indent : String) (items : List String) : String :=
  if items = [] then opening ++ closing
  else
    let inner := indent ++ "  "
    opening ++ "\n" ++ ",\n".intercalate (items.map (inner ++ ·)) ++ "\n" ++ indent ++ closing

/-- A record as JSON text; its first line is not indented. -/
def JsonRecord.render (indent : String) (r : JsonRecord) : String :=
  bracketed "\x7b" "\x7d" indent (r.map fun (name, value) => jsonString name ++ ": " ++ value.render)

/-- A list of records as JSON text. -/
def renderRecords (rs : List JsonRecord) : String := bracketed "[" "]" "" (rs.map (JsonRecord.render "  "))

end OrderedStore.Text
