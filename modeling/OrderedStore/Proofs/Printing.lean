import OrderedStore.Command
import OrderedStore.Proofs.Listing
import Mathlib.Algebra.Group.Nat.Defs

/-!
# What commands print

What a command has found is printed as lines or as JSON. Here the texts are spelled out, with what can be read off
them: bytes are shown so that no others are shown alike, and in JSON everything that is shown ends by itself, so that
the text tells what was found.

* `Text.PrefixFree`, `Text.Delimits`: what can be told from whatever follows it;
  `prefixFree_escapeByte`, `delimits_jsonBytes`, `Delimits.intercalate_inj`: bytes, strings of JSON, and lists;
* `Command.Prints`: the text that a command prints on a map; `prints_get`, `prints_scan`, `prints_stats`: it is what
  the program prints;
* `Command.Tells`: what can be read off a text; `Prints.tells`: this can be read off any text that is printed.
-/

namespace OrderedStore

namespace Text

/-! ## Codes that end by themselves -/

section Codes

variable {α : Type}

/-- The characters for a sign can be told from whatever follows them. -/
def PrefixFree (code : α → List Char) : Prop := ∀ ⦃a b r s⦄, code a ++ r = code b ++ s → a = b ∧ r = s

/-- A text can be told from whatever follows it. -/
def Delimits (shown : α → String) : Prop := ∀ ⦃a b r s⦄, shown a ++ r = shown b ++ s → a = b ∧ r = s

variable {code : α → List Char} {shown : α → String}

/-- A code is prefix-free if its signs can be read. -/
theorem prefixFree_of_lead {lead : List Char → α} (h : ∀ a r, lead (code a ++ r) = a) : PrefixFree code := by
  intro a b r s heq
  have hab : a = b := by rw [← h a r, heq, h b s]
  subst hab
  exact ⟨rfl, List.append_cancel_left heq⟩

theorem Delimits.injective (h : Delimits shown) : Function.Injective shown := fun a b heq =>
  (h (r := "") (s := "") (by rw [heq])).1

/-- Signs in front of a mark that none of them starts with. -/
theorem PrefixFree.flatMap_inj (h : PrefixFree code) {mark : Char} (hmark : ∀ a, ∃ c cs, code a = c :: cs ∧ c ≠ mark)
    {as bs : List α} {r s : List Char} (heq : as.flatMap code ++ mark :: r = bs.flatMap code ++ mark :: s) :
    as = bs ∧ r = s := by
  induction as generalizing bs with
  | nil =>
    cases bs with
    | nil => exact ⟨rfl, (List.cons.inj heq).2⟩
    | cons b bs =>
      obtain ⟨c, cs, hcode, hne⟩ := hmark b
      rw [List.flatMap_cons, hcode] at heq
      exact absurd (List.cons.inj heq).1.symm hne
  | cons a as ih =>
    cases bs with
    | nil =>
      obtain ⟨c, cs, hcode, hne⟩ := hmark a
      rw [List.flatMap_cons, hcode] at heq
      exact absurd (List.cons.inj heq).1 hne
    | cons b bs =>
      rw [List.flatMap_cons, List.flatMap_cons, List.append_assoc, List.append_assoc] at heq
      obtain ⟨rfl, hrest⟩ := h heq
      obtain ⟨rfl, hrs⟩ := ih hrest
      exact ⟨rfl, hrs⟩

/-- Texts with separators between them, in front of a stop that does not start with the separator. -/
theorem Delimits.intercalate_inj (h : Delimits shown) {sep stop : String} (hstop : ∀ r, sep ++ r ≠ stop)
    {as bs : List α} (has : as ≠ []) (hbs : bs ≠ [])
    (heq : sep.intercalate (as.map shown) ++ stop = sep.intercalate (bs.map shown) ++ stop) : as = bs := by
  induction as generalizing bs with
  | nil => exact absurd rfl has
  | cons a as ih =>
    cases bs with
    | nil => exact absurd rfl hbs
    | cons b bs =>
      cases as <;> cases bs <;>
        simp only [List.map_cons, List.map_nil, String.intercalate_singleton, String.intercalate_cons_cons,
          String.append_assoc] at heq ih <;> obtain ⟨rfl, hrest⟩ := h heq
      · rfl
      · exact absurd hrest.symm (hstop _)
      · exact absurd hrest (hstop _)
      · rw [ih (List.cons_ne_nil _ _) (List.cons_ne_nil _ _) ((String.append_right_inj sep).mp hrest)]

end Codes

/-! ## Digits -/

/-- The value of a hexadecimal digit. -/
def hexDigit (c : Char) : Nat := if c.isDigit then c.toNat - 48 else c.toNat - 87

/-- The number that hexadecimal digits stand for. -/
def hexValue (cs : List Char) : Nat := cs.foldl (fun n c => 16 * n + hexDigit c) 0

theorem hexDigit_digitChar {d : Nat} (hd : d < 16) : hexDigit (Nat.digitChar d) = d := by
  have hdigits : ∀ d < 16, hexDigit (Nat.digitChar d) = d := by decide
  exact hdigits d hd

theorem hexValue_hexDigits (w n : Nat) : hexValue (hexDigits w n) = n % 16 ^ w := by
  induction w generalizing n with
  | zero => exact (Nat.mod_one n).symm
  | succ w ih =>
    have hlast : hexDigit (Nat.digitChar (n % 16)) = n % 16 := hexDigit_digitChar (Nat.mod_lt n (by decide))
    have hfront : hexValue (hexDigits w (n / 16)) = n / 16 % 16 ^ w := ih (n / 16)
    rw [hexValue] at hfront ⊢
    rw [hexDigits, List.foldl_append, hfront, List.foldl_cons, List.foldl_nil, hlast, Nat.pow_succ', Nat.mod_mul]
    omega

/-- A number in front of a text that starts with no digit. -/
theorem toString_append_inj {n n' : Nat} {mark r s : String} (hmark : ∃ c cs, mark.toList = c :: cs ∧ c.isDigit = false)
    (h : toString n ++ (mark ++ r) = toString n' ++ (mark ++ s)) : n = n' := by
  obtain ⟨c, cs, hcons, hdigit⟩ := hmark
  have hdigits : ∀ (n : Nat) (r : String),
      (toString n ++ (mark ++ r)).toList.takeWhile Char.isDigit = Nat.toDigits 10 n := by
    intro n r
    have hlist : (toString n).toList = Nat.toDigits 10 n := Nat.toList_repr
    rw [String.toList_append, String.toList_append, hlist, hcons, List.cons_append,
      List.takeWhile_append_of_pos fun c hc => Nat.isDigit_of_mem_toDigits (by decide) (by decide) hc,
      List.takeWhile_cons_of_neg (ne_true_of_eq_false hdigit), List.append_nil]
  have hlists : Nat.toDigits 10 n = Nat.toDigits 10 n' := by rw [← hdigits n r, h, hdigits n' s]
  rw [← Nat.ofDigitChars_ten_toDigits (n := n), hlists, Nat.ofDigitChars_ten_toDigits]

/-! ## Bytes -/

/-- The byte that stands behind a backslash. -/
def escapedByte : List Char → UInt8
  | 't' :: _ => 9
  | 'n' :: _ => 10
  | 'r' :: _ => 13
  | 'x' :: cs => .ofNat (hexValue (cs.take 2))
  | c :: _ => .ofNat c.toNat
  | [] => 0

/-- The byte that a text of shown bytes starts with. -/
def leadByte : List Char → UInt8
  | c :: cs => if c = '\\' then escapedByte cs else .ofNat c.toNat
  | [] => 0

theorem toNat_ofNat_byte (b : UInt8) : (Char.ofNat b.toNat).toNat = b.toNat := by
  have hlt := b.toNat_lt
  have hvalid : b.toNat.isValidChar := .inl (by omega)
  rw [Char.ofNat, dif_pos hvalid]
  rfl

/-- A byte that stands for itself stands for no other one. -/
theorem ofNat_byte_ne {b : UInt8} {c : Char} (hne : b.toNat ≠ c.toNat) : Char.ofNat b.toNat ≠ c :=
  fun heq => hne ((toNat_ofNat_byte b).symm.trans (congrArg Char.toNat heq))

theorem leadByte_escapeByte (b : UInt8) (r : List Char) : leadByte (escapeByte b ++ r) = b := by
  unfold escapeByte
  repeat' split
  all_goals rename_i h
  iterate 6
    · subst h
      rfl
  · rename_i hslash
    have hne : Char.ofNat b.toNat ≠ '\\' := ofNat_byte_ne fun heq => hslash (UInt8.toNat_inj.mp heq)
    show (if Char.ofNat b.toNat = '\\' then escapedByte r else .ofNat (Char.ofNat b.toNat).toNat) = b
    rw [if_neg hne, toNat_ofNat_byte, UInt8.ofNat_toNat]
  · have hlt : b.toNat < 16 ^ 2 := b.toNat_lt
    show UInt8.ofNat (hexValue ((hexDigits 2 b.toNat ++ r).take 2)) = b
    rw [List.take_left' (length_hexDigits 2 _), hexValue_hexDigits, Nat.mod_eq_of_lt hlt, UInt8.ofNat_toNat]

theorem prefixFree_escapeByte : PrefixFree escapeByte := prefixFree_of_lead leadByte_escapeByte

/-- No byte is shown by the end of a line. -/
theorem escapeByte_eq_cons (b : UInt8) : ∃ c cs, escapeByte b = c :: cs ∧ c ≠ '\n' := by
  unfold escapeByte
  repeat' split
  iterate 6
    · exact ⟨_, _, rfl, by decide⟩
  · rename_i hline _ _ _ _ _
    exact ⟨_, _, rfl, ofNat_byte_ne fun heq => hline (UInt8.toNat_inj.mp heq)⟩
  · exact ⟨_, _, rfl, by decide⟩

/-- Byte strings that are shown alike are the same. -/
theorem escapeBytes_injective : Function.Injective escapeBytes := by
  intro bs bs' h
  have hchars : bs.flatMap escapeByte = bs'.flatMap escapeByte := String.ofList_injective h
  exact (prefixFree_escapeByte.flatMap_inj (r := []) (s := []) escapeByte_eq_cons (by rw [hchars])).1

/-! ## Strings of JSON -/

/-- The character that stands behind a backslash. -/
def escapedChar : List Char → Char
  | 'b' :: _ => '\x08'
  | 'f' :: _ => '\x0c'
  | 'n' :: _ => '\n'
  | 'r' :: _ => '\r'
  | 't' :: _ => '\t'
  | 'u' :: cs => .ofNat (hexValue (cs.take 4))
  | c :: _ => c
  | [] => '\x00'

/-- The character that a string of JSON starts with. -/
def leadChar : List Char → Char
  | c :: cs => if c = '\\' then escapedChar cs else c
  | [] => '\x00'

theorem leadChar_jsonChar (c : Char) (r : List Char) : leadChar (jsonChar c ++ r) = c := by
  unfold jsonChar
  split
  · rename_i h
    subst h
    rfl
  · split
    · rename_i h
      subst h
      rfl
    · rename_i hslash
      repeat' split
      all_goals rename_i h
      iterate 5
        · subst h
          rfl
      · show Char.ofNat (hexValue ((hexDigits 4 c.toNat ++ r).take 4)) = c
        rw [List.take_left' (length_hexDigits 4 _), hexValue_hexDigits, Nat.mod_eq_of_lt (by omega), Char.ofNat_toNat]
      · exact if_neg hslash

theorem prefixFree_jsonChar : PrefixFree jsonChar := prefixFree_of_lead leadChar_jsonChar

/-- No character is written as the quote behind a string. -/
theorem jsonChar_eq_cons (c : Char) : ∃ d cs, jsonChar c = d :: cs ∧ d ≠ '"' := by
  unfold jsonChar
  split
  · exact ⟨_, _, rfl, by decide⟩
  · rename_i hquote
    repeat' split
    iterate 7
      · exact ⟨_, _, rfl, by decide⟩
    · exact ⟨_, _, rfl, hquote⟩

theorem delimits_jsonString : Delimits jsonString := by
  intro text text' r s heq
  have hchars := congrArg String.toList heq
  simp only [jsonString, String.toList_append, String.toList_ofList, List.append_assoc, List.cons_append,
    List.nil_append, List.cons.injEq, true_and] at hchars
  obtain ⟨htext, hrest⟩ := prefixFree_jsonChar.flatMap_inj jsonChar_eq_cons hchars
  exact ⟨String.toList_inj.mp htext, String.toList_inj.mp hrest⟩

/-! ## Records of JSON -/

theorem bracketed_cons (opening closing indent item : String) (items : List String) :
    bracketed opening closing indent (item :: items) = opening ++ "\n" ++
      ",\n".intercalate ((item :: items).map (indent ++ "  " ++ ·)) ++ "\n" ++ indent ++ closing :=
  if_neg (List.cons_ne_nil _ _)

theorem render_pair (indent : String) (key value : JsonValue) :
    JsonRecord.render indent [("key", key), ("value", value)] = "\x7b\n" ++ (indent ++ "  \"key\": ") ++ key.render ++
      ",\n" ++ (indent ++ "  \"value\": ") ++ value.render ++ "\n" ++ (indent ++ "\x7d") := by
  have hkey : jsonString "key" = "\"key\"" := by decide
  have hvalue : jsonString "value" = "\"value\"" := by decide
  simp [JsonRecord.render, bracketed_cons, hkey, hvalue, ← String.toList_inj]

theorem renderRecords_of_ne_nil {rs : List JsonRecord} (h : rs ≠ []) : renderRecords rs =
    "[\n" ++ ",\n".intercalate (rs.map fun r => "" ++ "  " ++ r.render "  ") ++ "\n]" := by
  cases rs with
  | nil => exact absurd rfl h
  | cons r rs =>
    rw [renderRecords, List.map_cons, bracketed_cons, ← List.map_cons, List.map_map, Function.comp_def]
    generalize ",\n".intercalate _ = lines
    simp [← String.toList_inj]

/-- A byte string in JSON. -/
def jsonBytes (bs : Bytes) : String := jsonString (escapeBytes bs)

theorem delimits_jsonBytes : Delimits jsonBytes := fun _ _ _ _ heq =>
  (delimits_jsonString heq).imp_left (escapeBytes_injective ·)

/-- What is there is not shown as what is not there. -/
theorem jsonBytes_ne_null (bs : Bytes) : jsonBytes bs ≠ "null" := by
  intro h
  have hchars := congrArg String.toList h
  simp [jsonBytes, jsonString] at hchars

end Text

namespace Command

/-! ## What is printed -/

/-- The options that a command opens the store with. -/
def options (create : Bool) : EngineOptions := Options.lower { createIfMissing := create }

/-- An entry in the list that a scan prints as JSON. -/
def jsonEntry (e : Entry) : String :=
  "  \x7b\n    \"key\": " ++ Text.jsonBytes e.1 ++ ",\n    \"value\": " ++ Text.jsonBytes e.2 ++ "\n  \x7d"

/-- The text that a command prints on a store with a map. -/
def Prints (path : String) (m : Contents) : Command → String → Prop
  | put .., text | delete .., text => text = ""
  | get key .text, text => text = (m.get? key).elim "(not found)" Text.escapeBytes ++ "\n"
  | get key .json, text =>
    text = "\x7b\n  \"key\": " ++ Text.jsonBytes key ++ ",\n  \"value\": " ++
      (m.get? key).elim "null" Text.jsonBytes ++ "\n\x7d\n"
  | scan window .text, text =>
    text = String.join ((window.select m).map fun e => Text.escapeBytes e.1 ++ " = " ++ Text.escapeBytes e.2 ++ "\n") ++
      ("(" ++ toString (window.select m).length ++ " entries)\n")
  | scan window .json, text =>
    text = if window.select m = [] then "[]\n"
      else "[\n" ++ ",\n".intercalate ((window.select m).map jsonEntry) ++ "\n]\n"
  | stats .text, text => ∃ sequence : Sequence,
    text = "Burrow Store Statistics\n=======================\n\nPath:     " ++ path ++
      "\nEntries:  " ++ toString m.size ++ "\nSequence: " ++ toString sequence.toNat ++
      "\nOptions:  " ++ (options false).describe ++ "\n"
  | stats .json, text => ∃ sequence : Sequence,
    text = "\x7b\n  \"path\": " ++ Text.jsonString path ++
      ",\n  \"entries\": " ++ toString m.size ++ ",\n  \"sequence\": " ++ toString sequence.toNat ++
      ",\n  \"options\": " ++ Text.jsonString (options false).describe ++ "\n\x7d\n"

variable {path : String} {m : Contents}

theorem prints_get (key : Bytes) (format : Format) :
    (get key format).Prints path m (printValue key (m.get? key) format) := by
  cases format with
  | text => exact rfl
  | json =>
    have hvalue : ∀ value : Option Bytes, Text.JsonValue.render
        (value.elim .null fun bytes => .text (Text.escapeBytes bytes)) = value.elim "null" Text.jsonBytes := by
      rintro (_ | value) <;> rfl
    have hprint : printValue key (m.get? key) .json = Text.JsonRecord.render ""
        [("key", .text (Text.escapeBytes key)),
          ("value", (m.get? key).elim .null fun bytes => .text (Text.escapeBytes bytes))] ++ "\n" := rfl
    rw [hprint, Text.render_pair, hvalue, Prints]
    simp [← String.toList_inj, Text.jsonBytes, Text.JsonValue.render]

theorem prints_scan (window : Window) (format : Format) :
    (scan window format).Prints path m (printEntries (window.select m) format) := by
  cases format with
  | text => exact rfl
  | json =>
    have hprint : ∀ entries, printEntries entries .json =
        Text.renderRecords (entries.map fun e => [("key", .text (Text.escapeBytes e.1)),
          ("value", .text (Text.escapeBytes e.2))]) ++ "\n" := fun _ => rfl
    rw [hprint, Prints]
    by_cases hnil : window.select m = []
    · rw [hnil]
      rfl
    · have hentry : ∀ e : Entry, "" ++ "  " ++ Text.JsonRecord.render "  " [("key", .text (Text.escapeBytes e.1)),
          ("value", .text (Text.escapeBytes e.2))] = jsonEntry e := by
        intro e
        unfold jsonEntry
        simp [Text.render_pair, ← String.toList_inj, Text.jsonBytes, Text.JsonValue.render]
      rw [if_neg hnil, Text.renderRecords_of_ne_nil (by simpa using hnil), List.map_map, Function.comp_def,
        String.append_assoc]
      simp only [hentry]
      rfl

theorem Summary.print_text (s : Summary) : s.print .text =
    "Burrow Store Statistics\n=======================\n\nPath:     " ++ s.path ++ "\nEntries:  " ++ s.entries ++
      "\nSequence: " ++ s.sequence ++ "\nOptions:  " ++ s.options ++ "\n" := by
  have hprint : s.print .text = "Burrow Store Statistics\n=======================\n\n" ++
    ("Path:     " ++ s.path ++ "\nEntries:  " ++ s.entries ++ "\nSequence: " ++ s.sequence ++
      "\nOptions:  " ++ s.options ++ "\n") := rfl
  simp [hprint, ← String.toList_inj]

theorem Summary.print_json (s : Summary) : s.print .json =
    "\x7b\n  \"path\": " ++ Text.jsonString s.path ++ ",\n  \"entries\": " ++ s.entries ++
      ",\n  \"sequence\": " ++ s.sequence ++ ",\n  \"options\": " ++ Text.jsonString s.options ++ "\n\x7d\n" := by
  have hprint : s.print .json = Text.JsonRecord.render "" [("path", .text s.path), ("entries", .number s.entries),
    ("sequence", .number s.sequence), ("options", .text s.options)] ++ "\n" := rfl
  have hpath : Text.jsonString "path" = "\"path\"" := by decide
  have hentries : Text.jsonString "entries" = "\"entries\"" := by decide
  have hsequence : Text.jsonString "sequence" = "\"sequence\"" := by decide
  have hoptions : Text.jsonString "options" = "\"options\"" := by decide
  simp [hprint, Text.JsonRecord.render, Text.bracketed_cons, Text.JsonValue.render, hpath, hentries, hsequence,
    hoptions, ← String.toList_inj]

theorem prints_stats (sequence : Sequence) (format : Format) : (stats format).Prints path m
    (Summary.print ⟨path, toString m.size, toString sequence.toNat, (options false).describe⟩ format) := by
  cases format with
  | text => exact ⟨sequence, Summary.print_text _⟩
  | json => exact ⟨sequence, Summary.print_json _⟩

/-! ## What can be read off -/

/-- Whoever reads the text knows what the command has found: it is not printed where there is something else to be
found. Only as lines a value may look like the words for a missing one, and an entry like another one. -/
def Tells (path : String) (m : Contents) (c : Command) (text : String) : Prop :=
  ∀ m', c.Prints path m' text → match c with
    | get key .text => text = "(not found)\n" ∨ m.get? key = m'.get? key
    | get key .json => m.get? key = m'.get? key
    | scan window .json => window.select m = window.select m'
    | stats _ => m.size = m'.size
    | put .. | delete .. | scan _ .text => True

theorem delimits_jsonEntry : Text.Delimits jsonEntry := by
  intro e e' r s heq
  have hspelled : ∀ (e : Entry) (r : String), jsonEntry e ++ r = "  \x7b\n    \"key\": " ++
      (Text.jsonBytes e.1 ++ (",\n    \"value\": " ++ (Text.jsonBytes e.2 ++ ("\n  \x7d" ++ r)))) := by
    intro e r
    unfold jsonEntry
    simp only [String.append_assoc]
  rw [hspelled, hspelled] at heq
  obtain ⟨hkey, hvalues⟩ := Text.delimits_jsonBytes ((String.append_right_inj _).mp heq)
  obtain ⟨hvalue, hrest⟩ := Text.delimits_jsonBytes ((String.append_right_inj _).mp hvalues)
  exact ⟨Prod.ext hkey hvalue, (String.append_right_inj _).mp hrest⟩

/-- Two lookups that print the same line find the same, but for the words for a missing value. -/
theorem elim_escapeBytes_inj {value value' : Option Bytes}
    (heq : value.elim "(not found)" Text.escapeBytes ++ "\n" = value'.elim "(not found)" Text.escapeBytes ++ "\n") :
    value.elim "(not found)" Text.escapeBytes ++ "\n" = "(not found)\n" ∨ value = value' := by
  cases value with
  | none => exact .inl rfl
  | some value =>
    cases value' with
    | none => exact .inl heq
    | some value' => exact .inr (congrArg some (Text.escapeBytes_injective ((String.append_left_inj _).mp heq)))

theorem elim_jsonBytes_injective : Function.Injective fun value : Option Bytes => value.elim "null" Text.jsonBytes := by
  rintro (_ | value) (_ | value') heq
  · rfl
  · exact absurd heq.symm (Text.jsonBytes_ne_null value')
  · exact absurd heq (Text.jsonBytes_ne_null value)
  · exact congrArg some (Text.delimits_jsonBytes.injective heq)

/-- The lists of two scans that are printed alike are the same. -/
theorem jsonEntries_inj {entries entries' : List Entry}
    (heq : (if entries = [] then "[]\n" else "[\n" ++ ",\n".intercalate (entries.map jsonEntry) ++ "\n]\n") =
      if entries' = [] then "[]\n" else "[\n" ++ ",\n".intercalate (entries'.map jsonEntry) ++ "\n]\n") :
    entries = entries' := by
  have hempty : ∀ lines : String, "[]\n" ≠ "[\n" ++ lines ++ "\n]\n" := by
    intro lines h
    have hchars := congrArg String.toList h
    simp at hchars
  have hstop : ∀ lines : String, ",\n" ++ lines ≠ "\n]\n" := by
    intro lines h
    have hchars := congrArg String.toList h
    simp at hchars
  split at heq <;> split at heq <;> rename_i hnil hnil'
  · rw [hnil, hnil']
  · exact absurd heq (hempty _)
  · exact absurd heq.symm (hempty _)
  · rw [String.append_assoc, String.append_assoc, String.append_right_inj] at heq
    exact delimits_jsonEntry.intercalate_inj hstop hnil hnil' heq

theorem Prints.tells {c : Command} {text : String} (h : c.Prints path m text) : c.Tells path m text := by
  intro m' h'
  cases c with
  | put | delete => trivial
  | get key format =>
    cases format with
    | text =>
      have heq := elim_escapeBytes_inj (Eq.trans (Eq.symm h) h')
      exact heq.imp_left (Eq.trans h)
    | json =>
      have heq := (String.append_left_inj _).mp (Eq.trans (Eq.symm h) h')
      exact elim_jsonBytes_injective ((String.append_right_inj _).mp heq)
  | scan window format =>
    cases format with
    | text => trivial
    | json => exact jsonEntries_inj (Eq.trans (Eq.symm h) h')
  | stats format =>
    cases format with
    | text | json =>
      obtain ⟨sequence, h⟩ := h
      obtain ⟨sequence', h'⟩ := h'
      have heq := h.symm.trans h'
      simp only [String.append_assoc, String.append_right_inj] at heq
      exact Text.toString_append_inj ⟨_, _, rfl, rfl⟩ heq

end Command

end OrderedStore
