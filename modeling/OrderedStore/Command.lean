import OrderedStore.Store.Media
import OrderedStore.Store.Scan
import OrderedStore.Text.Escaped
import OrderedStore.Text.Json

/-!
# Commands

Each command opens the store directory at a path, does one thing, and closes the store again. Only a put
may make the store. What a command prints is printed after the store was closed well; the error of a
closing is the command's error.

* `Command`: the commands; `Command.run`: running one on a disk, with what it prints;
* `Format`: lines of text, or JSON.
-/

namespace OrderedStore

/-- How results are printed. -/
inductive Format where
  | text
  | json
  deriving DecidableEq

/-- The format of a name; an unknown name is that of text. -/
def Format.ofName (name : String) : Format := if name = "json" then json else text

/-- The commands on a store. -/
inductive Command where
  | put (key value : Bytes)
  | get (key : Bytes) (format : Format)
  | delete (key : Bytes)
  | scan (window : Window) (format : Format)
  | stats (format : Format)
  deriving DecidableEq

namespace Command

/-- What the stats command reports; the numbers are kept as their digits. -/
structure Summary where
  path : String
  entries : String
  sequence : String
  options : String
  deriving DecidableEq

/-! ## Printing -/

/-- The result of a lookup. -/
def printValue (key : Bytes) (value : Option Bytes) : Format → String
  | .text => value.elim "(not found)" Text.escapeBytes ++ "\n"
  | .json =>
    let record : Text.JsonRecord :=
      [("key", .text (Text.escapeBytes key)),
        ("value", value.elim .null fun bytes => .text (Text.escapeBytes bytes))]
    record.render "" ++ "\n"

/-- The entries of a scan. -/
def printEntries (entries : List Entry) : Format → String
  | .text =>
    let lines := entries.map fun (key, value) => s!"{Text.escapeBytes key} = {Text.escapeBytes value}\n"
    String.join lines ++ s!"({entries.length} entries)\n"
  | .json =>
    Text.renderRecords (entries.map fun (key, value) =>
      [("key", .text (Text.escapeBytes key)), ("value", .text (Text.escapeBytes value))]) ++ "\n"

def Summary.print (s : Summary) : Format → String
  | .text =>
    "Burrow Store Statistics\n=======================\n\n" ++
    s!"Path:     {s.path}\nEntries:  {s.entries}\nSequence: {s.sequence}\nOptions:  {s.options}\n"
  | .json =>
    let record : Text.JsonRecord :=
      [("path", .text s.path), ("entries", .number s.entries), ("sequence", .number s.sequence),
        ("options", .text s.options)]
    record.render "" ++ "\n"

/-! ## Running -/

/-- Opens the store at a path, does something with it, and closes it. -/
def session {α : Type} (path : String) (create : Bool)
    (act : AttachedStore → Except StoreError α × AttachedStore) (disk : Disk) : Except StoreError α × Disk :=
  match Store.openDirectory path { createIfMissing := create } { disk } with
  | (.error e, media) => (.error e, media.disk)
  | (.ok s, media) =>
    match act (s.attach media) with
    | (.error e, s) => (.error e, s.drop.media.disk)
    | (.ok a, s) =>
      let (closed, s) := s.close
      (closed.map fun _ => a, s.media.disk)

/-- Reads the summary of an open store. -/
def summarize (path : String) (s : AttachedStore) : Except StoreError Summary × AttachedStore :=
  match s.property "burrow.num-entries" with
  | (.error e, s) => (.error e, s)
  | (.ok entries, s) =>
    match s.property "burrow.sequence" with
    | (.error e, s) => (.error e, s)
    | (.ok sequence, s) =>
      let (options, s) := s.property "burrow.options"
      (options.map fun options => ⟨path, entries.getD "0", sequence.getD "0", options.getD ""⟩, s)

/-- Runs a command on the store at a path; the result is what it prints. -/
def run (path : String) (disk : Disk) : Command → Except StoreError String × Disk
  | put key value => print (fun _ => "") (session path true (·.put key value) disk)
  | delete key => print (fun _ => "") (session path false (·.delete key) disk)
  | get key format => print (printValue key · format) (session path false (·.get key) disk)
  | scan window format => print (printEntries · format) (session path false (·.scan window) disk)
  | stats format => print (·.print format) (session path false (summarize path) disk)
where
  print {α : Type} (text : α → String) : Except StoreError α × Disk → Except StoreError String × Disk
    | (result, disk) => (result.map text, disk)

end Command

end OrderedStore
