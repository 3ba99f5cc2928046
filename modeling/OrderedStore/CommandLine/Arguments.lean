import OrderedStore.Command

/-!
# Command line arguments

The arguments are switches, one command name, and the operands of the command. `--path` and `--verbose`
may stand on either side of the command, once on each; the one behind the command wins.

* `Switch`, `CommandName`: the switches, and which of them a command knows;
* `Reader.read`: taking one argument up after another;
* `Invocation.ofArguments`: what the arguments ask for, or why there is nothing to run.

A switch with a value takes it from the rest of its argument (`--limit=3`, `-l3`, `-l=3`) or from the
next argument, unless that begins with a dash; a dash alone is an ordinary text. Switches of one letter
may be joined. Behind `--` everything is an operand.
-/

namespace OrderedStore.CommandLine

/-- The switches. -/
inductive Switch where
  | path
  | verbose
  | version
  | help
  | format
  | start
  | reverse
  | limit
  deriving DecidableEq

namespace Switch

/-- The name behind two dashes. -/
def long : Switch → String
  | path => "path"
  | verbose => "verbose"
  | version => "version"
  | help => "help"
  | format => "format"
  | start => "from"
  | reverse => "reverse"
  | limit => "limit"

/-- The letter behind one dash. -/
def short? : Switch → Option Char
  | path => some 'p'
  | verbose => some 'v'
  | version => some 'V'
  | help => some 'h'
  | format => some 'f'
  | start => none
  | reverse => some 'r'
  | limit => some 'l'

def takesValue : Switch → Bool
  | path | format | start | limit => true
  | verbose | version | help | reverse => false

end Switch

/-- The commands by name. -/
inductive CommandName where
  | put
  | get
  | delete
  | scan
  | stats
  | version
  | help
  deriving DecidableEq

namespace CommandName

def all : List CommandName := [put, get, delete, scan, stats, version, help]

def name : CommandName → String
  | put => "put"
  | get => "get"
  | delete => "delete"
  | scan => "scan"
  | stats => "stats"
  | version => "version"
  | help => "help"

def ofName? (name : String) : Option CommandName := all.find? (·.name = name)

/-- The switches of a command besides those that every command knows. -/
def switches : CommandName → List Switch
  | get | stats => [.format]
  | scan => [.start, .reverse, .limit, .format]
  | put | delete | version | help => []

/-- How many operands the command takes. -/
def operands : CommandName → Nat
  | put => 2
  | get | delete => 1
  | scan | stats | version => 0
  | help => 1

end CommandName

/-- Why there is nothing to run. -/
inductive Stop where
  /-- The arguments make no sense. -/
  | usage
  | help
  | version
  deriving DecidableEq

/-- The number that a limit's text spells: digits, perhaps behind a plus sign, that fits a word. -/
def parseLimit (text : String) : Option Nat :=
  let digits := match text.toList with
    | '+' :: rest => rest
    | all => all
  if digits = [] || !digits.all Char.isDigit then none
  else
    let n := digits.foldl (fun n c => 10 * n + (c.toNat - '0'.toNat)) 0
    if n < UInt64.size then some n else none

/-- The value can be that of the switch. -/
def isValueOf (value : String) : Switch → Bool
  | .path => value ≠ ""
  | .limit => (parseLimit value).isSome
  | _ => true

/-- The switches given, with their values; those without a value have an empty text. -/
abbrev Given := List (Switch × String)

/-- The value of a switch. -/
def Given.value? (g : Given) (s : Switch) : Option String := (g.find? (·.1 = s)).map (·.2)

/-- The state between two arguments. -/
structure Reader where
  command : Option CommandName := none
  /-- The switches before the command. -/
  outer : Given := []
  /-- The switches behind the command. -/
  inner : Given := []
  operands : List String := []
  /-- The switch that waits for its value. -/
  pending : Option Switch := none
  /-- A `--` has been read. -/
  ended : Bool := false
  deriving DecidableEq

namespace Reader

/-- The switches given on this side of the command. -/
def given (r : Reader) : Given := if r.command.isSome then r.inner else r.outer

/-- The switches known on this side of the command. -/
def known (r : Reader) : List Switch :=
  match r.command with
  | none => [.path, .verbose, .help, .version]
  | some c => [.path, .verbose, .help] ++ c.switches

/-- Takes a switch up with its value. -/
def give (r : Reader) (s : Switch) (value : String) : Except Stop Reader :=
  if s = .help then .error .help
  else if s = .version then .error .version
  else if (r.given.value? s).isSome || !isValueOf value s then .error .usage
  else if r.command.isSome then .ok { r with inner := (s, value) :: r.inner, pending := none }
  else .ok { r with outer := (s, value) :: r.outer, pending := none }

/-- Takes an operand up. -/
def operand (r : Reader) (text : String) : Except Stop Reader :=
  match r.command with
  | none => .error .usage
  | some c =>
    if r.operands.length < c.operands then .ok { r with operands := r.operands ++ [text] } else .error .usage

/-- Takes a switch up that is named in full, perhaps with its value behind an equals sign. -/
def long (r : Reader) (text : List Char) : Except Stop Reader :=
  let name := String.ofList (text.takeWhile (· ≠ '='))
  match r.known.find? (·.long = name), text.dropWhile (· ≠ '=') with
  | none, _ => .error .usage
  | some s, [] => if s.takesValue then .ok { r with pending := some s } else r.give s ""
  | some s, _ :: value => if s.takesValue then r.give s (String.ofList value) else .error .usage

/-- Takes joined letters up; the rest of the text is the value of the first that takes one. -/
def shorts (r : Reader) : List Char → Except Stop Reader
  | [] => .ok r
  | c :: rest =>
    match r.known.find? (·.short? = some c) with
    | none => .error .usage
    | some s =>
      if !s.takesValue then do
        let r ← r.give s ""
        r.shorts rest
      else match rest with
        | [] => .ok { r with pending := some s }
        | '=' :: value => r.give s (String.ofList value)
        | value => r.give s (String.ofList value)

/-- Takes one argument up. -/
def read (r : Reader) (argument : String) : Except Stop Reader :=
  if r.ended || r.command = some .help then r.operand argument
  else match r.pending, argument.toList with
    | some _, '-' :: _ :: _ => .error .usage
    | some s, _ => r.give s argument
    | none, text =>
      match if r.command.isNone then CommandName.ofName? argument else none, text with
      | some name, _ => .ok { r with command := some name }
      | none, ['-', '-'] => .ok { r with ended := true }
      | none, '-' :: '-' :: name => r.long name
      | none, '-' :: c :: rest => r.shorts (c :: rest)
      | none, _ => r.operand argument

end Reader

/-- What the arguments ask for. -/
inductive Request where
  | printVersion
  | run (name : CommandName) (command : Command)
  deriving DecidableEq

structure Invocation where
  path : Option String
  request : Request
  deriving DecidableEq

/-- The request of a command with its switches and operands. -/
def request? (name : CommandName) (g : Given) (operands : List String) : Except Stop Request :=
  let format := Format.ofName ((g.value? .format).getD "text")
  match name, operands with
  | .put, [key, value] => .ok (.run .put (.put (Bytes.ofText key) (Bytes.ofText value)))
  | .get, [key] => .ok (.run .get (.get (Bytes.ofText key) format))
  | .delete, [key] => .ok (.run .delete (.delete (Bytes.ofText key)))
  | .scan, [] =>
    let window : Window :=
      { start := (g.value? .start).map Bytes.ofText
        reverse := (g.value? .reverse).isSome
        limit := (g.value? .limit).bind parseLimit }
    .ok (.run .scan (.scan window format))
  | .stats, [] => .ok (.run .stats (.stats format))
  | .version, [] => .ok .printVersion
  | .help, [] => .error .help
  | .help, [topic] => .error (if (CommandName.ofName? topic).isSome then .help else .usage)
  | _, _ => .error .usage

/-- Reads all arguments. -/
def Invocation.ofArguments (arguments : List String) : Except Stop Invocation := do
  let r ← arguments.foldlM Reader.read {}
  match r.pending, r.command with
  | some _, _ | _, none => .error .usage
  | none, some name =>
    let request ← request? name r.inner r.operands
    return ⟨(r.inner.value? .path).or (r.outer.value? .path), request⟩

end OrderedStore.CommandLine
