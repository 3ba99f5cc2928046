import OrderedStore.CommandLine.Arguments

/-!
# The command line program

* `CommandLine.run`: what the program does with its arguments on a disk;
* `Report`: the exit code, the text on standard output, and the line that tells of an error.

The exit code is 2 if the arguments make no sense, 1 if the command fails, and 0 otherwise.
-/

namespace OrderedStore.CommandLine

/-- What a run of the program leaves besides the disk. -/
structure Report where
  code : Nat
  out : String := ""
  errorLine : Option String := none
  deriving DecidableEq

/-- The version of the program. -/
def version : String := "0.3.0"

/-- How the program is called. -/
def usage : String :=
  "Usage: burrow [--path PATH] [--verbose] COMMAND\n\n" ++
  "Commands:\n" ++
  "  put KEY VALUE\n" ++
  "  get KEY [--format text|json]\n" ++
  "  delete KEY\n" ++
  "  scan [--from KEY] [--reverse] [--limit N] [--format text|json]\n" ++
  "  stats [--format text|json]\n" ++
  "  version\n"

def Report.ofStop : Stop → Report
  | .usage => { code := 2 }
  | .help => { code := 0, out := usage }
  | .version => { code := 0, out := s!"burrow {version}\n" }

/-- The report of a failure, shown as a diagnostic. -/
def Report.failure (diagnostic : String) : Report := { code := 1, errorLine := some s!"Error: {diagnostic}" }

/-- Does what the arguments ask for. -/
def Invocation.run (i : Invocation) (disk : Disk) : Report × Disk :=
  match i.request, i.path with
  | .printVersion, _ => ({ code := 0, out := s!"Burrow CLI v{version}\n" }, disk)
  | .run name _, none => (.failure (Text.quoted s!"Store path required for {name.name}"), disk)
  | .run _ command, some path =>
    match command.run path disk with
    | (.ok out, disk) => ({ code := 0, out }, disk)
    | (.error e, disk) => (.failure e.diagnostic, disk)

/-- Runs the program. -/
def run (arguments : List String) (disk : Disk) : Report × Disk :=
  match Invocation.ofArguments arguments with
  | .error stop => (.ofStop stop, disk)
  | .ok invocation => invocation.run disk

end OrderedStore.CommandLine
