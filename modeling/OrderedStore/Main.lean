import OrderedStore.CommandLine

/-!
# The program

The command line program on the files of the system: the store directory is read into a disk, the program
runs on that disk, and the files that it changed are written back. Meanwhile the program holds the system's lock on
the lock file, if there is one; a lock held by another is a lock on that disk.
-/

namespace OrderedStore.Program

/-- The files of a store directory, in the order in which they are written: the one that makes the directory
a store comes last. -/
def fileNames : List String := ["LOCK", "LOG", "CURRENT"]

/-- The bytes of a file, if it can be read. -/
def readBytes? (path : String) : IO (Option Bytes) := do
  try return some (← IO.FS.readBinFile path).toList
  catch _ => return none

/-- Reads a store directory into a disk. -/
def load (path : String) : IO Disk := do
  let mut disk : Disk := {}
  for name in fileNames do
    let file := joinPath path name
    if let some bytes ← readBytes? file then
      disk := ((disk.makeDirectories path).2.write file bytes).2
  return disk

/-- Writes the files of a store directory that differ from those of an earlier disk, each through a sibling. -/
def save (path : String) (before after : Disk) : IO Unit := do
  for name in fileNames do
    let file := joinPath path name
    match before.read file, after.read file with
    | _, .error _ => pure ()
    | old, .ok bytes =>
      if old.toOption ≠ some bytes then
        IO.FS.createDirAll path
        IO.FS.writeBinFile (file ++ ".tmp") ⟨bytes.toArray⟩
        IO.FS.rename (file ++ ".tmp") file

/-- Takes the lock of a store directory, if it has one; with it whether another holds the lock. -/
def takeLock (path : String) : IO (Option IO.FS.Handle × Bool) := do
  try
    let handle ← IO.FS.Handle.mk (Directory.lockPath path) .readWrite
    return (some handle, !(← handle.tryLock))
  catch _ => return (none, false)

/-- Marks the lock file of a store directory as locked. -/
def markLocked (path : String) (disk : Disk) : Disk :=
  match disk.openFile (Directory.lockPath path) with
  | (.ok id, disk) => disk.lock id
  | (.error _, disk) => disk

/-- Runs the program on the store directory at a path. -/
def runAt (path : String) (arguments : List String) : IO CommandLine.Report := do
  let (handle, isHeld) ← takeLock path
  let before ← load path
  let (report, after) := CommandLine.run arguments (if isHeld then markLocked path before else before)
  unless isHeld do save path before after
  if let some handle := handle then handle.unlock
  return report

/-- Prints a report; the result is the exit code. -/
def print (report : CommandLine.Report) : IO UInt32 := do
  IO.print report.out
  if let some line := report.errorLine then IO.eprintln line
  if report.code = 2 then IO.eprint CommandLine.usage
  return .ofNat report.code

end OrderedStore.Program

def main (arguments : List String) : IO UInt32 := do
  match OrderedStore.CommandLine.Invocation.ofArguments arguments with
  | .ok { path := some path, .. } => OrderedStore.Program.print (← OrderedStore.Program.runAt path arguments)
  | _ => OrderedStore.Program.print (OrderedStore.CommandLine.run arguments {}).1
