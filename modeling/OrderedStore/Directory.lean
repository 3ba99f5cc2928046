import OrderedStore.Disk
import OrderedStore.Options
import OrderedStore.Text.Blank

/-!
# Store directories

A directory is a store if it holds the file `CURRENT`, which names the format. The file `LOCK`
carries the lock of the one connection that has the store open, and `LOG` is the log.

* `Directory.openAt`: opening or making a store directory, with its lock taken;
* `Directory.close`: letting the lock go.

The order of the checks is part of the contract: a missing or unwanted store is reported before
anything on the disk is touched, and a held lock before the format is looked at.
-/

namespace OrderedStore

/-- A store directory that is open here. -/
structure Directory where
  path : String
  /-- The locked file. -/
  lock : FileId
  deriving DecidableEq

namespace Directory

def currentPath (path : String) : String := joinPath path "CURRENT"

def lockPath (path : String) : String := joinPath path "LOCK"

def logPath (path : String) : String := joinPath path "LOG"

/-- The format written and read here. -/
def formatTag : String := "burrow-1"

/-- A store is at the path. -/
def isPresent (disk : Disk) (path : String) : Bool := disk.isFile (currentPath path)

/-- The format of the store at a path is the one known here. -/
def checkFormat (disk : Disk) (path : String) : Except EngineError Unit :=
  match disk.read (currentPath path) with
  | .error fault => .error (.ofSystem fault)
  | .ok bytes =>
    match Bytes.toText? bytes with
    | none => .error (.ofSystem .notUtf8)
    | some text =>
      let tag := Text.trim text
      if tag = formatTag then .ok () else .error (.corruption (.format tag (currentPath path)))

/-- Writes the format through a sibling file, so that `CURRENT` is never seen half written. -/
def writeFormat (disk : Disk) (path : String) : Except EngineError Unit × Disk :=
  let sibling := joinPath path "CURRENT.tmp"
  match disk.write sibling (Bytes.ofText (formatTag ++ "\n")) with
  | (.error fault, disk) => (.error (.ofSystem fault), disk)
  | (.ok (), disk) =>
    match disk.rename sibling (currentPath path) with
    | (.error fault, disk) => (.error (.ofSystem fault), disk)
    | (.ok (), disk) => (.ok (), disk)

/-- Gives the lock back. -/
def close (dir : Directory) (disk : Disk) : Disk := disk.unlock dir.lock

/-- Takes the lock of the directory at a path, and checks or writes its format. -/
def enter (path : String) (present : Bool) (disk : Disk) : Except EngineError Directory × Disk :=
  match disk.openFile (lockPath path) with
  | (.error fault, disk) => (.error (.ofSystem fault), disk)
  | (.ok lock, disk) =>
    if disk.isLocked lock then (.error (.locked path), disk)
    else
      let dir : Directory := ⟨path, lock⟩
      let (result, disk) :=
        if present then (checkFormat disk path, disk.lock lock) else writeFormat (disk.lock lock) path
      match result with
      | .error e => (.error e, dir.close disk)
      | .ok () => (.ok dir, disk)

/-- Opens the store directory at a path, or makes it if the options allow. -/
def openAt (path : String) (options : EngineOptions) (disk : Disk) : Except EngineError Directory × Disk :=
  let present := isPresent disk path
  if !present && !options.createIfMissing then (.error (.notFound path), disk)
  else if present && options.errorIfExists then (.error (.alreadyExists path), disk)
  else match disk.makeDirectories path with
    | (.error fault, disk) => (.error (.ofSystem fault), disk)
    | (.ok (), disk) =>
      if disk.isDirectory path then enter path present disk
      else (.error (.invalidArgument (.notADirectory path)), disk)

end Directory

end OrderedStore
