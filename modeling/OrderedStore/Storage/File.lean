import OrderedStore.Disk
import OrderedStore.Storage

/-!
# Logs in files

A log in one file. The size is remembered beside the file: what another hand adds to the file is not
read, and appending goes to the real end of the file. Rewriting writes a sibling file and renames it
over the log, so the log has either its old or its new content.

* `FileLog`: an open log file; `FileLog.openAt`: opening it, made if missing;
* `FileOnDisk`: an open log file together with its disk, which is a `LogStorage`.
-/

namespace OrderedStore

/-- An open log file. -/
structure FileLog where
  path : String
  file : FileId
  /-- The bytes that are the log's. -/
  size : Nat
  deriving DecidableEq

/-- An open log file and the disk it is on. -/
structure FileOnDisk where
  log : FileLog
  disk : Disk
  deriving DecidableEq

namespace FileLog

/-- Opens the log file at a path; a missing one is made. -/
def openAt (path : String) (disk : Disk) : Except EngineError FileLog × Disk :=
  match disk.openFile path with
  | (.error fault, disk) => (.error (.ofSystem fault), disk)
  | (.ok file, disk) => (.ok ⟨path, file, (disk.content file).length⟩, disk)

/-- The path of the sibling that a rewrite goes through. -/
def sibling (log : FileLog) : String := log.path ++ ".tmp"

end FileLog

namespace FileOnDisk

/-- The bytes in the file, which may be fewer or more than the log's. -/
def raw (f : FileOnDisk) : Bytes := f.disk.content f.log.file

/-- Writes the file, and remembers a size. -/
def set (f : FileOnDisk) (bytes : Bytes) (size : Nat) : FileOnDisk :=
  ⟨{ f.log with size }, f.disk.setContent f.log.file bytes⟩

/-- Adds bytes at the end of the file. -/
def append (bytes : Bytes) (f : FileOnDisk) : Except EngineError Nat × FileOnDisk :=
  if bytes = [] then (.ok f.log.size, f)
  else (.ok f.log.size, f.set (f.raw ++ bytes) (f.log.size + bytes.length))

/-- Makes the file `length` bytes long; what the file lacks of it is filled with zeros. -/
def truncate (length : Nat) (f : FileOnDisk) : Except EngineError Unit × FileOnDisk :=
  if f.log.size < length then (.error (.invalidArgument (.truncateBeyond length f.log.size)), f)
  else
    let kept := f.raw.take length
    (.ok (), f.set (kept ++ List.replicate (length - kept.length) 0) length)

/-- Writes the sibling file, renames it over the log, and opens the log again. -/
def rewrite (bytes : Bytes) (f : FileOnDisk) : Except EngineError Unit × FileOnDisk :=
  match f.disk.write f.log.sibling bytes with
  | (.error fault, disk) => (.error (.ofSystem fault), { f with disk })
  | (.ok (), disk) =>
    match disk.rename f.log.sibling f.log.path with
    | (.error fault, disk) => (.error (.ofSystem fault), { f with disk })
    | (.ok (), disk) =>
      match disk.openFile f.log.path with
      | (.error fault, disk) => (.error (.ofSystem fault), { f with disk })
      | (.ok file, disk) => (.ok (), ⟨⟨f.log.path, file, bytes.length⟩, disk⟩)

instance : LogStorage FileOnDisk where
  readAll f := .ok (f.raw.take f.log.size)
  append := append
  sync f := (.ok (), f)
  size f := .ok f.log.size
  truncate := truncate
  rewrite := rewrite
  release f := f

end FileOnDisk

end OrderedStore
