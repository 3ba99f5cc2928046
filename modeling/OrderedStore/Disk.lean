import OrderedStore.Bytes
import OrderedStore.Disk.Route

/-!
# Disks

Folders that name each other and files, the contents of the files, and the locks held on them. A
file is known by its number: removing or replacing its name leaves it to those who have it open, and
two names never share a number. A folder is known by its number too, so that one step down a path
looks at one folder only, however deep it lies.

* `node?`, `setNode`, `dropNode`: what a name in a folder stands for;
* `find`, `isFile`, `isDirectory`: what is at a path;
* `makeDirectory`, `makeDirectories`, `openFile`, `createFile`, `rename`: changing the tree;
* `content`, `setContent`: the bytes of an open file;
* `lock`, `unlock`, `isLocked`: exclusive locks;
* `read`, `write`, `append`, `truncate`, `flip`, `remove`, `list`: whole accesses
  by path.
-/

namespace OrderedStore

/-- The number of a file. -/
abbrev FileId := Nat

/-- The number of a folder. -/
abbrev FolderId := Nat

/-- What a name stands for. -/
inductive Node where
  | directory (id : FolderId)
  | file (id : FileId)
  deriving DecidableEq

/-- The names in a directory, and the folder above it. -/
structure Folder where
  above : FolderId := 0
  entries : List (String × Node) := []
  deriving DecidableEq

structure Disk where
  /-- Every folder ever made, by its number; the first is the root, which is above itself. -/
  folders : Array Folder := #[{}]
  /-- The content of every file ever made, by its number. -/
  contents : List Bytes := []
  locks : List FileId := []
  deriving DecidableEq

namespace Disk

instance : Inhabited Disk := ⟨{}⟩

/-- The number of the folder that paths start from. -/
def root : FolderId := 0

/-- The folder of a number. -/
def folder (d : Disk) (id : FolderId) : Folder := d.folders.getD id {}

/-! ## Names in a folder -/

/-- What a name in a folder stands for. -/
def node? (d : Disk) (place : FolderId) (name : String) : Option Node :=
  ((d.folder place).entries.find? (·.1 = name)).map (·.2)

/-- Changes the names in a folder. -/
def edit (d : Disk) (place : FolderId) (change : List (String × Node) → List (String × Node)) : Disk :=
  { d with folders := d.folders.modify place fun f => { f with entries := change f.entries } }

/-- Puts a node at a name. -/
def setNode (d : Disk) (place : FolderId) (name : String) (node : Node) : Disk :=
  d.edit place fun entries => (name, node) :: entries.filter (·.1 ≠ name)

/-- Takes the node at a name away. -/
def dropNode (d : Disk) (place : FolderId) (name : String) : Disk :=
  d.edit place fun entries => entries.filter (·.1 ≠ name)

/-! ## Finding -/

/-- The name can be that of a node. -/
def checkName (name : String) : Except SystemFault Unit :=
  if Route.maxName < name.utf8ByteSize then .error .nameTooLong else .ok ()

/-- Follows names from a folder through directories. -/
def descend (d : Disk) (place : FolderId) : List String → Except SystemFault FolderId
  | [] => .ok place
  | name :: rest =>
    if name = "." then descend d place rest
    else if name = ".." then descend d (d.folder place).above rest
    else do
      checkName name
      match d.node? place name with
      | none => .error .notFound
      | some (.file _) => .error .notADirectory
      | some (.directory id) => descend d id rest

/-- Where names lead: a folder that exists, and the last name in it unless the names end in that folder itself. -/
def locate (d : Disk) (names : List String) : Except SystemFault (FolderId × Option String) :=
  match names.getLast? with
  | none => .ok (root, none)
  | some last =>
    if last = "." || last = ".." then do
      let place ← descend d root names
      return (place, none)
    else do
      let place ← descend d root names.dropLast
      checkName last
      return (place, some last)

/-- The node at a path. -/
def find (d : Disk) (path : String) : Except SystemFault Node := do
  let route ← Route.ofText path
  match ← d.locate route.names with
  | (place, none) => return .directory place
  | (place, some name) =>
    match d.node? place name with
    | none => .error .notFound
    | some (.directory id) => return .directory id
    | some (.file id) => if route.slash then .error .notADirectory else return .file id

def isFile (d : Disk) (path : String) : Bool :=
  match d.find path with
  | .ok (.file _) => true
  | _ => false

def isDirectory (d : Disk) (path : String) : Bool :=
  match d.find path with
  | .ok (.directory _) => true
  | _ => false

/-! ## Changing the tree -/

/-- Makes one directory; the one above must be there. -/
def makeDirectory (d : Disk) (names : List String) : Except SystemFault Disk := do
  match ← d.locate names with
  | (_, none) => .error .alreadyExists
  | (place, some name) =>
    match d.node? place name with
    | some _ => .error .alreadyExists
    | none =>
      let named := d.setNode place name (.directory d.folders.size)
      return { named with folders := named.folders.push { above := place } }

/-- Whether names lead to a directory. -/
def leadsToDirectory (d : Disk) (names : List String) : Bool :=
  match d.locate names with
  | .ok (_, none) => true
  | .ok (place, some name) =>
    match d.node? place name with
    | some (.directory _) => true
    | _ => false
  | .error _ => false

/-- Makes a directory and those above it that are missing. -/
def makeRoute (d : Disk) (names : List String) : Except SystemFault Unit × Disk :=
  if _h : names = [] then (.ok (), d)
  else match d.makeDirectory names with
    | .ok d => (.ok (), d)
    | .error .notFound =>
      match d.makeRoute (Route.parent names) with
      | (.error fault, d) => (.error fault, d)
      | (.ok (), d) =>
        match d.makeDirectory names with
        | .ok d => (.ok (), d)
        | .error fault => (if d.leadsToDirectory names then .ok () else .error fault, d)
    | .error fault => (if d.leadsToDirectory names then .ok () else .error fault, d)
termination_by names.length
decreasing_by exact Route.length_parent_lt _h

/-- Makes the directory at a path and those above it; nothing for the empty path. -/
def makeDirectories (d : Disk) (path : String) : Except SystemFault Unit × Disk :=
  if path = "" then (.ok (), d)
  else match Route.ofText path with
    | .error fault => (.error fault, d)
    | .ok route => d.makeRoute route.names

/-- Opens the file at a path; a missing one is made, empty. -/
def openFile (d : Disk) (path : String) : Except SystemFault FileId × Disk :=
  match Route.ofText path with
  | .error fault => (.error fault, d)
  | .ok route =>
    match d.locate route.names with
    | .error fault => (.error fault, d)
    | .ok (_, none) => (.error .isADirectory, d)
    | .ok (place, some name) =>
      if route.slash then (.error .isADirectory, d)
      else match d.node? place name with
        | some (.directory _) => (.error .isADirectory, d)
        | some (.file id) => (.ok id, d)
        | none =>
          let id := d.contents.length
          (.ok id, { d.setNode place name (.file id) with contents := d.contents ++ [[]] })

/-! ## Contents and locks -/

/-- The bytes of a file. -/
def content (d : Disk) (id : FileId) : Bytes := d.contents.getD id []

def setContent (d : Disk) (id : FileId) (bytes : Bytes) : Disk :=
  { d with contents := d.contents.set id bytes }

/-- Opens the file at a path and empties it; a missing one is made. -/
def createFile (d : Disk) (path : String) : Except SystemFault FileId × Disk :=
  match d.openFile path with
  | (.error fault, d) => (.error fault, d)
  | (.ok id, d) => (.ok id, d.setContent id [])

/-- Gives the file at one path the name at another; a file of that name loses it. -/
def rename (d : Disk) (source target : String) : Except SystemFault Unit × Disk :=
  let changed : Except SystemFault Disk := do
    let source ← Route.ofText source
    let target ← Route.ofText target
    let (fromPlace, fromName) ← d.locate source.names
    let (toPlace, toName) ← d.locate target.names
    match fromName, toName with
    | some fromName, some toName =>
      match d.node? fromPlace fromName, d.node? toPlace toName with
      | none, _ => .error .notFound
      | some (.directory _), _ => .error .isADirectory
      | some (.file _), some (.directory _) => .error .isADirectory
      | some (.file id), _ => return (d.dropNode fromPlace fromName).setNode toPlace toName (.file id)
    | _, _ => .error .isADirectory
  match changed with
  | .error fault => (.error fault, d)
  | .ok d => (.ok (), d)

def isLocked (d : Disk) (id : FileId) : Bool := d.locks.contains id

def lock (d : Disk) (id : FileId) : Disk := { d with locks := id :: d.locks }

def unlock (d : Disk) (id : FileId) : Disk := { d with locks := d.locks.filter (· ≠ id) }

/-! ## Whole accesses by path -/

/-- The bytes of the file at a path. -/
def read (d : Disk) (path : String) : Except SystemFault Bytes := do
  match ← d.find path with
  | .directory _ => .error .isADirectory
  | .file id => return d.content id

/-- Writes the file at a path, made or emptied first. -/
def write (d : Disk) (path : String) (bytes : Bytes) : Except SystemFault Unit × Disk :=
  match d.createFile path with
  | (.error fault, d) => (.error fault, d)
  | (.ok id, d) => (.ok (), d.setContent id bytes)

/-- Adds bytes to the file at a path; a missing one is made. -/
def append (d : Disk) (path : String) (bytes : Bytes) : Except SystemFault Unit × Disk :=
  match d.read path with
  | .ok old => d.write path (old ++ bytes)
  | .error _ => d.write path bytes

/-- Changes the bytes of an existing file. -/
def revise (d : Disk) (path : String) (change : Bytes → Bytes) : Except SystemFault Unit × Disk :=
  match d.read path with
  | .ok old => d.write path (change old)
  | .error fault => (.error fault, d)

/-- Keeps at most the first `length` bytes of a file. -/
def truncate (d : Disk) (path : String) (length : Nat) : Except SystemFault Unit × Disk :=
  d.revise path (·.take length)

/-- Flips the bits of `mask` in one byte of a file; nothing past its end. -/
def flip (d : Disk) (path : String) (offset : Nat) (mask : UInt8) : Except SystemFault Unit × Disk :=
  d.revise path (·.modify offset (· ^^^ mask))

/-- Removes a file, or a directory with all that is below it: no path leads there any more. -/
def remove (d : Disk) (path : String) : Except SystemFault Unit × Disk :=
  match d.find path, (Route.ofText path).bind (d.locate ·.names) with
  | .ok _, .ok (place, some name) => (.ok (), d.dropNode place name)
  | .error fault, _ => (.error fault, d)
  | _, _ => (.error .isADirectory, d)

/-- The names in a directory, those of directories with a slash behind them, in ascending order. -/
def list (d : Disk) (path : String) : Except SystemFault (List String) := do
  let route ← Route.ofText path
  let place ← match ← d.locate route.names with
    | (place, none) => pure place
    | (place, some name) =>
      match d.node? place name with
      | some (.directory id) => pure id
      | some (.file _) => .error .notADirectory
      | none => .error .notFound
  let shown : String × Node → String
    | (name, .directory _) => name ++ "/"
    | (name, .file _) => name
  return ((d.folder place).entries.map shown).mergeSort (fun a b => a ≤ b)

end Disk

end OrderedStore
