import OrderedStore.Store.Error

/-!
# Status codes

A caller that holds only numbers gets a status code for every call. An error behind a code has a text,
which the caller asks for apart.

* `Status`: the codes; `code`, `ofCode`, `name`;
* `CallError`: why a call failed: the store's error, or an argument that cannot be used.
-/

namespace OrderedStore

/-- The outcome of a call, as its caller sees it. -/
inductive Status where
  | ok
  /-- A failure without a code of its own. -/
  | error
  | invalidArgument
  | notFound
  | closed
  | openFailure
  | alreadyExists
  | locked
  | corruption
  | ioError
  | applyFailure
  | invalidCursorState
  | alreadyApplied
  | nullPointer
  deriving DecidableEq

namespace Status

/-- Every status, in the order of the codes. -/
def all : List Status :=
  [ok, error, invalidArgument, notFound, closed, openFailure, alreadyExists, locked, corruption, ioError,
    applyFailure, invalidCursorState, alreadyApplied, nullPointer]

def code : Status → Int
  | ok => 0
  | error => 1
  | invalidArgument => 2
  | notFound => 3
  | closed => 4
  | openFailure => 5
  | alreadyExists => 6
  | locked => 7
  | corruption => 8
  | ioError => 9
  | applyFailure => 10
  | invalidCursorState => 11
  | alreadyApplied => 12
  | nullPointer => 13

/-- The status of a code; an unknown code is a failure. -/
def ofCode (code : Int) : Status := (all.find? (·.code = code)).getD error

def name : Status → String
  | ok => "Ok"
  | error => "Error"
  | invalidArgument => "InvalidArgument"
  | notFound => "NotFound"
  | closed => "Closed"
  | openFailure => "OpenFailure"
  | alreadyExists => "AlreadyExists"
  | locked => "Locked"
  | corruption => "Corruption"
  | ioError => "IoError"
  | applyFailure => "ApplyFailure"
  | invalidCursorState => "InvalidCursorState"
  | alreadyApplied => "AlreadyApplied"
  | nullPointer => "NullPointer"

def isOk (s : Status) : Bool := s = ok

theorem ofCode_code (s : Status) : ofCode s.code = s := by cases s <;> rfl

/-- The status of a store's error. -/
def ofStoreError : StoreError → Status
  | .openFailure _ (.locked _) => locked
  | .openFailure _ (.corruption _) => corruption
  | .openFailure _ (.invalidArgument _) => invalidArgument
  | .openFailure _ _ => openFailure
  | .alreadyExists _ => alreadyExists
  | .ioFailure (.corruption _) => corruption
  | .ioFailure _ => ioError
  | .applyFailure _ => applyFailure
  | .closed _ => closed
  | .invalidCursorState _ _ => invalidCursorState
  | .alreadyApplied => alreadyApplied

end Status

/-- Why a call failed. -/
inductive CallError where
  | nullPointer (argument : String)
  | invalidUtf8 (argument : String)
  | store (error : StoreError)
  deriving DecidableEq

namespace CallError

def message : CallError → String
  | nullPointer argument => s!"null pointer argument: {argument}"
  | invalidUtf8 argument => s!"invalid UTF-8 in {argument}"
  | store error => error.message

def status : CallError → Status
  | nullPointer _ => .nullPointer
  | invalidUtf8 _ => .invalidArgument
  | store error => .ofStoreError error

end CallError

end OrderedStore
