import OrderedStore.Text.Hex
import OrderedStore.Text.Quoted

/-!
# Engine errors

What can go wrong below the store. Every error is a cause, and `message` gives its text. Causes
that carry a text of their own (`reported`, `other`) come from outside: a device, or a caller that
injects a failure.

* `PayloadFault`, `FrameFault`, `Damage`: what is wrong with a log, and where;
* `SystemFault`, `IoFault`: a refused or failed access to a file;
* `BadArgument`: a value that is out of range;
* `EngineError`: any of these, and the ways in which a store cannot be opened.
-/

namespace OrderedStore

/-- Why a record's payload does not decode. -/
inductive PayloadFault where
  /-- A field runs past the end. -/
  | unexpectedEnd
  /-- An operation of a batch is neither a put nor a delete. -/
  | unknownTag (tag : UInt8)
  /-- Bytes are left after the last field. -/
  | trailing (used total : Nat)
  deriving DecidableEq

namespace PayloadFault

def detail : PayloadFault → String
  | unexpectedEnd => "unexpected end of record payload"
  | unknownTag tag => s!"unknown batch operation tag {tag.toNat}"
  | trailing used total => s!"trailing bytes in record payload: used {used} of {total}"

end PayloadFault

/-- Why the bytes at some offset are not a record's frame. -/
inductive FrameFault where
  /-- Too short for a header. -/
  | tornHeader
  | badMagic
  | unsupportedVersion (version : Nat)
  | unknownType (tag : UInt8)
  /-- Shorter than the header announces. -/
  | tornBody
  | checksumMismatch (stored actual : UInt32)
  | payload (fault : PayloadFault)
  deriving DecidableEq

namespace FrameFault

def reason : FrameFault → String
  | tornHeader => "torn record header"
  | badMagic => "bad record magic"
  | unsupportedVersion version => s!"unsupported record version {version}"
  | unknownType tag => s!"unknown record type {tag.toNat}"
  | tornBody => "torn record body"
  | checksumMismatch stored actual =>
      s!"checksum mismatch: expected {Text.hexWord stored}, got {Text.hexWord actual}"
  | payload fault => s!"store corrupted: {fault.detail}"

end FrameFault

/-- The first place in a log that is not a record. -/
structure Damage where
  fault : FrameFault
  offset : Nat
  deriving DecidableEq

/-- The text of a damage: what is wrong, and where. -/
def Damage.describe (d : Damage) : String := s!"{d.fault.reason} at offset {d.offset}"

/-- Why stored data is not what it should be. -/
inductive Corruption where
  | payload (fault : PayloadFault)
  | log (damage : Damage)
  /-- A directory's format tag is not the one known here. -/
  | format (tag file : String)
  | other (text : String)
  deriving DecidableEq

def Corruption.detail : Corruption → String
  | payload fault => fault.detail
  | log damage => damage.describe
  | format tag file => s!"unrecognized store format {Text.quoted tag} in {file}"
  | other text => text

/-- Why the system refuses an access to a file. -/
inductive SystemFault where
  | notFound
  | alreadyExists
  | notADirectory
  | isADirectory
  | nameTooLong
  | nulInName
  | notUtf8
  deriving DecidableEq

def SystemFault.describe : SystemFault → String
  | notFound => "no such file or directory"
  | alreadyExists => "file exists"
  | notADirectory => "not a directory"
  | isADirectory => "is a directory"
  | nameTooLong => "file name too long"
  | nulInName => "file name contains a zero byte"
  | notUtf8 => "text is not valid UTF-8"

/-- A failed input or output: the system's refusal, or a failure with a text of its own. -/
inductive IoFault where
  | system (fault : SystemFault)
  | reported (text : String)
  deriving DecidableEq

def IoFault.describe : IoFault → String
  | system fault => fault.describe
  | reported text => text

/-- A value that is out of range. -/
inductive BadArgument where
  | bloomBits (bits : Nat)
  | notADirectory (path : String)
  | truncateBeyond (length size : Nat)
  /-- A key or value does not fit a four-byte length. -/
  | fieldTooLong
  /-- A payload does not fit a four-byte length. -/
  | payloadTooLong
  /-- The operations of a batch do not fit a four-byte count. -/
  | tooManyOperations
  | other (text : String)
  deriving DecidableEq

/-- The largest number of filter bits per key: it is kept in one byte. -/
def maxBloomBitsPerKey : Nat := 255

def BadArgument.detail : BadArgument → String
  | bloomBits bits => s!"bloom_filter_bits_per_key {bits} exceeds {maxBloomBitsPerKey}"
  | notADirectory path => s!"path is not a directory: {path}"
  | truncateBeyond length size => s!"cannot truncate log to {length} bytes, it holds {size}"
  | fieldTooLong => "key or value exceeds 4 GiB"
  | payloadTooLong => "log record payload too large"
  | tooManyOperations => "too many batch operations"
  | other text => text

/-- Errors of an engine connection. -/
inductive EngineError where
  | io (fault : IoFault)
  /-- No store is at the path, and none may be created. -/
  | notFound (path : String)
  /-- A store is at the path, and there should be none. -/
  | alreadyExists (path : String)
  /-- Another connection holds the store. -/
  | locked (path : String)
  | corruption (cause : Corruption)
  /-- The connection has been closed. -/
  | closed
  | invalidArgument (cause : BadArgument)
  deriving DecidableEq

namespace EngineError

/-- The text of an error. -/
def message : EngineError → String
  | io fault => s!"I/O error: {fault.describe}"
  | notFound path => s!"store does not exist: {path}"
  | alreadyExists path => s!"store already exists: {path}"
  | locked path => s!"store is locked by another connection: {path}"
  | corruption cause => s!"store corrupted: {cause.detail}"
  | closed => "connection is closed"
  | invalidArgument cause => s!"invalid argument: {cause.detail}"

/-- The word for the kind of an error. -/
def kind : EngineError → String
  | io _ => "Io"
  | notFound _ => "NotFound"
  | alreadyExists _ => "AlreadyExists"
  | locked _ => "Locked"
  | corruption _ => "Corruption"
  | closed => "Closed"
  | invalidArgument _ => "InvalidArgument"

/-- The error as a diagnostic shows it: its kind and what it carries. -/
def diagnostic : EngineError → String
  | io fault => s!"Io({fault.describe})"
  | notFound path => s!"NotFound \x7b path: {Text.quoted path} \x7d"
  | alreadyExists path => s!"AlreadyExists \x7b path: {Text.quoted path} \x7d"
  | locked path => s!"Locked \x7b path: {Text.quoted path} \x7d"
  | corruption cause => s!"Corruption({Text.quoted cause.detail})"
  | closed => "Closed"
  | invalidArgument cause => s!"InvalidArgument({Text.quoted cause.detail})"

/-- A refusal of the system, as an engine error. -/
def ofSystem (fault : SystemFault) : EngineError := io (.system fault)

end EngineError

end OrderedStore
