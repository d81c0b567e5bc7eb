import RecordStore.Address
import RecordStore.Config
import RecordStore.OsError
import RecordStore.Record
import RecordStore.Text.Quoted

/-! # Errors of the store: their causes, and the two texts of each -/

namespace RecordStore

/-! ## Causes -/

/-- What lies behind a failed file operation. -/
inductive IoCause where
  /-- The operating system said so just now. -/
  | os (error : OsError)
  /-- A failure that was recorded earlier and is reported again. -/
  | recorded (error : OsError)
  | other (message : String)
  deriving DecidableEq, Repr

def IoCause.message : IoCause → String
  | .os e => e.message
  | .recorded e => e.message
  | .other text => text

/-- Why an argument was refused. -/
inductive Refusal where
  | address (fault : Address.Fault)
  | recordTooLong (fault : Record.TooLong)
  | config (fault : Config.Fault)
  | fileOutOfRange (fileIndex count : Nat)
  | unknownFile (address : Address) (count : Nat)
  | insideHeader (address : Address)
  | notAtCursor (expected cursor : Address)
  | other (message : String)
  deriving DecidableEq, Repr

def Refusal.message : Refusal → String
  | .address fault => fault.message
  | .recordTooLong fault => fault.message
  | .config fault => fault.message
  | .fileOutOfRange i n => s!"file index {i} out of range 0..{n}"
  | .unknownFile a n => s!"address {a.text} names file {a.fileIndex}, pool has {n}"
  | .insideHeader a => s!"address {a.text} points into the file header"
  | .notAtCursor a b => s!"write at {a.text} but segment cursor is at {b.text}"
  | .other text => text

/-- What is wrong with the bytes of a backing file. -/
inductive Damage where
  | badMagic
  | shortMagic
  | noHeader (read : Nat)
  | truncated (length : Nat)
  | other (message : String)
  deriving DecidableEq, Repr

def Damage.message : Damage → String
  | .badMagic => "bad magic tag"
  | .shortMagic => "file shorter than magic tag"
  | .noHeader n => s!"short read of {n} bytes, no record header"
  | .truncated n => s!"record of {n} bytes extends past end of file"
  | .other text => text

inductive Error where
  | alreadyExists (path : String)
  | notCreated (path : String)
  | databaseLocked (path : String)
  | invalidArgument (refusal : Refusal)
  | io (fileIndex offset : Nat) (cause : IoCause)
  | fileIo (path : String) (cause : IoCause)
  | corruption (fileIndex offset : Nat) (damage : Damage)
  | segmentClosed (fileIndex : Nat)
  | lockTimeout
  | flushTimeout (fileIndex : Nat)
  | poolClosed
  | unsupported (operation : String)
  deriving DecidableEq, Repr

namespace Error

def isAlreadyExists : Error → Bool
  | .alreadyExists _ => true
  | _ => false

def kind : Error → String
  | .alreadyExists _ => "AlreadyExists"
  | .notCreated _ => "NotCreated"
  | .databaseLocked _ => "DatabaseLocked"
  | .invalidArgument _ => "InvalidArgument"
  | .io .. => "Io"
  | .fileIo .. => "FileIo"
  | .corruption .. => "Corruption"
  | .segmentClosed _ => "SegmentClosed"
  | .lockTimeout => "LockTimeout"
  | .flushTimeout _ => "FlushTimeout"
  | .poolClosed => "PoolClosed"
  | .unsupported _ => "Unsupported"

/-- The failure underneath, where there is one. -/
def cause? : Error → Option IoCause
  | .io _ _ cause => some cause
  | .fileIo _ cause => some cause
  | _ => none

/-! ## The message -/

def fileText (fileIndex : Nat) : String := Hex.prefixed 2 fileIndex

def message : Error → String
  | .alreadyExists path => "database already exists: " ++ path
  | .notCreated path => "database does not exist: " ++ path ++ " is missing"
  | .databaseLocked path => "database locked: " ++ path ++ " is held by another process"
  | .invalidArgument refusal => "invalid argument: " ++ refusal.message
  | .io i offset cause => s!"I/O error in file {fileText i} at offset {offset}: {cause.message}"
  | .fileIo path cause => "I/O error on " ++ path ++ ": " ++ cause.message
  | .corruption i offset damage =>
    s!"corruption in file {fileText i} at offset {offset}: {damage.message}"
  | .segmentClosed i => s!"segment on file {fileText i} is already flushed"
  | .lockTimeout => "timed out waiting for a segment lease"
  | .flushTimeout i => s!"timed out flushing segment on file {fileText i}"
  | .poolClosed => "file pool is closed"
  | .unsupported operation => "operation not supported by the file blockstore: " ++ operation

/-! ## The debug text: the kind with its named fields -/

def fields (name : String) (parts : List (String × String)) : String :=
  let parts := parts.map fun (key, value) => key ++ ": " ++ value
  name ++ " \x7b " ++ String.intercalate ", " parts ++ " \x7d"

def causeDebug : IoCause → String
  | .os e =>
    let parts := [("kind", e.kind), ("message", Quoted.quote e.description)]
    match e.code? with
    | some code => fields "Os" (("code", toString code) :: parts)
    | none => fields "Error" parts
  | .recorded e => fields "Custom" [("kind", e.kind), ("error", Quoted.quote e.message)]
  | .other text => fields "Custom" [("kind", "Other"), ("error", Quoted.quote text)]

def debugText (e : Error) : String :=
  match e with
  | .alreadyExists path | .notCreated path | .databaseLocked path =>
    fields e.kind [("path", Quoted.quote path)]
  | .invalidArgument refusal => fields e.kind [("message", Quoted.quote refusal.message)]
  | .io i offset cause => fields e.kind
      [("file_index", toString i), ("offset", toString offset), ("source", causeDebug cause)]
  | .fileIo path cause => fields e.kind
      [("path", Quoted.quote path), ("source", causeDebug cause)]
  | .corruption i offset damage => fields e.kind
      [("file_index", toString i), ("offset", toString offset),
        ("message", Quoted.quote damage.message)]
  | .segmentClosed i | .flushTimeout i => fields e.kind [("file_index", toString i)]
  | .lockTimeout | .poolClosed => e.kind
  | .unsupported operation => fields e.kind [("operation", Quoted.quote operation)]

end Error

end RecordStore
