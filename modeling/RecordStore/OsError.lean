/-! # Failures of the operating system -/

namespace RecordStore

/-- The failures that file operations meet. -/
inductive OsError where
  | notFound
  | ioFailure
  | alreadyExists
  | notADirectory
  | isADirectory
  | invalidInput
  | storageFull
  | notSeekable
  | nameTooLong
  /-- The text of a path holds a character that ends it; the system is not asked at all. -/
  | nulInPath
  deriving DecidableEq, Repr, Inhabited

namespace OsError

/-- The number by which the system knows a failure. -/
def code? : OsError → Option Nat
  | .notFound => some 2
  | .ioFailure => some 5
  | .alreadyExists => some 17
  | .notADirectory => some 20
  | .isADirectory => some 21
  | .invalidInput => some 22
  | .storageFull => some 28
  | .notSeekable => some 29
  | .nameTooLong => some 36
  | .nulInPath => none

def kind : OsError → String
  | .notFound => "NotFound"
  | .ioFailure => "Uncategorized"
  | .alreadyExists => "AlreadyExists"
  | .notADirectory => "NotADirectory"
  | .isADirectory => "IsADirectory"
  | .invalidInput => "InvalidInput"
  | .storageFull => "StorageFull"
  | .notSeekable => "NotSeekable"
  | .nameTooLong => "InvalidFilename"
  | .nulInPath => "InvalidInput"

def description : OsError → String
  | .notFound => "No such file or directory"
  | .ioFailure => "Input/output error"
  | .alreadyExists => "File exists"
  | .notADirectory => "Not a directory"
  | .isADirectory => "Is a directory"
  | .invalidInput => "Invalid argument"
  | .storageFull => "No space left on device"
  | .notSeekable => "Illegal seek"
  | .nameTooLong => "File name too long"
  | .nulInPath => "file name contained an unexpected NUL byte"

def message (e : OsError) : String :=
  match e.code? with
  | some code => s!"{e.description} (os error {code})"
  | none => e.description

end OsError

end RecordStore
