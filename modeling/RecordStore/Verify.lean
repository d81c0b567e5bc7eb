import RecordStore.Layout

/-! # Checking the magic tags of all backing files -/

namespace RecordStore

structure Verification where
  filesChecked : Nat
  /-- The files that failed, in order of their indices, and why. -/
  failures : List (Nat × Error)

namespace Verification

def failure? (d : Disk) (path : String) (fileIndex : Nat) : Option (Nat × Error) :=
  match Layout.checkMagic d path fileIndex with
  | .ok () => none
  | .error e => some (fileIndex, e)

def ofDirectory (d : Disk) (path : String) (count : Nat) : Verification :=
  ⟨count, (List.range count).filterMap (failure? d path)⟩

def passed (v : Verification) : Bool := v.failures.isEmpty

def failureText (failure : Nat × Error) : String :=
  Layout.fileName failure.1 ++ ": " ++ failure.2.message

def errors (v : Verification) : List String := v.failures.map failureText

end Verification

end RecordStore
