import RecordStore.Disk.Handle
import RecordStore.Disk.Path
import RecordStore.Error

/-!
# The storage directory

One directory holds the backing files `blockstore.00.db`, `blockstore.01.db`, … and the lock file.
Each backing file starts with the magic tag, so no record ever has offset 0.
-/

namespace RecordStore.Layout

def magic : Bytes := [0x51, 0x55, 0x41, 0x53, 0x41, 0x52, 0x44, 0x42]

/-- Records start after the tag. -/
def dataStart : Nat := 8

def lockName : String := "LOCK"

def fileName (fileIndex : Nat) : String :=
  "blockstore." ++ String.ofList (Hex.padded 2 fileIndex) ++ ".db"

def filePath (path : String) (fileIndex : Nat) : String := Path.join path (fileName fileIndex)

/-! ## Creating -/

/-- The first backing file below `count` that the directory holds already. -/
def firstExisting? (d : Disk) (path : String) (count : Nat) : Option Nat :=
  (List.range count).find? fun i => d.holds path (fileName i)

/-- Creates backing files in turn, and stops at the first that cannot be created. -/
def createFiles (d : Disk) (path : String) : List Nat → Except Error Unit × Disk
  | [] => (.ok (), d)
  | i :: rest =>
    match d.createNew path (fileName i) magic with
    | .ok d => createFiles d path rest
    | .error .alreadyExists => (.error (.alreadyExists (filePath path i)), d)
    | .error e => (.error (.fileIo (filePath path i) (.os e)), d)

def create (d : Disk) (path : String) (config : Config) : Except Error Unit × Disk :=
  match config.fault? with
  | some fault => (.error (.invalidArgument (.config fault)), d)
  | none =>
    match d.makeDirectories path with
    | (.error e, d) => (.error (.fileIo path (.os e)), d)
    | (.ok (), d) =>
      match firstExisting? d path config.fileCount.toNat with
      | some i => (.error (.alreadyExists (filePath path i)), d)
      | none => createFiles d path (List.range config.fileCount.toNat)

/-! ## Checking -/

def checkMagic (d : Disk) (path : String) (fileIndex : Nat) : Except Error Unit :=
  match d.openRead path (fileName fileIndex) with
  | .error .notFound => .error (.notCreated (filePath path fileIndex))
  | .error e => .error (.fileIo (filePath path fileIndex) (.os e))
  | .ok id =>
    let head := (Handle.fill d ⟨id, 0⟩ (List.replicate magic.length 0) 0).1
    match head.outcome with
    | .error e => .error (.fileIo (filePath path fileIndex) (.os e))
    | .ok n =>
      if n < magic.length then .error (.corruption fileIndex 0 .shortMagic)
      else if head.buffer = magic then .ok ()
      else .error (.corruption fileIndex 0 .badMagic)

/-! ## Opening -/

def openFile (d : Disk) (path : String) (fileIndex : Nat) : Except Error FileId :=
  match d.openWrite path (fileName fileIndex) with
  | .ok id => .ok id
  | .error .notFound => .error (.notCreated (filePath path fileIndex))
  | .error e => .error (.fileIo (filePath path fileIndex) (.os e))

/-- Takes the lock of a directory unless it is among those held. -/
def acquireLock (d : Disk) (locks : List FileId) (path : String) :
    Except Error FileId × Disk × List FileId :=
  match d.openOrCreate path lockName with
  | (.error e, d) => (.error (.fileIo (Path.join path lockName) (.os e)), d, locks)
  | (.ok id, d) =>
    if locks.contains id then (.error (.databaseLocked (Path.join path lockName)), d, locks)
    else (.ok id, d, id :: locks)

theorem acquireLock_ok {d d' : Disk} {locks locks' : List FileId} {path : String} {id : FileId}
    (h : acquireLock d locks path = (.ok id, d', locks')) :
    d.openOrCreate path lockName = (.ok id, d') ∧ id ∉ locks ∧ locks' = id :: locks := by
  unfold acquireLock at h
  grind

theorem acquireLock_error {d d' : Disk} {locks locks' : List FileId} {path : String} {e : Error}
    (h : acquireLock d locks path = (.error e, d', locks')) :
    d' = (d.openOrCreate path lockName).2 ∧ locks' = locks := by
  unfold acquireLock at h
  grind

end RecordStore.Layout
