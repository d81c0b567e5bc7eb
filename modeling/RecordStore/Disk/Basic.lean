import RecordStore.Disk.Content
import RecordStore.OsError

/-!
# The disk

Objects are known by number and are never destroyed: a file that has lost its name is still there
for those who have it open. Directories give names to objects.
-/

namespace RecordStore

abbrev FileId := Nat

/-- What a name in a directory stands for. -/
inductive Entry where
  | file (id : FileId)
  /-- A symbolic link; without a target it leads to a place where nothing is yet. -/
  | link (target : Option FileId)
  deriving DecidableEq, Repr

def Entry.target? : Entry → Option FileId
  | file id => some id
  | link target => target

inductive Object where
  | regular (content : Content)
  | directory (entries : List (String × Entry))
  /-- A device that gives zeros without end and has no room for anything. -/
  | endless
  /-- A pipe, which has no positions. -/
  | pipe
  deriving DecidableEq, Repr

structure Disk where
  objects : List Object
  deriving DecidableEq, Repr

namespace Disk

def root : FileId := 0

/-- A disk with one empty directory in its root. -/
def withDirectory (name : String) : Disk :=
  ⟨[.directory [(name, .file 1)], .directory []]⟩

def object? (d : Disk) (id : FileId) : Option Object := d.objects[id]?

def setObject (d : Disk) (id : FileId) (o : Object) : Disk := ⟨d.objects.set id o⟩

/-- Puts a new object onto the disk; its number is the number of objects so far. -/
def add (d : Disk) (o : Object) : Disk := ⟨d.objects ++ [o]⟩

def nextId (d : Disk) : FileId := d.objects.length

def follow (d : Disk) (entry : Entry) : Option Object := entry.target?.bind d.object?

def content? (d : Disk) (id : FileId) : Option Content :=
  match d.object? id with
  | some (.regular c) => some c
  | _ => none

/-- The size that the operating system reports; only regular files have one. -/
def size (d : Disk) (id : FileId) : Nat := (d.content? id).elim 0 Content.size

def isDirectory (d : Disk) (id : FileId) : Bool :=
  match d.object? id with
  | some (.directory _) => true
  | _ => false

/-! ## Directories -/

def entries (d : Disk) (dir : FileId) : List (String × Entry) :=
  match d.object? dir with
  | some (.directory es) => es
  | _ => []

def lookup (d : Disk) (dir : FileId) (name : String) : Option Entry :=
  (d.entries dir).lookup name

def link (d : Disk) (dir : FileId) (name : String) (entry : Entry) : Disk :=
  d.setObject dir (.directory (d.entries dir ++ [(name, entry)]))

def unlink (d : Disk) (dir : FileId) (name : String) : Disk :=
  d.setObject dir (.directory ((d.entries dir).filter fun e => e.1 != name))

def createIn (d : Disk) (dir : FileId) (name : String) (o : Object) : Disk :=
  (d.add o).link dir name (.file d.nextId)

/-- A new object in the place where a dead link leads. -/
def createBehind (d : Disk) (dir : FileId) (name : String) (o : Object) : Disk :=
  ((d.add o).unlink dir name).link dir name (.link (some d.nextId))

/-! ## Writing -/

/-- A write that the operating system breaks off after some bytes. -/
structure Fault where
  written : Nat
  error : OsError
  deriving DecidableEq, Repr

/-- Writes at a position. A fault leaves only the first bytes of what was to be written. -/
def write (d : Disk) (id : FileId) (offset : Nat) (bs : Bytes) (fault : Option Fault) :
    Except OsError Unit × Disk :=
  match d.object? id with
  | some (.regular c) =>
    match fault with
    | none => (.ok (), d.setObject id (.regular (c.write offset bs)))
    | some f => (.error f.error, d.setObject id (.regular (c.write offset (bs.take f.written))))
  | some .endless => (.error .storageFull, d)
  | some .pipe => (.error .notSeekable, d)
  | some (.directory _) => (.error .isADirectory, d)
  | none => (.error .notFound, d)

/-- Forces written data to the device; only regular files allow it. -/
def sync (d : Disk) (id : FileId) (fault : Option OsError) : Except OsError Unit :=
  match d.object? id with
  | some (.regular _) => fault.elim (.ok ()) .error
  | _ => .error .invalidInput

end Disk

end RecordStore
