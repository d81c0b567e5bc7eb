import RecordStore.Disk.Path

/-! # Changes that others make to files and directories -/

namespace RecordStore.Disk

/-- Changes the bytes of a file that is there. What is not a regular file stays as it is, and gives
the answer `otherwise`. -/
def editContent (d : Disk) (path name : String) (edit : Content → Content)
    (otherwise : Except OsError Unit) : Except OsError Disk := do
  let id ← d.openWrite path name
  match d.content? id with
  | some c => .ok (d.setObject id (.regular (edit c)))
  | none => otherwise.map fun _ => d

/-- What a device without room says to some bytes. -/
def noRoom (bs : Bytes) : Except OsError Unit := if bs.isEmpty then .ok () else .error .storageFull

/-- Changes the bytes of a file, making an empty one first if there is none. -/
def editOrCreate (d : Disk) (path name : String) (edit : Content → Content)
    (otherwise : Except OsError Unit) : Except OsError Disk :=
  match d.openOrCreate path name with
  | (.error e, _) => .error e
  | (.ok _, d) => d.editContent path name edit otherwise

def append (d : Disk) (path name : String) (bs : Bytes) : Except OsError Disk :=
  d.editOrCreate path name (fun c => c.write c.size bs) (noRoom bs)

def replace (d : Disk) (path name : String) (bs : Bytes) : Except OsError Disk :=
  d.editOrCreate path name (fun _ => .ofBytes bs) (noRoom bs)

def overwrite (d : Disk) (path name : String) (offset : Nat) (bs : Bytes) : Except OsError Disk :=
  d.editContent path name (·.write offset bs) (noRoom bs)

def truncate (d : Disk) (path name : String) (size : Nat) : Except OsError Disk :=
  d.editContent path name (·.resize size) (.error .invalidInput)

def remove (d : Disk) (path name : String) : Except OsError Disk := do
  match ← d.locate path name with
  | (_, none) => .error .notFound
  | (dir, some (.file id)) =>
    if d.isDirectory id then .error .isADirectory else .ok (d.unlink dir name)
  | (dir, some (.link _)) => .ok (d.unlink dir name)

/-! ## Things that are not regular files -/

inductive Special where
  | directory
  /-- A link to a place where nothing is. -/
  | deadLink
  /-- A link to an endless device. -/
  | endless
  | pipe
  deriving DecidableEq, Repr

/-- The one endless device; all links to it lead to the same object. -/
def endlessDevice (d : Disk) : FileId × Disk :=
  match d.objects.findIdx? (· matches .endless) with
  | some id => (id, d)
  | none => (d.nextId, d.add .endless)

def makeSpecial (d : Disk) (path name : String) (special : Special) : Except OsError Disk := do
  match ← d.locate path name with
  | (_, some _) => .error .alreadyExists
  | (dir, none) =>
    match special with
    | .directory => .ok (d.createIn dir name (.directory []))
    | .deadLink => .ok (d.link dir name (.link none))
    | .endless =>
      let (id, d) := d.endlessDevice
      .ok (d.link dir name (.link (some id)))
    | .pipe => .ok (d.createIn dir name .pipe)

/-! ## Looking -/

def bytesAt (d : Disk) (path name : String) (offset count : Nat) : Except OsError Bytes := do
  match d.object? (← d.openRead path name) with
  | some (.regular c) => .ok (c.slice offset count)
  | some (.directory _) => .error .isADirectory
  | some .endless => .ok (List.replicate count 0)
  | _ => .ok []

inductive Listing where
  | size (n : Nat)
  | directory
  | other
  deriving DecidableEq, Repr

def listing (d : Disk) (entry : Entry) : Listing :=
  match d.follow entry with
  | some (.regular c) => .size c.size
  | some (.directory _) => .directory
  | _ => .other

def list (d : Disk) (path : String) : Except OsError (List (String × Listing)) := do
  let dir ← d.directoryNamed path
  let sorted := (d.entries dir).mergeSort fun a b => a.1 ≤ b.1
  return sorted.map fun (name, entry) => (name, d.listing entry)

end RecordStore.Disk
