import RecordStore.Disk.Basic

/-! # Paths: their text, and what they lead to -/

namespace RecordStore

namespace Path

/-- `name` inside the directory `dir`; an empty directory is the place where paths start. -/
def join (dir name : String) : String :=
  if dir.isEmpty || dir.endsWith "/" then dir ++ name else dir ++ "/" ++ name

def maxNameSize : Nat := 255

def maxSize : Nat := 4095

/-- Refuses a text that cannot be a path, whatever the disk holds. -/
def check (path : String) : Except OsError Unit :=
  if '\x00' ∈ path.toList then .error .nulInPath
  else if maxSize < path.utf8ByteSize then .error .nameTooLong
  else .ok ()

/-- The parts between slashes; empty ones and `.` stay where they are. -/
def components (path : String) : List String := (path.toList.splitOn '/').map String.ofList

def isStay (component : String) : Bool := component == "" || component == "."

/-- The path itself, then the directories above it, nearest first. -/
def withAncestors (path : List String) : List (List String) :=
  let plain := path.filter fun component => !isStay component
  path :: ((List.range plain.length).reverse.map fun n => plain.take n).filter (· ≠ [])

end Path

namespace Disk

/-! ## Following paths -/

/-- What a directory has under a name. A name that is too long cannot even be looked for. -/
def find (d : Disk) (dir : FileId) (name : String) : Except OsError (Option Entry) :=
  if Path.maxNameSize < name.utf8ByteSize then .error .nameTooLong else .ok (d.lookup dir name)

/-- One step from the directory on top of `stack`, which holds those passed on the way. -/
def descend (d : Disk) (stack : List FileId) (component : String) :
    Except OsError (List FileId) :=
  match stack with
  | [] => .error .notFound
  | dir :: above =>
    if !d.isDirectory dir then .error .notADirectory
    else if Path.isStay component then .ok stack
    else if component = ".." then .ok (if above.isEmpty then stack else above)
    else do
      match (← d.find dir component).bind Entry.target? with
      | some id => .ok (id :: stack)
      | none => .error .notFound

def resolve (d : Disk) (path : List String) : Except OsError FileId := do
  match ← path.foldlM d.descend [root] with
  | id :: _ => .ok id
  | [] => .error .notFound

def directoryAt (d : Disk) (path : List String) : Except OsError FileId := do
  let id ← d.resolve path
  if d.isDirectory id then .ok id else .error .notADirectory

def hasDirectory (d : Disk) (path : List String) : Bool := (d.directoryAt path).isOk

/-- Where the names inside `path` are looked for; the empty path is where all paths start. -/
def directory (d : Disk) (path : String) : Except OsError FileId := do
  Path.check path
  d.directoryAt (Path.components path)

/-- The directory that a path itself names. The empty path names none, although names inside it can
be followed. -/
def directoryNamed (d : Disk) (path : String) : Except OsError FileId :=
  if path = "" then .error .notFound else d.directory path

def locate (d : Disk) (path name : String) : Except OsError (FileId × Option Entry) := do
  Path.check (Path.join path name)
  let dir ← d.directoryAt (Path.components path)
  return (dir, ← d.find dir name)

def target (d : Disk) (path name : String) : Except OsError FileId := do
  match (← d.locate path name).2.bind Entry.target? with
  | some id => .ok id
  | none => .error .notFound

/-- Whether a name leads to anything; a link to nothing does not count. -/
def holds (d : Disk) (path name : String) : Bool := (d.target path name).isOk

def isRegularAt (d : Disk) (path name : String) : Bool :=
  match d.target path name with
  | .ok id => (d.content? id).isSome
  | .error _ => false

/-! ## Making directories -/

def makeDirectory (d : Disk) (path : List String) : Except OsError Disk := do
  let plain := (path.reverse.dropWhile (· == "")).reverse
  match plain.getLast? with
  | none => .error .notFound
  | some name =>
    let dir ← d.directoryAt plain.dropLast
    if name = "." ∨ name = ".." then .error .alreadyExists
    else
      match ← d.find dir name with
      | some _ => .error .alreadyExists
      | none => .ok (d.createIn dir name (.directory []))

/-- Makes the first path of the list, and those above it when they are missing. -/
def makeTree (d : Disk) : List (List String) → Except OsError Unit × Disk
  | [] => (.ok (), d)
  | path :: above =>
    match d.makeDirectory path with
    | .ok made => (.ok (), made)
    | .error .notFound =>
      match d.makeTree above with
      | (.error e, tree) => (.error e, tree)
      | (.ok (), tree) =>
        match tree.makeDirectory path with
        | .ok made => (.ok (), made)
        | .error e => (if tree.hasDirectory path then .ok () else .error e, tree)
    | .error e => (if d.hasDirectory path then .ok () else .error e, d)

def makeDirectories (d : Disk) (path : String) : Except OsError Unit × Disk :=
  match Path.check path with
  | .error e => (.error e, d)
  | .ok () => d.makeTree (Path.withAncestors (Path.components path))

/-! ## Opening files -/

/-- Opens a file for reading; directories can be opened but not read. -/
def openRead (d : Disk) (path name : String) : Except OsError FileId := d.target path name

def openWrite (d : Disk) (path name : String) : Except OsError FileId := do
  let id ← d.target path name
  if d.isDirectory id then .error .isADirectory else .ok id

/-- Opens a file for writing, making an empty one where there is none. -/
def openOrCreate (d : Disk) (path name : String) : Except OsError FileId × Disk :=
  match d.locate path name with
  | .error e => (.error e, d)
  | .ok (dir, none) => (.ok d.nextId, d.createIn dir name (.regular {}))
  | .ok (dir, some (.link none)) => (.ok d.nextId, d.createBehind dir name (.regular {}))
  | .ok (_, some _) => (d.openWrite path name, d)

/-- Creates a file with the given bytes under a name that nothing has, not even a dead link. -/
def createNew (d : Disk) (path name : String) (bs : Bytes) : Except OsError Disk :=
  match d.locate path name with
  | .error e => .error e
  | .ok (dir, none) => .ok (d.createIn dir name (.regular (.ofBytes bs)))
  | .ok (_, some _) => .error .alreadyExists

end Disk

end RecordStore
