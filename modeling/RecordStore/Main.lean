import RecordStore.Command.Run

/-!
# The program

The storage directory is copied onto a disk of the library, the command runs there, and what the
command has added goes back into the directory. Files only grow, so that is the end of each file.
-/

namespace RecordStore.Command

/-! ## Into the library -/

/-- What stands at a path of the machine, or `none` if nothing does. -/
def load? (path : String) : IO (Option Object) := do
  try
    let bytes ← IO.FS.readBinFile path
    return some (.regular (.ofBytes bytes.toList))
  catch
    | .noFileOrDirectory .. => return none
    | .inappropriateType .. => return some (.directory [])
    | .invalidArgument .. => return none
    | e => throw e

/-- Copies what stands at a path of the machine, if the directory above is on the disk already. -/
def copyIn (absolute : Bool) (d : Disk) (path : List String) : IO Disk := do
  let plain := path.filter fun component => !Path.isStay component
  match plain.getLast?, d.directoryAt plain.dropLast with
  | some name, .ok dir =>
    if name = ".." ∨ (d.lookup dir name).isSome then return d
    let text := String.intercalate "/" plain
    match ← load? (if absolute then "/" ++ text else text) with
    | some o => return d.createIn dir name o
    | none => return d
  | _, _ => return d

/-- The names that matter in a storage directory. -/
def storageNames (config : Config) : List String :=
  let count := min config.fileCount.toNat Config.maxFileCount
  Layout.lockName :: (List.range count).map Layout.fileName

def copyDirectoryIn (path : String) (config : Config) : IO Disk := do
  let directory := Path.components path
  let paths := (Path.withAncestors directory).reverse ++
    (storageNames config).map fun name => directory ++ [name]
  paths.foldlM (copyIn (path.startsWith "/")) ⟨[.directory []]⟩

/-- Tries to lock the lock file of the machine, if there is one. The answer says whether somebody
else has it. -/
def lockDirectory (d : Disk) (path : String) : IO (Option IO.FS.Handle × Bool) := do
  if !d.isRegularAt path Layout.lockName then return (none, false)
  let handle ← IO.FS.Handle.mk (Path.join path Layout.lockName) .readWrite
  return (some handle, !(← handle.tryLock true))

/-! ## Back to the machine -/

/-- Adds to the directory what `after` has and `before` does not have. -/
def copyDirectoryOut (before after : Disk) (path : String) (config : Config) : IO Unit := do
  let directory := Path.components path
  if after.hasDirectory directory && !before.hasDirectory directory then IO.FS.createDirAll path
  for name in storageNames config do
    if let .ok id := after.target path name then
      if let some content := after.content? id then
        let old := before.size id
        if old < content.size || (before.object? id).isNone then
          let new := content.slice old (content.size - old)
          IO.FS.withFile (Path.join path name) .append (·.write ⟨new.toArray⟩)

/-! ## Running -/

def Action.opensPool : Action → Bool
  | .inspect _ | .put .. | .get .. => true
  | .makedb | .verify | .version => false

/-- Runs a command line on a storage directory of the machine. -/
def runIn (path : String) (config : Config) (locks : Bool) (args : List String) : IO Outcome := do
  let before ← copyDirectoryIn path config
  let (handle, taken) ← if locks then lockDirectory before path else pure (none, false)
  let held := if taken then (before.target path Layout.lockName).toOption.toList else []
  let (outcome, s) := run { Store.ofDisk before with locks := held } args
  copyDirectoryOut before s.disk path config
  if !taken then handle.forM (·.unlock)
  return outcome

def report (outcome : Outcome) : IO UInt32 := do
  outcome.logs.forM IO.println
  IO.print outcome.out
  IO.eprint outcome.err
  return UInt32.ofNat outcome.exit

end RecordStore.Command

open RecordStore

def main (args : List String) : IO UInt32 := do
  try
    match Command.readArguments args with
    | .ok { path := some path, files, action, .. } =>
      Command.report (← Command.runIn path { fileCount := files } action.opensPool args)
    | _ => Command.report (Command.run (.ofDisk ⟨[.directory []]⟩) args).1
  catch e =>
    IO.eprintln s!"Error: {e}"
    return 1
