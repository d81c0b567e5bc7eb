import RecordStore.Command.Arguments
import RecordStore.Report
import RecordStore.Store.Call
import RecordStore.Text.Utf8
import RecordStore.Verify

/-!
# Running commands

A command runs on the store as a process of its own: it opens what it needs and leaves nothing open.
-/

namespace RecordStore.Command

structure Outcome where
  exit : Nat := 0
  out : String := ""
  err : String := ""
  logs : List String := []
  deriving DecidableEq, Repr

/-! ## Texts -/

def line (text : String) : String := text ++ "\n"

def createdLog (path : String) (files : UInt64) : String :=
  "INFO quasar_blockstore::layout: created blockstore path=" ++ path ++
    s!" files={files.toNat}"

def openedLog (path : String) (files : UInt64) : String :=
  "INFO quasar_blockstore::pool: opened blockstore path=" ++ path ++ s!" files={files.toNat}"

def initializedLog (path : String) : String :=
  "INFO quasar::commands::makedb: database already initialized path=" ++ path

def missingLog (path : String) : String :=
  "ERROR quasar::commands: aborting: database does not exist, " ++
    "have you run `quasar makedb`? path=" ++ path

def openFailureLog (e : Error) : String :=
  "ERROR quasar::commands: aborting: cannot open blockstore error=" ++ e.message

def writeFailureLog (fileIndex : Nat) (f : WriteFailure) : String :=
  "ERROR quasar_blockstore::segment: segment write failed " ++
    s!"file_index={fileIndex} offset={f.offset} error={f.error.message}"

def versionText : String := "quasar 0.1.0"

/-! ## Outcomes -/

def failed (debug : String) (logs : List String) : Outcome :=
  { exit := 1, err := line ("Error: " ++ debug), logs }

/-- Opens a pool for a command; a failure ends the command with a log line. -/
def openPool (s : Store) (path : String) (config : Config) : Except Outcome PoolId × Store :=
  match s.openPool path config with
  | (.ok id, s) => (.ok id, s)
  | (.error (.notCreated missing), s) =>
    (.error { exit := 1, logs := [missingLog missing] }, s)
  | (.error e, s) => (.error { exit := 1, logs := [openFailureLog e] }, s)

/-! ## The commands -/

def makedb (s : Store) (path : String) (config : Config) : Outcome × Store :=
  match s.create path config with
  | (.ok (), s) =>
    ({ out := line s!"Created {config.fileCount.toNat} backing files in {path}",
       logs := [createdLog path config.fileCount] }, s)
  | (.error (.alreadyExists existing), s) =>
    ({ out := line ("Database already exists at " ++ path), logs := [initializedLog existing] }, s)
  | (.error e, s) => (failed e.debugText [], s)

/-- What is shown of a report. Without one the program has been aborted. -/
def inspectOutcome (format : String) (report? : Option Report) (logs : List String) : Outcome :=
  match report? with
  | none => { exit := 101, err := line "attempt to add with overflow", logs }
  | some report =>
    if format = "json" then { out := line report.indentedJson, logs }
    else if format = "text" then { out := String.join (report.lines.map line), logs }
    else failed (Quoted.quote ("Unknown format: " ++ format)) logs

def inspect (s : Store) (path : String) (config : Config) (format : String) : Outcome × Store :=
  match openPool s path config with
  | (.error outcome, s) => (outcome, s)
  | (.ok id, s) =>
    let frontiers := s.pools[id]?.elim [] Pool.frontiers
    let report? := Report.ofFrontiers? path config (frontiers.map UInt64.ofNat)
    (inspectOutcome format report? [openedLog path config.fileCount], s.closePool id)

def verify (s : Store) (path : String) (config : Config) : Outcome :=
  let result := Verification.ofDirectory s.disk path config.fileCount.toNat
  let head := [s!"Verifying blockstore at {path}", s!"  Files checked: {result.filesChecked}"]
  let body := result.errors.map ("  ✗ " ++ ·)
  if result.passed then
    { out := String.join ((head ++ body ++ ["✓ Blockstore verification passed"]).map line) }
  else
    { exit := 1
      out := String.join ((head ++ body ++ ["✗ Blockstore verification failed"]).map line)
      err := line ("Error: " ++ Quoted.quote "Verification failed") }

/-- Writes one record through a fresh lease and gives the lease back. -/
def putRecord (s : Store) (id : PoolId) (payload : Bytes) :
    Except Error Address × List String × Store :=
  match s.lockWithin id with
  | (.error e, s) => (.error e, [], s)
  | (.ok segment, s) =>
    match s.write segment payload with
    | (some (.ok a), s) =>
      let (answer, s) := s.unlock segment
      let failure := s.segments[segment]?.bind fun g =>
        g.writer.failure.map (writeFailureLog g.fileIndex)
      match answer with
      | some (.error e) => (.error e, failure.toList, s)
      | _ => (.ok a, failure.toList, s)
    | (some (.error e), s) => (.error e, [], s.drop segment)
    | (none, s) => (.error .poolClosed, [], s)

def putPayload (data : String) (hex : Bool) : Except Hex.Fault Bytes :=
  if hex then Hex.decode data.toList else .ok (Utf8.encode data.toList)

def put (s : Store) (path : String) (config : Config) (data : String) (hex : Bool) :
    Outcome × Store :=
  match putPayload data hex with
  | .error fault => (failed (Quoted.quote fault.message) [], s)
  | .ok payload =>
    match openPool s path config with
    | (.error outcome, s) => (outcome, s)
    | (.ok id, s) =>
      let opened := openedLog path config.fileCount
      match putRecord s id payload with
      | (.ok a, logs, s) => ({ out := line a.text, logs := opened :: logs }, s.closePool id)
      | (.error e, logs, s) => (failed e.debugText (opened :: logs), s.closePool id)

def payloadText (payload : Bytes) (hex : Bool) : String :=
  if hex then Hex.encodeText payload else Utf8.decodeLossy payload

def get (s : Store) (path : String) (config : Config) (address : String) (hex : Bool) :
    Outcome × Store :=
  match Address.ofText address.toList with
  | .error fault => (failed ("ParseIntError \x7b kind: " ++ fault.name ++ " \x7d") [], s)
  | .ok a =>
    match openPool s path config with
    | (.error outcome, s) => (outcome, s)
    | (.ok id, s) =>
      let logs := [openedLog path config.fileCount]
      match s.readRecord id a with
      | (.ok payload, s) => ({ out := line (payloadText payload hex), logs }, s.closePool id)
      | (.error e, s) => (failed e.debugText logs, s.closePool id)

/-! ## The whole program -/

def Action.name : Action → String
  | .makedb => "makedb"
  | .inspect _ => "inspect"
  | .verify => "verify"
  | .put .. => "put"
  | .get .. => "get"
  | .version => "version"

def runAt (s : Store) (path : String) (config : Config) : Action → Outcome × Store
  | .makedb => makedb s path config
  | .inspect format => inspect s path config format
  | .verify => (verify s path config, s)
  | .put data hex => put s path config data hex
  | .get address hex => get s path config address hex
  | .version => ({ out := line versionText }, s)

def runInvocation (s : Store) (invocation : Invocation) : Outcome × Store :=
  match invocation.action, invocation.path with
  | .version, _ => ({ out := line versionText }, s)
  | action, none =>
    (failed (Quoted.quote ("Storage path required for " ++ action.name)) [], s)
  | action, some path => runAt s path { fileCount := invocation.files } action

/-- Runs a command line. Failures that the caller holds back are not held back here. -/
def run (s : Store) (args : List String) : Outcome × Store :=
  match readArguments args with
  | .error .usage => ({ exit := 2 }, s)
  | .error .help => ({}, s)
  | .error .showVersion => ({ out := line versionText }, s)
  | .ok invocation =>
    let (outcome, after) := runInvocation { s with failuresHeld := false } invocation
    (outcome, { after with failuresHeld := s.failuresHeld })

end RecordStore.Command
