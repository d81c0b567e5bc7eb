import RecordStore.Config
import RecordStore.Text.Numeral

/-!
# Command-line arguments

Options may come before or after the subcommand, as `--name value`, `--name=value`, `-nvalue` or in
a cluster of one-letter options. What the subcommand is given outweighs what stands before it.
-/

namespace RecordStore.Command

inductive Action where
  | makedb
  | inspect (format : String)
  | verify
  | put (data : String) (hex : Bool)
  | get (address : String) (hex : Bool)
  | version
  deriving DecidableEq, Repr

structure Invocation where
  path : Option String
  verbose : Bool
  files : UInt64
  action : Action
  deriving DecidableEq, Repr

inductive Stop where
  | usage
  | help
  | showVersion
  deriving DecidableEq, Repr

/-! ## Options -/

inductive Subcommand where
  | makedb
  | inspect
  | verify
  | put
  | get
  | version
  deriving DecidableEq, Repr

def subcommand? : String → Option Subcommand
  | "makedb" => some .makedb
  | "inspect" => some .inspect
  | "verify" => some .verify
  | "put" => some .put
  | "get" => some .get
  | "version" => some .version
  | _ => none

inductive OptionName where
  | path
  | verbose
  | files
  | format
  | hex
  | help
  | version
  deriving DecidableEq, Repr

def OptionName.takesValue : OptionName → Bool
  | path | files | format => true
  | verbose | hex | help | version => false

/-- The options that are known before the subcommand, or to it. -/
def OptionName.known (place : Option Subcommand) : OptionName → Bool
  | path | verbose | files | help => true
  | version => place.isNone
  | format => place == some .inspect
  | hex => place == some .put || place == some .get

def longOption? : String → Option OptionName
  | "path" => some .path
  | "verbose" => some .verbose
  | "files" => some .files
  | "format" => some .format
  | "hex" => some .hex
  | "help" => some .help
  | "version" => some .version
  | _ => none

def shortOption? : Char → Option OptionName
  | 'p' => some .path
  | 'v' => some .verbose
  | 'f' => some .format
  | 'h' => some .help
  | 'V' => some .version
  | _ => none

structure Settings where
  path : Option String := none
  verbose : Bool := false
  files : Option UInt64 := none
  format : Option String := none
  hex : Bool := false
  operand : Option String := none
  deriving DecidableEq, Repr

namespace Settings

def setValue (s : Settings) (name : OptionName) (value : String) : Except Stop Settings :=
  match name with
  | .path =>
    if s.path.isSome || value.isEmpty then .error .usage else .ok { s with path := some value }
  | .files =>
    match s.files, Numeral.read 10 (UInt64.size - 1) value.toList with
    | none, .ok n => .ok { s with files := some (UInt64.ofNat n) }
    | _, _ => .error .usage
  | .format => if s.format.isSome then .error .usage else .ok { s with format := some value }
  | _ => .error .usage

def setFlag (s : Settings) (name : OptionName) : Except Stop Settings :=
  match name with
  | .verbose => if s.verbose then .error .usage else .ok { s with verbose := true }
  | .hex => if s.hex then .error .usage else .ok { s with hex := true }
  | .help => .error .help
  | .version => .error .showVersion
  | _ => .error .usage

/-- Only `put` and `get` take an operand, and only one. -/
def setOperand (s : Settings) (place : Option Subcommand) (text : String) : Except Stop Settings :=
  if (place == some .put || place == some .get) && s.operand.isNone then
    .ok { s with operand := some text }
  else .error .usage

end Settings

/-! ## Reading arguments -/

/-- An option whose value is to be the next argument. -/
abbrev Awaiting := Option OptionName

/-- Reads `--name` or `--name=value`, given what stands behind the dashes. -/
def readLong (place : Option Subcommand) (s : Settings) (text : List Char) :
    Except Stop (Settings × Awaiting) :=
  let name := String.ofList (text.takeWhile (· != '='))
  match longOption? name, text.dropWhile (· != '=') with
  | none, _ => .error .usage
  | some option, attached =>
    if !option.known place then .error .usage
    else
      match option.takesValue, attached with
      | true, _ :: value => (·, none) <$> s.setValue option (String.ofList value)
      | true, [] => .ok (s, some option)
      | false, _ :: _ => .error .usage
      | false, [] => (·, none) <$> s.setFlag option

/-- Reads a cluster of one-letter options; the first that takes a value takes all that follows. -/
def readShort (place : Option Subcommand) (s : Settings) :
    List Char → Except Stop (Settings × Awaiting)
  | [] => .ok (s, none)
  | c :: rest =>
    match shortOption? c with
    | none => .error .usage
    | some option =>
      if !option.known place then .error .usage
      else if option.takesValue then
        match rest with
        | [] => .ok (s, some option)
        | '=' :: value => (·, none) <$> s.setValue option (String.ofList value)
        | value => (·, none) <$> s.setValue option (String.ofList value)
      else do readShort place (← s.setFlag option) rest

/-- Answers `help`, which may name one subcommand, or itself. -/
def helpStop : List String → Stop
  | [] => .help
  | [topic] => if topic == "help" || (subcommand? topic).isSome then .help else .usage
  | _ => .usage

/-- Reads the arguments of one place. Before the subcommand, a subcommand ends them, and it and the
arguments after it are given back. -/
def readPlace (place : Option Subcommand) (s : Settings) (awaiting : Awaiting) :
    List String → Except Stop (Settings × Option (Subcommand × List String))
  | [] => if awaiting.isSome then .error .usage else .ok (s, none)
  | arg :: rest =>
    match awaiting, place, subcommand? arg with
    | none, none, some name => .ok (s, some (name, rest))
    | _, _, _ =>
      match arg.toList with
      | ['-', '-'] =>
        if awaiting.isSome then .error .usage
        else do
          let s ← rest.foldlM (fun s text => s.setOperand place text) s
          return (s, none)
      | '-' :: '-' :: text =>
        if awaiting.isSome then .error .usage
        else do
          let (s, awaiting) ← readLong place s text
          readPlace place s awaiting rest
      | '-' :: c :: text =>
        if awaiting.isSome then .error .usage
        else do
          let (s, awaiting) ← readShort place s (c :: text)
          readPlace place s awaiting rest
      | _ =>
        match awaiting with
        | some option => do readPlace place (← s.setValue option arg) none rest
        | none =>
          if place.isNone && arg == "help" then .error (helpStop rest)
          else do readPlace place (← s.setOperand place arg) none rest

def action (name : Subcommand) (s : Settings) : Except Stop Action :=
  match name, s.operand with
  | .makedb, _ => .ok .makedb
  | .inspect, _ => .ok (.inspect (s.format.getD "text"))
  | .verify, _ => .ok .verify
  | .put, some data => .ok (.put data s.hex)
  | .get, some address => .ok (.get address s.hex)
  | .put, none => .error .usage
  | .get, none => .error .usage
  | .version, _ => .ok .version

def readArguments (args : List String) : Except Stop Invocation := do
  match ← readPlace none {} none args with
  | (_, none) => .error .usage
  | (outer, some (name, rest)) =>
    let (inner, _) ← readPlace (some name) {} none rest
    return {
      path := inner.path <|> outer.path
      verbose := inner.verbose || outer.verbose
      files := (inner.files <|> outer.files).getD ({} : Config).fileCount
      action := ← action name inner }

end RecordStore.Command
