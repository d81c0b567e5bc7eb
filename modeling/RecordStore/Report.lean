import RecordStore.Config.Json
import RecordStore.Layout

/-! # Reports on the frontiers of a pool -/

namespace RecordStore

structure FileReport where
  index : Nat
  name : String
  frontier : UInt64
  /-- The bytes behind the magic tag. -/
  dataBytes : UInt64
  deriving DecidableEq, Repr

structure Report where
  path : String
  config : Config
  totalDataBytes : UInt64
  files : List FileReport
  deriving DecidableEq, Repr

namespace Report

def dataBytes (frontier : UInt64) : UInt64 :=
  if frontier.toNat < Layout.dataStart then 0 else frontier - UInt64.ofNat Layout.dataStart

def fileReports (frontiers : List UInt64) : List FileReport :=
  frontiers.zipIdx.map fun (frontier, index) =>
    { index, name := Layout.fileName index, frontier, dataBytes := dataBytes frontier }

/-- A sum of two words, if a word holds it. -/
def add? (a b : UInt64) : Option UInt64 :=
  if a.toNat + b.toNat < UInt64.size then some (a + b) else none

def total? (files : List FileReport) : Option UInt64 :=
  files.foldlM (fun total file => add? total file.dataBytes) 0

/-- There is no report when its total overflows, which aborts the program. -/
def ofFrontiers? (path : String) (config : Config) (frontiers : List UInt64) : Option Report :=
  (total? (fileReports frontiers)).map fun totalDataBytes =>
    { path, config, totalDataBytes, files := fileReports frontiers }

open Json

def fileLayout (file : FileReport) : Json.Layout := .object [
  ("index", .scalar (Nat.toDigits 10 file.index)),
  ("name", .scalar (quoted file.name)),
  ("frontier", .scalar (ofWord file.frontier)),
  ("data_bytes", .scalar (ofWord file.dataBytes))]

def layout (report : Report) : Json.Layout := .object [
  ("path", .scalar (quoted report.path)),
  ("config", report.config.layout),
  ("total_data_bytes", .scalar (ofWord report.totalDataBytes)),
  ("files", .array (report.files.map fileLayout))]

def compactJson (report : Report) : String := report.layout.compactText
def indentedJson (report : Report) : String := report.layout.indentedText

/-! ## The table -/

def padLeft (width : Nat) (text : String) : String :=
  String.ofList (List.replicate (width - text.length) ' ') ++ text

def padRight (width : Nat) (text : String) : String :=
  text ++ String.ofList (List.replicate (width - text.length) ' ')

def row (name frontier dataBytes : String) : String :=
  padRight 20 name ++ " " ++ padLeft 16 frontier ++ " " ++ padLeft 16 dataBytes

def wordText (n : UInt64) : String := toString n.toNat

def lines (report : Report) : List String :=
  ["Blockstore at " ++ report.path,
    "Queue depth " ++ wordText report.config.writeQueueDepth ++ ", first read " ++
      wordText report.config.firstReadSize ++ " bytes",
    "", row "FILE" "FRONTIER" "DATA BYTES"] ++
  (report.files.map fun file => row file.name (wordText file.frontier) (wordText file.dataBytes)) ++
  ["", "Total data bytes: " ++ wordText report.totalDataBytes]

end Report

end RecordStore
