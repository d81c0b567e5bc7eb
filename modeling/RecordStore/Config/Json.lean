import RecordStore.Config
import RecordStore.Json.Parser
import RecordStore.Json.Printer

/-!
# Configurations as JSON

An object names the fields it sets; an array gives them in order. A field that is left out has its
default, and a member that names no field is passed over.
-/

namespace RecordStore.Config

open Json

structure Settings where
  fileCount : Option UInt64 := none
  writeQueueDepth : Option UInt64 := none
  firstReadSize : Option UInt64 := none
  syncOnFlush : Option Bool := none
  deriving DecidableEq, Repr

namespace Settings

def apply (s : Settings) : Config where
  fileCount := s.fileCount.getD ({} : Config).fileCount
  writeQueueDepth := s.writeQueueDepth.getD ({} : Config).writeQueueDepth
  firstReadSize := s.firstReadSize.getD ({} : Config).firstReadSize
  syncOnFlush := s.syncOnFlush.getD ({} : Config).syncOnFlush

def setOnce {α : Type} (old new : Option α) : Option α :=
  match old with
  | some _ => none
  | none => new

def setFileCount (s : Settings) (v : Value) : Option Settings :=
  (setOnce s.fileCount v.word?).map fun n => { s with fileCount := some n }

def setWriteQueueDepth (s : Settings) (v : Value) : Option Settings :=
  (setOnce s.writeQueueDepth v.word?).map fun n => { s with writeQueueDepth := some n }

def setFirstReadSize (s : Settings) (v : Value) : Option Settings :=
  (setOnce s.firstReadSize v.word?).map fun n => { s with firstReadSize := some n }

def setSyncOnFlush (s : Settings) (v : Value) : Option Settings :=
  (setOnce s.syncOnFlush v.bool?).map fun b => { s with syncOnFlush := some b }

def addMember (s : Settings) (member : Pieces × Value) : Option Settings := do
  match ← text? member.1 with
  | "file_count" => s.setFileCount member.2
  | "write_queue_depth" => s.setWriteQueueDepth member.2
  | "first_read_size" => s.setFirstReadSize member.2
  | "sync_on_flush" => s.setSyncOnFlush member.2
  | _ => some s

/-- Takes one item for each field in turn, and no more. -/
def addItems (s : Settings) :
    List (Settings → Value → Option Settings) → List Value → Option Settings
  | _, [] => some s
  | [], _ :: _ => none
  | set :: sets, v :: items => do (← set s v).addItems sets items

end Settings

def ofValue : Value → Option Config
  | .object members => Settings.apply <$> members.foldlM Settings.addMember {}
  | .array items =>
    Settings.apply <$> Settings.addItems {}
      [Settings.setFileCount, Settings.setWriteQueueDepth, Settings.setFirstReadSize,
        Settings.setSyncOnFlush] items
  | _ => none

def ofJson (text : String) : Option Config := (parse text.toList).bind ofValue

def layout (c : Config) : Layout := .object [
  ("file_count", .scalar (ofWord c.fileCount)),
  ("write_queue_depth", .scalar (ofWord c.writeQueueDepth)),
  ("first_read_size", .scalar (ofWord c.firstReadSize)),
  ("sync_on_flush", .scalar (ofBool c.syncOnFlush))]

def toJson (c : Config) : String := c.layout.compactText

end RecordStore.Config
