import RecordStore.Json.Parser
import RecordStore.Json.Printer
import RecordStore.Uuid

/-!
# Stream descriptors

The stored form is JSON: an object with all four fields, or an array of them in order.
-/

namespace RecordStore

/-! ## Tags -/

/-- A finite map from keys to values, kept in the order of the keys. -/
structure Tags where
  entries : List (String × String) := []
  ordered : entries.Pairwise (fun a b => a.1 < b.1) := by simp
  deriving DecidableEq

namespace Tags

instance : Inhabited Tags := ⟨{}⟩

def insertEntry (key value : String) : List (String × String) → List (String × String)
  | [] => [(key, value)]
  | (k, v) :: rest =>
    if key < k then (key, value) :: (k, v) :: rest
    else if key = k then (key, value) :: rest
    else (k, v) :: insertEntry key value rest

theorem mem_insertEntry {key value : String} {entries : List (String × String)}
    {e : String × String} (h : e ∈ insertEntry key value entries) :
    e = (key, value) ∨ e ∈ entries := by
  induction entries with
  | nil => simpa [insertEntry] using h
  | cons head rest ih =>
    obtain ⟨k, v⟩ := head
    simp only [insertEntry] at h
    split at h
    · simpa using h
    · split at h
      · rcases List.mem_cons.1 h with h | h <;> simp [h]
      · rcases List.mem_cons.1 h with h | h
        · simp [h]
        · rcases ih h with h | h <;> simp [h]

theorem ordered_insertEntry {key value : String} {entries : List (String × String)}
    (h : entries.Pairwise (fun a b => a.1 < b.1)) :
    (insertEntry key value entries).Pairwise (fun a b => a.1 < b.1) := by
  induction entries with
  | nil => simp [insertEntry]
  | cons head rest ih =>
    obtain ⟨k, v⟩ := head
    obtain ⟨hk, hrest⟩ := List.pairwise_cons.1 h
    simp only [insertEntry]
    split
    · rename_i hlt
      refine List.pairwise_cons.2 ⟨fun e he => ?_, h⟩
      rcases List.mem_cons.1 he with rfl | he
      · exact hlt
      · exact String.lt_trans hlt (hk e he)
    · rename_i hlt
      split
      · rename_i heq
        exact List.pairwise_cons.2 ⟨fun e he => heq ▸ hk e he, hrest⟩
      · rename_i hne
        refine List.pairwise_cons.2 ⟨fun e he => ?_, ih hrest⟩
        rcases mem_insertEntry he with rfl | he
        · rcases Decidable.em (k < key) with h | h
          · exact h
          · exact absurd (String.le_antisymm (String.not_lt.1 h) (String.not_lt.1 hlt)) hne
        · exact hk e he

def insert (tags : Tags) (key value : String) : Tags :=
  ⟨insertEntry key value tags.entries, ordered_insertEntry tags.ordered⟩

end Tags

/-! ## Descriptors -/

structure StreamInfo where
  uuid : Uuid
  collection : String
  tags : Tags
  annotationVersion : UInt64
  deriving DecidableEq

namespace StreamInfo

open Json

/-- Of entries with one key the last counts. -/
def tagsOfMembers (members : List (Pieces × Value)) : Option Tags :=
  members.foldlM (fun tags member => do
    return tags.insert (← text? member.1) (← member.2.string?)) {}

def tagsOfValue : Value → Option Tags
  | .object members => tagsOfMembers members
  | _ => none

def uuidOfValue (v : Value) : Option Uuid := v.string?.bind Uuid.ofText?

/-- The one member that has this key. -/
def uniqueMember (key : String) (members : List (String × Value)) : Option Value :=
  match members.filter fun member => member.1 == key with
  | [member] => some member.2
  | _ => none

def ofParts (uuid collection tags version : Value) : Option StreamInfo := do
  return ⟨← uuidOfValue uuid, ← collection.string?, ← tagsOfValue tags, ← version.word?⟩

def ofValue : Value → Option StreamInfo
  | .object members => do
    let members ← members.mapM fun member => (·, member.2) <$> text? member.1
    ofParts (← uniqueMember "uuid" members) (← uniqueMember "collection" members)
      (← uniqueMember "tags" members) (← uniqueMember "annotation_version" members)
  | .array [uuid, collection, tags, version] => ofParts uuid collection tags version
  | _ => none

def ofJson (text : String) : Option StreamInfo := (parse text.toList).bind ofValue

def layout (info : StreamInfo) : Layout := .object [
  ("uuid", .scalar (quoted info.uuid.text)),
  ("collection", .scalar (quoted info.collection)),
  ("tags", .object (info.tags.entries.map fun (key, value) => (key, .scalar (quoted value)))),
  ("annotation_version", .scalar (ofWord info.annotationVersion))]

def toJson (info : StreamInfo) : String := info.layout.compactText

end StreamInfo

end RecordStore
