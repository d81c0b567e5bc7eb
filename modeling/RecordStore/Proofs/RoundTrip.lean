import RecordStore.Proofs.JsonReading
import RecordStore.Proofs.Overrides
import RecordStore.StreamInfo

/-!
# What is written is read back

Stream descriptors and configurations are written as JSON, and what is read from that text is what
was written: identifiers of streams in hyphenated digits, strings with their escapes, tags in the
order of their keys, and words in decimal.
-/

namespace RecordStore

open Json Numeral

/-! ## Identifiers -/

namespace Uuid

variable {text : List Char} {n : Nat}

theorem foldlM_digits (h : ∀ c ∈ text, IsDigit 16 c) (acc : Nat) :
    text.foldlM (fun acc c => (digitValue? 16 c).map (acc * 16 + ·)) acc =
      some (acc * 16 ^ text.length + value 16 text) := by
  induction text generalizing acc with
  | nil => simp [value]
  | cons c rest ih =>
    obtain ⟨⟨d, hd⟩, hrest⟩ := List.forall_mem_cons.1 h
    rw [List.foldlM_cons, hd, shift_cons hd, ← ih hrest]
    rfl

theorem length_padded (hn : n < 16 ^ 32) : (Hex.padded 32 n).length = 32 := by
  have hlength : (Nat.toDigits 16 n).length ≤ 32 :=
    (Nat.length_toDigits_le_iff (by omega) (by omega)).2 hn
  simp only [Hex.padded, List.length_append, List.length_replicate]
  omega

theorem ofDigits?_padded (u : Uuid) : ofDigits? (Hex.padded 32 u.bits.toNat) = some u := by
  have hread : readDigits 16 (16 ^ 32) 0 (Hex.padded 32 u.bits.toNat) = .ok u.bits.toNat := by
    rw [Hex.padded, readDigits_zeros (by omega)]
    exact readDigits_toDigits (by omega) (by omega) (Nat.le_of_lt u.bits.isLt)
  obtain ⟨hdigits, hvalue, -⟩ := (readDigits_ok (Nat.zero_le _)).1 hread
  rw [ofDigits?, if_pos (length_padded u.bits.isLt), foldlM_digits hdigits, hvalue]
  simp

theorem ofHyphenated?_groups {a b c d e : List Char} (ha : a.length = 8) (hb : b.length = 4)
    (hc : c.length = 4) (hd : d.length = 4) (he : e.length = 12) :
    ofHyphenated? (a ++ '-' :: b ++ '-' :: c ++ '-' :: d ++ '-' :: e) =
      ofDigits? (a ++ b ++ c ++ d ++ e) := by
  rw [ofHyphenated?, if_pos (by simp [ha, hb, hc, hd, he])]
  simp [List.drop_append, List.drop_eq_nil_of_le, ha, hb, hc, hd]

theorem ofText?_text (u : Uuid) : ofText? u.text = some u := by
  have hlength := length_padded u.bits.isLt
  have hgroup : ∀ (digits : List Char) (m k : Nat),
      (digits.drop m).take k ++ digits.drop (m + k) = digits.drop m := by
    intro digits m k
    rw [← List.drop_drop, List.take_append_drop]
  have hregroup : ∀ digits : List Char, digits.take 8 ++ (digits.drop 8).take 4 ++
      (digits.drop 12).take 4 ++ (digits.drop 16).take 4 ++ digits.drop 20 = digits := by
    intro digits
    simp only [List.append_assoc]
    rw [hgroup digits 16 4, hgroup digits 12 4, hgroup digits 8 4, List.take_append_drop]
  -- none of the other forms has 36 characters
  have hchars : u.chars.length = 36 := by
    simp [chars, hyphenate, hlength]
  rw [ofText?, text, String.toList_ofList, ofChars?, if_neg (by omega), if_neg (by omega),
    if_neg (by omega), chars, hyphenate, ofHyphenated?_groups, hregroup, ofDigits?_padded]
  all_goals simp [hlength]

end Uuid

/-! ## Tags -/

namespace Tags

theorem eq_of_entries {tags others : Tags} (h : tags.entries = others.entries) :
    tags = others := by
  cases tags
  cases others
  cases h
  rfl

theorem insertEntry_last {key value : String} {entries : List (String × String)}
    (h : ∀ e ∈ entries, e.1 < key) :
    insertEntry key value entries = entries ++ [(key, value)] := by
  induction entries with
  | nil => rfl
  | cons e rest ih =>
    obtain ⟨k, v⟩ := e
    obtain ⟨hk, hrest⟩ := List.forall_mem_cons.1 h
    have hne : key ≠ k := by
      rintro rfl
      exact String.lt_irrefl _ hk
    rw [insertEntry, if_neg (String.lt_asymm hk), if_neg hne, ih hrest, List.cons_append]

theorem entries_foldl_insert {tags : Tags} {entries : List (String × String)}
    (h : (tags.entries ++ entries).Pairwise fun a b => a.1 < b.1) :
    (entries.foldl (fun tags entry => tags.insert entry.1 entry.2) tags).entries =
      tags.entries ++ entries := by
  induction entries generalizing tags with
  | nil => simp
  | cons entry rest ih =>
    have hless : ∀ e ∈ tags.entries, e.1 < entry.1 := fun e he =>
      (List.pairwise_append.1 h).2.2 e he entry List.mem_cons_self
    have hinsert : (tags.insert entry.1 entry.2).entries = tags.entries ++ [entry] :=
      insertEntry_last hless
    rw [List.foldl_cons, ih, hinsert, List.append_assoc, List.singleton_append]
    rwa [hinsert, List.append_assoc, List.singleton_append]

end Tags

namespace StreamInfo

/-- A tag as it is read from its printed form. -/
def tagMember (entry : String × String) : Pieces × Value :=
  (plainPieces entry.1, .string (plainPieces entry.2))

theorem tagsOfMembers_tagMember (tags : Tags) :
    tagsOfMembers (tags.entries.map tagMember) = some tags := by
  have hfold : ∀ (entries : List (String × String)) (start : Tags),
      (entries.map tagMember).foldlM (fun tags member => do
        return Tags.insert tags (← text? member.1) (← member.2.string?)) start =
          some (entries.foldl (fun tags entry => tags.insert entry.1 entry.2) start) := by
    intro entries
    induction entries with
    | nil => exact fun _ => rfl
    | cons entry rest ih =>
      intro start
      rw [List.map_cons, List.foldlM_cons, List.foldl_cons, ← ih]
      simp [tagMember, Value.string?]
  have hsame : tags.entries.foldl (fun tags entry => tags.insert entry.1 entry.2) {} = tags :=
    Tags.eq_of_entries (Tags.entries_foldl_insert tags.ordered)
  rw [tagsOfMembers, hfold, hsame]

/-- What is read from the printed form of a descriptor. -/
def value (info : StreamInfo) : Value := .object [
  (plainPieces "uuid", .string (plainPieces info.uuid.text)),
  (plainPieces "collection", .string (plainPieces info.collection)),
  (plainPieces "tags", .object (info.tags.entries.map tagMember)),
  (plainPieces "annotation_version", .number (ofWord info.annotationVersion))]

theorem isValue_layout (info : StreamInfo) : IsValue (compact info.layout) info.value := by
  have htags : List.Forall₂ Prints
      (info.tags.entries.map fun entry => (entry.1, .scalar (quoted entry.2)))
      (info.tags.entries.map tagMember) := by
    refine List.forall₂_map_left_iff.2 (List.forall₂_map_right_iff.2 ?_)
    exact List.forall₂_same.2 fun entry _ => ⟨rfl, isValue_quoted entry.2⟩
  exact isValue_object (.cons ⟨rfl, isValue_quoted _⟩ (.cons ⟨rfl, isValue_quoted _⟩
    (.cons ⟨rfl, isValue_object htags⟩ (.cons ⟨rfl, isValue_ofWord _⟩ .nil))))

theorem ofValue_value (info : StreamInfo) : ofValue info.value = some info := by
  simp [ofValue, value, uniqueMember, ofParts, uuidOfValue, Value.string?, tagsOfValue,
    tagsOfMembers_tagMember, Uuid.ofText?_text]

theorem isElement_toJson (info : StreamInfo) : IsElement info.toJson.toList info.value := by
  rw [toJson, Layout.compactText, String.toList_ofList]
  exact (isValue_layout info).element

theorem ofJson_toJson (info : StreamInfo) : ofJson info.toJson = some info :=
  parse_bind_eq_some.2 ⟨info.value, info.isElement_toJson, info.ofValue_value⟩

end StreamInfo

/-! ## Configurations -/

namespace Config

/-- What is read from the printed form of a configuration. -/
def members (c : Config) : List (Pieces × Value) := [
  (plainPieces "file_count", .number (ofWord c.fileCount)),
  (plainPieces "write_queue_depth", .number (ofWord c.writeQueueDepth)),
  (plainPieces "first_read_size", .number (ofWord c.firstReadSize)),
  (plainPieces "sync_on_flush", .bool c.syncOnFlush)]

theorem isValue_layout (c : Config) : IsValue (compact c.layout) (.object c.members) :=
  isValue_object (.cons ⟨rfl, isValue_ofWord _⟩ (.cons ⟨rfl, isValue_ofWord _⟩
    (.cons ⟨rfl, isValue_ofWord _⟩ (.cons ⟨rfl, isValue_ofBool _⟩ .nil))))

theorem isElement_toJson (c : Config) : IsElement c.toJson.toList (.object c.members) := by
  rw [toJson, Layout.compactText, String.toList_ofList]
  exact c.isValue_layout.element

theorem sets_members (c : Config) : Sets c.members
    ⟨some c.fileCount, some c.writeQueueDepth, some c.firstReadSize, some c.syncOnFlush⟩ := by
  constructor <;> simp [members, valuesOf]

theorem ofJson_toJson (c : Config) : ofJson c.toJson = some c := by
  have hnamed : Named c.members := by simp [Named, members]
  exact (ofJson_object (isElement_toJson c)).2 ⟨hnamed, _, c.sets_members.settled, rfl⟩

end Config

/-- Each descriptor and each configuration is written as a JSON text, from which it is read again. A
text that can be read at all is JSON too, in whatever way it is written, and what is read from it
stays the same when it is written and read once more. -/
theorem read_of_written :
    (∀ info : StreamInfo, IsElement info.toJson.toList info.value ∧
      StreamInfo.ofJson info.toJson = some info) ∧
    (∀ c : Config, IsElement c.toJson.toList (.object c.members) ∧
      Config.ofJson c.toJson = some c) ∧
    (∀ text info, StreamInfo.ofJson text = some info →
      (∃ v, IsElement text.toList v ∧ StreamInfo.ofValue v = some info) ∧
      StreamInfo.ofJson info.toJson = StreamInfo.ofJson text) ∧
    ∀ text c, Config.ofJson text = some c →
      (∃ v, IsElement text.toList v ∧ Config.ofValue v = some c) ∧
      Config.ofJson c.toJson = Config.ofJson text := by
  refine ⟨fun info => ⟨info.isElement_toJson, info.ofJson_toJson⟩,
    fun c => ⟨c.isElement_toJson, c.ofJson_toJson⟩, ?_, ?_⟩
  · intro text info hread
    exact ⟨parse_bind_eq_some.1 hread, info.ofJson_toJson.trans hread.symm⟩
  · intro text c hread
    exact ⟨parse_bind_eq_some.1 hread, c.ofJson_toJson.trans hread.symm⟩

end RecordStore
