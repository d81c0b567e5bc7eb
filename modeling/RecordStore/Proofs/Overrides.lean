import Mathlib.Tactic.MkIffOfInductiveProp
import RecordStore.Config.Json
import RecordStore.Proofs.JsonPrinting

/-!
# Defaults and overrides

An object read as a configuration sets the fields that it names, each of them once, and leaves the
others at their defaults. Members that name no field are passed over wherever they stand, and the
order of the members does not count.
-/

namespace RecordStore.Config

open Json

/-! ## The members of an object -/

def fieldNames : List String :=
  ["file_count", "write_queue_depth", "first_read_size", "sync_on_flush"]

def valuesOf (name : String) (members : List (Pieces × Value)) : List Value :=
  (members.filter fun member => text? member.1 == some name).map Prod.snd

def known (members : List (Pieces × Value)) : List (Pieces × Value) :=
  members.filter fun member => fieldNames.any fun name => text? member.1 == some name

/-- No name has half of a surrogate pair. -/
def Named (members : List (Pieces × Value)) : Prop := ∀ member ∈ members, (text? member.1).isSome

variable {name : String} {members others : List (Pieces × Value)}

theorem valuesOf_cons (name : String) (member : Pieces × Value) (members : List (Pieces × Value)) :
    valuesOf name (member :: members) = valuesOf name [member] ++ valuesOf name members := by
  unfold valuesOf
  rw [← List.map_append, ← List.filter_append, List.singleton_append]

theorem valuesOf_singleton (name : String) (member : Pieces × Value) :
    valuesOf name [member] = if text? member.1 == some name then [member.2] else [] := by
  unfold valuesOf
  rw [List.filter_cons]
  split <;> rfl

theorem valuesOf_known (members : List (Pieces × Value)) (hname : name ∈ fieldNames) :
    valuesOf name (known members) = valuesOf name members := by
  unfold valuesOf known
  rw [List.filter_filter]
  congr 2
  funext member
  cases hmember : text? member.1 == some name with
  | false => rfl
  | true => simpa using ⟨name, hname, beq_iff_eq.1 hmember⟩

theorem valuesOf_perm (h : members.Perm others) :
    (valuesOf name members).Perm (valuesOf name others) :=
  (h.filter _).map _

/-! ## One field -/

/-- What a field is after an object's values for it. -/
inductive Reads {α : Type} (read : Value → Option α) : Option α → List Value → Option α → Prop
  | absent (old : Option α) : Reads read old [] old
  | given {v : Value} {a : α} (readable : read v = some a) : Reads read none [v] (some a)

section Reads

variable {α : Type} {read : Value → Option α} {old new : Option α} {v : Value}
  {values values' : List Value}

theorem reads_nil : Reads read old [] new ↔ old = new := by
  constructor
  · rintro ⟨⟩
    rfl
  · rintro rfl
    exact .absent _

theorem reads_singleton :
    Reads read old [v] new ↔ ∃ a, Settings.setOnce old (read v) = some a ∧ some a = new := by
  constructor
  · rintro ⟨⟩
    exact ⟨_, ‹_›, rfl⟩
  · rintro ⟨a, hset, rfl⟩
    cases old with
    | none => exact .given hset
    | some old => cases hset

theorem reads_append : Reads read old (values ++ values') new ↔
    ∃ between, Reads read old values between ∧ Reads read between values' new := by
  constructor
  · intro h
    cases values with
    | nil => exact ⟨old, .absent old, h⟩
    | cons v rest =>
      generalize hall : v :: rest ++ values' = all at h
      cases h with
      | absent => cases hall
      | given hread =>
        -- the one value is the first, and nothing is behind it on either side
        obtain ⟨rfl, hnil⟩ := List.cons.inj hall
        obtain ⟨rfl, rfl⟩ := List.append_eq_nil_iff.1 hnil
        exact ⟨_, .given hread, .absent _⟩
  · rintro ⟨between, hfirst, hmore⟩
    cases hfirst with
    | absent => exact hmore
    | given hread =>
      cases hmore
      exact .given hread

theorem not_reads (h : 2 ≤ values.length) : ¬ Reads read old values new := by
  rintro ⟨⟩ <;> simp at h

theorem reads_perm (h : values.Perm values') :
    Reads read old values new ↔ Reads read old values' new := by
  have hone : ∀ {values values' : List Value}, values.Perm values' →
      Reads read old values new → Reads read old values' new := by
    intro values values' hperm hreads
    cases hreads with
    | absent =>
      obtain rfl := hperm.nil_eq
      exact .absent _
    | given hread =>
      obtain rfl := List.singleton_perm.1 hperm
      exact .given hread
  exact ⟨hone h, hone h.symm⟩

end Reads

/-! ## All fields -/

/-- What each field is after an object's members. -/
@[mk_iff]
structure Settled (s : Settings) (members : List (Pieces × Value)) (s' : Settings) : Prop where
  fileCount : Reads Value.word? s.fileCount (valuesOf "file_count" members) s'.fileCount
  writeQueueDepth :
    Reads Value.word? s.writeQueueDepth (valuesOf "write_queue_depth" members) s'.writeQueueDepth
  firstReadSize :
    Reads Value.word? s.firstReadSize (valuesOf "first_read_size" members) s'.firstReadSize
  syncOnFlush : Reads Value.bool? s.syncOnFlush (valuesOf "sync_on_flush" members) s'.syncOnFlush

variable {s t s' : Settings}

theorem settled_nil : Settled s [] s' ↔ s' = s := by
  constructor
  · rintro ⟨hcount, hdepth, hsize, hsync⟩
    obtain ⟨⟩ := s
    obtain ⟨⟩ := s'
    simp only [valuesOf, List.filter_nil, List.map_nil, reads_nil] at hcount hdepth hsize hsync
    rw [hcount, hdepth, hsize, hsync]
  · rintro rfl
    exact ⟨.absent _, .absent _, .absent _, .absent _⟩

theorem settled_cons {member : Pieces × Value} :
    Settled s (member :: members) s' ↔ ∃ t, Settled s [member] t ∧ Settled t members s' := by
  constructor
  · rintro ⟨hcount, hdepth, hsize, hsync⟩
    rw [valuesOf_cons, reads_append] at hcount hdepth hsize hsync
    obtain ⟨count, hcount, hcount'⟩ := hcount
    obtain ⟨depth, hdepth, hdepth'⟩ := hdepth
    obtain ⟨size, hsize, hsize'⟩ := hsize
    obtain ⟨sync, hsync, hsync'⟩ := hsync
    exact ⟨⟨count, depth, size, sync⟩, ⟨hcount, hdepth, hsize, hsync⟩,
      hcount', hdepth', hsize', hsync'⟩
  · rintro ⟨t, ⟨hcount, hdepth, hsize, hsync⟩, hcount', hdepth', hsize', hsync'⟩
    constructor <;> rw [valuesOf_cons, reads_append]
    · exact ⟨_, hcount, hcount'⟩
    · exact ⟨_, hdepth, hdepth'⟩
    · exact ⟨_, hsize, hsize'⟩
    · exact ⟨_, hsync, hsync'⟩

theorem addMember_eq_some {member : Pieces × Value} :
    s.addMember member = some t ↔ (text? member.1).isSome ∧ Settled s [member] t := by
  obtain ⟨key, v⟩ := member
  obtain ⟨count, depth, size, sync⟩ := s
  obtain ⟨count', depth', size', sync'⟩ := t
  simp only [settled_iff, valuesOf_singleton]
  cases hkey : text? key with
  | none => simp [Settings.addMember, hkey]
  | some name =>
    simp only [Settings.addMember, hkey, Option.bind_eq_bind, Option.bind_some]
    -- one case for each field, and the last for all other names
    split
    · cases hset : Settings.setOnce count v.word? <;>
        simp [Settings.setFileCount, reads_nil, reads_singleton, hset]
    · cases hset : Settings.setOnce depth v.word? <;>
        simp [Settings.setWriteQueueDepth, reads_nil, reads_singleton, hset]
    · cases hset : Settings.setOnce size v.word? <;>
        simp [Settings.setFirstReadSize, reads_nil, reads_singleton, hset]
    · cases hset : Settings.setOnce sync v.bool? <;>
        simp [Settings.setSyncOnFlush, reads_nil, reads_singleton, hset]
    · rename_i hcount hdepth hsize hsync
      simp [reads_nil, if_neg hcount, if_neg hdepth, if_neg hsize, if_neg hsync]

/-- The members are taken one after the other, and each field has its own values only. -/
theorem foldlM_addMember : members.foldlM Settings.addMember s = some s' ↔
    Named members ∧ Settled s members s' := by
  induction members generalizing s with
  | nil =>
    rw [settled_nil]
    simp [Named, eq_comm (a := s)]
  | cons member members ih =>
    rw [List.foldlM_cons, settled_cons, Named, List.forall_mem_cons, Option.bind_eq_bind,
      Option.bind_eq_some_iff]
    simp only [ih, addMember_eq_some]
    constructor
    · rintro ⟨t, ⟨hname, hfirst⟩, hnames, hmore⟩
      exact ⟨⟨hname, hnames⟩, t, hfirst, hmore⟩
    · rintro ⟨⟨hname, hnames⟩, t, hfirst, hmore⟩
      exact ⟨t, ⟨hname, hfirst⟩, hnames, hmore⟩

theorem ofJson_object {text : String} {c : Config} (htext : IsElement text.toList (.object members)) :
    ofJson text = some c ↔ Named members ∧ ∃ s, Settled {} members s ∧ s.apply = c := by
  rw [ofJson, parse_of_isElement htext, Option.bind_some, ofValue, Option.map_eq_map,
    Option.map_eq_some_iff]
  simp only [foldlM_addMember, and_assoc, exists_and_left]

/-- Each field at most once, with a value of its type. -/
structure Sets (members : List (Pieces × Value)) (s : Settings) : Prop where
  fileCount : valuesOf "file_count" members = (s.fileCount.map fun n => .number (ofWord n)).toList
  writeQueueDepth : valuesOf "write_queue_depth" members =
    (s.writeQueueDepth.map fun n => .number (ofWord n)).toList
  firstReadSize :
    valuesOf "first_read_size" members = (s.firstReadSize.map fun n => .number (ofWord n)).toList
  syncOnFlush : valuesOf "sync_on_flush" members = (s.syncOnFlush.map .bool).toList

theorem Sets.settled (h : Sets members s) : Settled {} members s := by
  have hword : ∀ n : Option UInt64,
      Reads Value.word? none (n.map fun n => .number (ofWord n)).toList n := by
    rintro (_ | n)
    · exact .absent none
    · exact .given (word?_ofWord n)
  have hbool : ∀ b : Option Bool, Reads Value.bool? none (b.map .bool).toList b := by
    rintro (_ | b)
    · exact .absent none
    · exact .given rfl
  constructor
  · exact h.fileCount ▸ hword _
  · exact h.writeQueueDepth ▸ hword _
  · exact h.firstReadSize ▸ hword _
  · exact h.syncOnFlush ▸ hbool _

theorem settled_perm (h : (known members).Perm (known others)) :
    Settled s members s' ↔ Settled s others s' := by
  have hvalues : ∀ name ∈ fieldNames, (valuesOf name members).Perm (valuesOf name others) := by
    intro name hname
    rw [← valuesOf_known members hname, ← valuesOf_known others hname]
    exact valuesOf_perm h
  have hone : ∀ {members others : List (Pieces × Value)},
      (∀ name ∈ fieldNames, (valuesOf name members).Perm (valuesOf name others)) →
      Settled s members s' → Settled s others s' := by
    rintro members others hperm ⟨hcount, hdepth, hsize, hsync⟩
    exact ⟨(reads_perm (hperm _ (by decide))).1 hcount, (reads_perm (hperm _ (by decide))).1 hdepth,
      (reads_perm (hperm _ (by decide))).1 hsize, (reads_perm (hperm _ (by decide))).1 hsync⟩
  exact ⟨hone hvalues, hone fun name hname => (hvalues name hname).symm⟩

theorem not_settled (hname : name ∈ fieldNames) (htwice : 2 ≤ (valuesOf name members).length) :
    ¬ Settled s members s' := by
  rintro ⟨hcount, hdepth, hsize, hsync⟩
  simp only [fieldNames, List.mem_cons, List.not_mem_nil, or_false] at hname
  rcases hname with rfl | rfl | rfl | rfl
  · exact not_reads htwice hcount
  · exact not_reads htwice hdepth
  · exact not_reads htwice hsize
  · exact not_reads htwice hsync

/-- An object that sets each field at most once, to a value of its type, is read as the defaults with
these fields replaced, wherever its members stand and whatever blanks are between them. Only the
members that name a field count, and not their order; all others may come, go and hold any value. A
field that is set twice makes the object unreadable, and so does a name that is no text, being half
of a surrogate pair somewhere. -/
theorem defaults_overridden (text : String) (members : List (Pieces × Value))
    (htext : IsElement text.toList (.object members)) :
    (∀ s : Settings, Named members → Sets members s → ofJson text = some
      ⟨s.fileCount.getD 256, s.writeQueueDepth.getD 16, s.firstReadSize.getD 3459,
        s.syncOnFlush.getD false⟩) ∧
    (∀ (other : String) (others : List (Pieces × Value)),
      IsElement other.toList (.object others) → Named members → Named others →
      (known others).Perm (known members) → ofJson other = ofJson text) ∧
    (∀ name ∈ fieldNames, 2 ≤ (valuesOf name members).length → ofJson text = none) ∧
    (¬ Named members → ofJson text = none) := by
  refine ⟨?_, ?_, ?_, ?_⟩
  · intro s hnamed hsets
    exact (ofJson_object htext).2 ⟨hnamed, s, hsets.settled, rfl⟩
  · intro other others hother hnamed hnamed' hperm
    refine Option.ext fun c => ?_
    rw [ofJson_object hother, ofJson_object htext]
    simp only [hnamed, hnamed', settled_perm hperm]
  · intro name hname htwice
    refine Option.eq_none_iff_forall_ne_some.2 fun c hread => ?_
    obtain ⟨-, s, hsettled, -⟩ := (ofJson_object htext).1 hread
    exact not_settled hname htwice hsettled
  · intro hnamed
    refine Option.eq_none_iff_forall_ne_some.2 fun c hread => ?_
    exact hnamed ((ofJson_object htext).1 hread).1

/-- A member that is passed over and a field, with blanks between. -/
theorem defaults_overridden_note :
    ofJson "\x7b\"note\":[ ], \"file_count\":7\x7d" = some ⟨7, 16, 3459, false⟩ := by
  have hnote : IsMember "\"note\":[ ]".toList (plainPieces "note", .array []) := by
    have hblank : Blank [' '] := by simp [Blank, isSpace]
    simpa [quoted, escape] using isMember_printed "note" (.emptyArray hblank)
  have hcount : IsMember " \"file_count\":7".toList (plainPieces "file_count", .number ['7']) := by
    have hblank : Blank [' '] := by simp [Blank, isSpace]
    have hvalue : IsValue ['7'] (.number ['7']) := isValue_ofWord 7
    have hmember := IsMember.mk hblank (body_plain "file_count") blank_nil hvalue.element
    simpa [escape] using hmember
  have htext : IsElement "\x7b\"note\":[ ], \"file_count\":7\x7d".toList
      (.object [(plainPieces "note", .array []), (plainPieces "file_count", .number ['7'])]) := by
    simpa using (IsValue.object (.more hnote (.last hcount))).element
  refine (defaults_overridden _ _ htext).1 ⟨some 7, none, none, none⟩ ?_ ?_
  · simp [Named]
  · constructor <;> simp [valuesOf]
    rfl

/-- An unknown name that is half of a surrogate pair is valid as JSON, and refused. -/
theorem lone_surrogate_refused :
    IsElement "\x7b\"\\ud800\":0\x7d".toList (.object [([.surrogate 0xD800], .number ['0'])]) ∧
    Sets [([.surrogate 0xD800], .number ['0'])] {} ∧
    ofJson "\x7b\"\\ud800\":0\x7d" ≠ some ⟨256, 16, 3459, false⟩ := by
  refine ⟨?_, ?_, by decide +kernel⟩
  · have hdigits : ∀ x ∈ ['d', '8', '0', '0'], Numeral.IsDigit 16 x := by
      simpa using ⟨⟨13, by decide⟩, ⟨8, by decide⟩, 0, by decide⟩
    have hunit : Piece.ofUnit (Numeral.value 16 ['d', '8', '0', '0']) = .surrogate 0xD800 := by
      decide
    have hname : Body ['\\', 'u', 'd', '8', '0', '0'] [.surrogate 0xD800] :=
      hunit ▸ .unit hdigits .nil
    have hvalue : IsValue ['0'] (.number ['0']) := isValue_ofWord 0
    simpa using (IsValue.object (.last (.mk blank_nil hname blank_nil hvalue.element))).element
  · constructor <;> rfl

end RecordStore.Config
