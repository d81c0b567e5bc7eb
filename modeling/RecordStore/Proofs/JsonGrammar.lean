import Mathlib.Data.List.TakeWhile
import RecordStore.Json.Parser
import RecordStore.Proofs.Numerals

/-!
# The grammar of JSON

Which texts are JSON and which value each of them stands for, said without a reader: tokens with
blanks between them, numbers without leading zeros, strings with their escapes, arrays and objects
of any depth. Each of these texts is read as its value.
-/

namespace RecordStore.Json

open Numeral

/-! ## The grammar -/

def Blank (text : List Char) : Prop := ∀ c ∈ text, isSpace c

def Digits (text : List Char) : Prop := text ≠ [] ∧ ∀ c ∈ text, isDigit c

inductive Whole : List Char → Prop
  | zero : Whole ['0']
  | digits {c : Char} {rest : List Char} (nonzero : c ≠ '0') (all : Digits (c :: rest)) :
    Whole (c :: rest)

inductive Fraction : List Char → Prop
  | none : Fraction []
  | digits {text : List Char} (all : Digits text) : Fraction ('.' :: text)

inductive Exponent : List Char → Prop
  | none : Exponent []
  | digits {e : Char} {sign text : List Char} (marked : e = 'e' ∨ e = 'E')
      (signed : sign = [] ∨ sign = ['+'] ∨ sign = ['-']) (all : Digits text) :
    Exponent (e :: (sign ++ text))

inductive Number : List Char → Prop
  | parts {sign whole fraction exponent : List Char} (signed : sign = [] ∨ sign = ['-'])
      (start : Whole whole) (middle : Fraction fraction) (stop : Exponent exponent) :
    Number (sign ++ (whole ++ (fraction ++ exponent)))

/-- The letters behind a backslash that stand for one character. -/
def shortEscapes : List (Char × Char) :=
  [('"', '"'), ('\\', '\\'), ('/', '/'), ('b', '\x08'), ('f', '\x0c'), ('n', '\n'), ('r', '\r'),
    ('t', '\t')]

/-- What stands between the quotes of a string. -/
inductive Body : List Char → Pieces → Prop
  | nil : Body [] []
  | plain {c : Char} {rest : List Char} {pieces : Pieces} (printable : 0x20 ≤ c.toNat)
      (quoteless : c ≠ '"') (unescaped : c ≠ '\\') (more : Body rest pieces) :
    Body (c :: rest) (.char c :: pieces)
  | escape {e c : Char} {rest : List Char} {pieces : Pieces} (known : (e, c) ∈ shortEscapes)
      (more : Body rest pieces) :
    Body ('\\' :: e :: rest) (.char c :: pieces)
  | unit {a b c d : Char} {rest : List Char} {pieces : Pieces}
      (digits : ∀ x ∈ [a, b, c, d], IsDigit 16 x) (more : Body rest pieces) :
    Body ('\\' :: 'u' :: a :: b :: c :: d :: rest)
      (Piece.ofUnit (value 16 [a, b, c, d]) :: pieces)

mutual

/-- A text without blanks around it, and the value that it stands for. -/
inductive IsValue : List Char → Value → Prop
  | null : IsValue ['n', 'u', 'l', 'l'] .null
  | isTrue : IsValue ['t', 'r', 'u', 'e'] (.bool true)
  | isFalse : IsValue ['f', 'a', 'l', 's', 'e'] (.bool false)
  | number {text : List Char} (digits : Number text) : IsValue text (.number text)
  | string {text : List Char} {pieces : Pieces} (body : Body text pieces) :
    IsValue ('"' :: (text ++ ['"'])) (.string pieces)
  | emptyArray {text : List Char} (blank : Blank text) :
    IsValue ('[' :: (text ++ [']'])) (.array [])
  | array {text : List Char} {items : List Value} (some : IsItems text items) :
    IsValue ('[' :: (text ++ [']'])) (.array items)
  | emptyObject {text : List Char} (blank : Blank text) :
    IsValue ('\x7b' :: (text ++ ['\x7d'])) (.object [])
  | object {text : List Char} {members : List (Pieces × Value)}
      (some : IsMembers text members) :
    IsValue ('\x7b' :: (text ++ ['\x7d'])) (.object members)

/-- A value with blanks around it; a whole JSON text is one. -/
inductive IsElement : List Char → Value → Prop
  | mk {before text after : List Char} {v : Value} (front : Blank before)
      (value : IsValue text v) (back : Blank after) :
    IsElement (before ++ (text ++ after)) v

inductive IsItems : List Char → List Value → Prop
  | last {text : List Char} {v : Value} (only : IsElement text v) : IsItems text [v]
  | more {text rest : List Char} {v : Value} {items : List Value} (first : IsElement text v)
      (others : IsItems rest items) :
    IsItems (text ++ ',' :: rest) (v :: items)

inductive IsMember : List Char → Pieces × Value → Prop
  | mk {before body between text : List Char} {key : Pieces} {v : Value} (front : Blank before)
      (name : Body body key) (middle : Blank between) (value : IsElement text v) :
    IsMember (before ++ '"' :: (body ++ '"' :: (between ++ ':' :: text))) (key, v)

inductive IsMembers : List Char → List (Pieces × Value) → Prop
  | last {text : List Char} {member : Pieces × Value} (only : IsMember text member) :
    IsMembers text [member]
  | more {text rest : List Char} {member : Pieces × Value} {members : List (Pieces × Value)}
      (first : IsMember text member) (others : IsMembers rest members) :
    IsMembers (text ++ ',' :: rest) (member :: members)

end

/-! ## Reading tokens -/

variable {c : Char} {text rest before : List Char}

theorem skipSpace_blank (h : Blank before) (rest : List Char) :
    skipSpace (before ++ rest) = skipSpace rest :=
  List.dropWhile_append_of_pos h

theorem skipSpace_head (h : isSpace c = false) (rest : List Char) :
    skipSpace (c :: rest) = c :: rest := by
  simp [skipSpace, h]

def NoDigit (rest : List Char) : Prop := ∀ c ∈ rest.head?, isDigit c = false

theorem readDigits_append (h : Digits text) (hrest : NoDigit rest) :
    readDigits (text ++ rest) = some (text, rest) := by
  have hnone : rest.takeWhile isDigit = [] ∧ rest.dropWhile isDigit = rest := by
    cases rest with
    | nil => exact ⟨rfl, rfl⟩
    | cons c rest => simp [hrest c rfl]
  have htake : (text ++ rest).takeWhile isDigit = text := by
    rw [List.takeWhile_append_of_pos h.2, hnone.1, List.append_nil]
  have hdrop : (text ++ rest).dropWhile isDigit = rest := by
    rw [List.dropWhile_append_of_pos h.2, hnone.2]
  rw [readDigits, htake, hdrop, if_neg (by simpa using h.1)]

/-- What may stand behind a value. -/
def Follows (rest : List Char) : Prop :=
  ∀ c ∈ rest.head?, isSpace c ∨ c = ',' ∨ c = ']' ∨ c = '\x7d'

theorem Follows.head_ne (h : Follows rest) {d : Char} (hd : d ∈ rest.head?)
    (hnumber : isDigit c ∨ c = '.' ∨ c = 'e' ∨ c = 'E') : d ≠ c := by
  rintro rfl
  rcases h d hd with hspace | rfl | rfl | rfl
  · simp only [isSpace, Bool.or_eq_true, beq_iff_eq] at hspace
    rcases hspace with ((rfl | rfl) | rfl) | rfl <;> simp [isDigit] at hnumber
  all_goals simp [isDigit] at hnumber

theorem Follows.noDigit (h : Follows rest) : NoDigit rest := by
  intro c hc
  by_contra hdigit
  exact h.head_ne hc (.inl (by simpa using hdigit)) rfl

theorem readExponentDigits_unsigned (h : Digits text) :
    readExponentDigits (text ++ rest) = readDigits (text ++ rest) := by
  obtain ⟨c, ds, rfl⟩ := List.exists_cons_of_ne_nil h.1
  have hc := h.2 c List.mem_cons_self
  have hplus : c ≠ '+' := by
    rintro rfl
    simp [isDigit] at hc
  have hminus : c ≠ '-' := by
    rintro rfl
    simp [isDigit] at hc
  rw [List.cons_append, readExponentDigits]
  · simp [hplus]
  · simp [hminus]

theorem readExponent_append (h : Exponent text) (hrest : Follows rest) :
    readExponent (text ++ rest) = some (text, rest) := by
  cases h with
  | none =>
    cases rest with
    | nil => rfl
    | cons c rest =>
      have hlower : c ≠ 'e' := hrest.head_ne rfl (by simp)
      have hupper : c ≠ 'E' := hrest.head_ne rfl (by simp)
      simp [readExponent, hlower, hupper]
  | @digits e sign text hmark hsign hdigits =>
    have hread : readExponentDigits (sign ++ text ++ rest) = some (sign ++ text, rest) := by
      rcases hsign with rfl | rfl | rfl
      · rw [List.nil_append, readExponentDigits_unsigned hdigits]
        exact readDigits_append hdigits hrest.noDigit
      · simp [readExponentDigits, readDigits_append hdigits hrest.noDigit]
      · simp [readExponentDigits, readDigits_append hdigits hrest.noDigit]
    rcases hmark with rfl | rfl <;> simpa [readExponent] using hread

theorem readFraction_append (h : Fraction text) (hrest : NoDigit rest)
    (hpoint : '.' ∉ rest.head?) : readFraction (text ++ rest) = some (text, rest) := by
  cases h with
  | none =>
    cases rest with
    | nil => rfl
    | cons c rest =>
      have hc : c ≠ '.' := by simpa using hpoint
      simp [readFraction, hc]
  | digits hdigits => simp [readFraction, readDigits_append hdigits hrest]

theorem readWhole_append (h : Whole text) (hrest : NoDigit rest) :
    readWhole (text ++ rest) = some (text, rest) := by
  cases h with
  | zero => rfl
  | digits hnonzero hdigits =>
    rw [List.cons_append, readWhole]
    · exact readDigits_append hdigits hrest
    · simpa using hnonzero

theorem Whole.head (h : Whole text) : ∃ c rest, text = c :: rest ∧ isDigit c := by
  cases h with
  | zero => exact ⟨'0', [], rfl, rfl⟩
  | digits hnonzero hdigits => exact ⟨_, _, rfl, hdigits.2 _ List.mem_cons_self⟩

theorem readUnsigned_append {whole fraction exponent : List Char} (hwhole : Whole whole)
    (hfraction : Fraction fraction) (hexponent : Exponent exponent) (hrest : Follows rest) :
    readUnsigned (whole ++ (fraction ++ exponent) ++ rest) =
      some (whole ++ (fraction ++ exponent), rest) := by
  have hpoint : '.' ∉ (exponent ++ rest).head? := by
    cases hexponent with
    | none => exact fun h => hrest.head_ne h (by simp) rfl
    | digits hmark hsign hdigits => rcases hmark with rfl | rfl <;> simp
  have hstop : NoDigit (exponent ++ rest) := by
    cases hexponent with
    | none => exact hrest.noDigit
    | digits hmark hsign hdigits => rcases hmark with rfl | rfl <;> simp [NoDigit, isDigit]
  have hstop' : NoDigit (fraction ++ (exponent ++ rest)) := by
    cases hfraction with
    | none => exact hstop
    | digits hdigits => simp [NoDigit, isDigit]
  simp only [List.append_assoc]
  simp [readUnsigned, readWhole_append hwhole hstop', readFraction_append hfraction hstop hpoint,
    readExponent_append hexponent hrest]

theorem readNumber_append (h : Number text) (hrest : Follows rest) :
    readNumber (text ++ rest) = some (text, rest) := by
  cases h with
  | @parts sign whole fraction exponent hsign hwhole hfraction hexponent =>
    have hread := readUnsigned_append hwhole hfraction hexponent hrest
    rcases hsign with rfl | rfl
    · obtain ⟨c, ds, rfl, hc⟩ := hwhole.head
      have hminus : c ≠ '-' := by
        rintro rfl
        simp [isDigit] at hc
      rw [List.nil_append, List.cons_append, List.cons_append, readNumber]
      · exact hread
      · simp [hminus]
    · simpa [readNumber] using hread

/-! ### Strings -/

theorem hexValue?_eq (c : Char) : hexValue? c = digitValue? 16 c := by
  have hascii : ∀ n < 128, hexValue? (Char.ofNat n) = digitValue? 16 (Char.ofNat n) := by
    decide +kernel
  by_cases hc : c.toNat < 128
  · have hsame := hascii c.toNat hc
    rwa [Char.ofNat_toNat] at hsame
  · have hle : ∀ b : Char, b.toNat < 128 → ¬ c ≤ b := by
      intro b hb hcb
      have hcb : c.toNat ≤ b.toNat := UInt32.le_iff_toNat_le.1 (Char.le_def.1 hcb)
      omega
    have hother : digitValue? 16 c = none :=
      Option.eq_none_iff_forall_ne_some.2 fun d hd => hc (toNat_lt_of_digitValue? hd)
    rw [hother]
    simp [hexValue?, hle '9' (by decide), hle 'f' (by decide), hle 'F' (by decide)]

theorem readUnit_eq {a b c d : Char} (h : ∀ x ∈ [a, b, c, d], IsDigit 16 x) :
    readUnit a b c d = some (value 16 [a, b, c, d]) := by
  simp only [List.forall_mem_cons, List.not_mem_nil, false_implies, implies_true, and_true] at h
  obtain ⟨⟨w, hw⟩, ⟨x, hx⟩, ⟨y, hy⟩, z, hz⟩ := h
  simp [readUnit, hexValue?_eq, hw, hx, hy, hz, value]
  omega

theorem readString_append {body : List Char} {pieces : Pieces} (h : Body body pieces)
    (rest : List Char) : readString (body ++ '"' :: rest) = some (pieces, rest) := by
  induction h with
  | nil => rfl
  | @plain c more pieces hprintable _ hescape _ ih =>
    rw [List.cons_append, readString.eq_def]
    simp [hescape, hprintable, ih]
  | @escape e c more pieces hknown _ ih =>
    simp only [shortEscapes, List.mem_cons, Prod.mk.injEq, List.not_mem_nil, or_false] at hknown
    rcases hknown with ⟨rfl, rfl⟩ | ⟨rfl, rfl⟩ | ⟨rfl, rfl⟩ | ⟨rfl, rfl⟩ | ⟨rfl, rfl⟩ | ⟨rfl, rfl⟩ |
      ⟨rfl, rfl⟩ | ⟨rfl, rfl⟩ <;> simp [readString, unescape?, ih]
  | unit hdigits _ ih =>
    simp [readString, readUnit_eq hdigits, ih]

/-! ## Reading values -/

variable {v : Value} {fuel : Nat}

theorem Number.head (h : Number text) : ∃ c rest, text = c :: rest ∧ (c = '-' ∨ isDigit c) := by
  cases h with
  | @parts sign whole fraction exponent hsign hwhole =>
    obtain ⟨c, ds, rfl, hc⟩ := hwhole.head
    rcases hsign with rfl | rfl
    · exact ⟨c, _, rfl, .inr hc⟩
    · exact ⟨'-', _, rfl, .inl rfl⟩

theorem IsValue.head (h : IsValue text v) :
    ∃ c rest, text = c :: rest ∧ isSpace c = false ∧ c ≠ ']' := by
  cases h with
  | number hnumber =>
    obtain ⟨c, rest, rfl, hc⟩ := hnumber.head
    refine ⟨c, rest, rfl, ?_, ?_⟩
    · by_contra hspace
      simp only [isSpace, Bool.not_eq_false, Bool.or_eq_true, beq_iff_eq] at hspace
      rcases hspace with ((rfl | rfl) | rfl) | rfl <;> simp [isDigit] at hc
    · rintro rfl
      simp [isDigit] at hc
  | _ => exact ⟨_, _, rfl, rfl, by decide⟩

theorem IsElement.skipSpace (h : IsElement text v) :
    ∃ c, c ≠ ']' ∧ ∀ rest, c ∈ (skipSpace (text ++ rest)).head? := by
  cases h with
  | mk hfront hvalue _ =>
    obtain ⟨c, more, rfl, hspace, hc⟩ := hvalue.head
    refine ⟨c, hc, fun rest => ?_⟩
    rw [List.append_assoc, skipSpace_blank hfront, List.cons_append, List.cons_append,
      skipSpace_head hspace]
    rfl

theorem IsItems.skipSpace {items : List Value} (h : IsItems text items) :
    ∃ c, c ≠ ']' ∧ ∀ rest, c ∈ (skipSpace (text ++ rest)).head? := by
  cases h with
  | last only => exact only.skipSpace
  | more first others =>
    obtain ⟨c, hc, hhead⟩ := first.skipSpace
    refine ⟨c, hc, fun rest => ?_⟩
    rw [List.append_assoc]
    exact hhead _

theorem IsMembers.skipSpace {members : List (Pieces × Value)} (h : IsMembers text members)
    (rest : List Char) : '"' ∈ (skipSpace (text ++ rest)).head? := by
  have hmember : ∀ {text member}, IsMember text member → ∀ rest,
      '"' ∈ (Json.skipSpace (text ++ rest)).head? := by
    rintro text member ⟨hfront, _, _, _⟩ rest
    rw [List.append_assoc, skipSpace_blank hfront, List.cons_append, skipSpace_head rfl]
    rfl
  cases h with
  | last only => exact hmember only rest
  | more first others =>
    rw [List.append_assoc]
    exact hmember first _

theorem readValue_blank (h : Blank before) (fuel : Nat) (text : List Char) :
    readValue fuel (before ++ text) = readValue fuel text := by
  cases fuel with
  | zero => rfl
  | succ fuel => simp only [readValue, skipSpace_blank h]

theorem readValue_number (hc : c = '-' ∨ isDigit c) (hspace : isSpace c = false) :
    readValue (fuel + 1) (c :: rest) =
      (readNumber (c :: rest)).map fun (digits, rest) => (.number digits, rest) := by
  unfold readValue
  rw [skipSpace_head hspace]
  split
  all_goals first
    | rfl
    | rename_i h
      obtain ⟨rfl, -⟩ := List.cons.inj h
      simp [isDigit] at hc

theorem readValue_array (hc : c ≠ ']') (hskip : c ∈ (skipSpace text).head?) :
    readValue (fuel + 1) ('[' :: text) =
      (readItems fuel text).map fun (items, rest) => (.array items, rest) := by
  have hhead : skipSpace ('[' :: text) = '[' :: text := skipSpace_head rfl text
  simp only [readValue, hhead]
  split
  · rename_i rest hend
    rw [hend] at hskip
    exact absurd (Option.some.inj hskip).symm hc
  · rfl

theorem readValue_object (hskip : '"' ∈ (skipSpace text).head?) :
    readValue (fuel + 1) ('\x7b' :: text) =
      (readMembers fuel text).map fun (members, rest) => (.object members, rest) := by
  have hhead : skipSpace ('\x7b' :: text) = '\x7b' :: text := skipSpace_head rfl text
  simp only [readValue, hhead]
  split
  · rename_i rest hend
    rw [hend] at hskip
    exact absurd (Option.some.inj hskip) (by decide)
  · rfl

/-! ### With enough fuel -/

def ReadsValues (fuel : Nat) : Prop := ∀ text v rest, IsValue text v → text.length ≤ fuel →
  Follows rest → readValue fuel (text ++ rest) = some (v, rest)

def ReadsItems (fuel : Nat) : Prop := ∀ text items rest, IsItems text items →
  text.length < fuel → readItems fuel (text ++ ']' :: rest) = some (items, rest)

def ReadsMembers (fuel : Nat) : Prop := ∀ text members rest, IsMembers text members →
  text.length < fuel → readMembers fuel (text ++ '\x7d' :: rest) = some (members, rest)

theorem follows_blank (h : Blank text) (hrest : Follows rest) : Follows (text ++ rest) := by
  cases text with
  | nil => exact hrest
  | cons c more =>
    intro d hd
    obtain rfl : c = d := Option.some.inj hd
    exact .inl (h c List.mem_cons_self)

theorem follows_closing (hc : c = ',' ∨ c = ']' ∨ c = '\x7d') (rest : List Char) :
    Follows (c :: rest) := by
  intro d hd
  obtain rfl : c = d := Option.some.inj hd
  exact .inr hc

theorem ReadsValues.element (h : ReadsValues fuel) (helement : IsElement text v)
    (hfuel : text.length ≤ fuel) (hc : c = ',' ∨ c = ']' ∨ c = '\x7d') (rest : List Char) :
    ∃ more, readValue fuel (text ++ c :: rest) = some (v, more) ∧ skipSpace more = c :: rest := by
  cases helement with
  | @mk before text after _ hfront hvalue hback =>
    have hspace : isSpace c = false := by rcases hc with rfl | rfl | rfl <;> rfl
    have hfollows := follows_blank hback (follows_closing hc rest)
    refine ⟨after ++ c :: rest, ?_, ?_⟩
    · simp only [List.length_append] at hfuel
      rw [List.append_assoc, List.append_assoc, readValue_blank hfront]
      exact h text v _ hvalue (by omega) hfollows
    · rw [skipSpace_blank hback, skipSpace_head hspace]

theorem ReadsValues.member (h : ReadsValues fuel) {key : Pieces} (hmember : IsMember text (key, v))
    (hfuel : text.length ≤ fuel) (hc : c = ',' ∨ c = ']' ∨ c = '\x7d') (rest : List Char) :
    ∃ afterQuote afterKey afterColon more, skipSpace (text ++ c :: rest) = '"' :: afterQuote ∧
      readString afterQuote = some (key, afterKey) ∧ skipSpace afterKey = ':' :: afterColon ∧
      readValue fuel afterColon = some (v, more) ∧ skipSpace more = c :: rest := by
  cases hmember with
  | @mk before body between text _ _ hfront hname hmiddle hvalue =>
    simp only [List.length_cons, List.length_append] at hfuel
    obtain ⟨more, hread, hskip⟩ := h.element hvalue (by omega) hc rest
    refine ⟨body ++ '"' :: (between ++ ':' :: (text ++ c :: rest)),
      between ++ ':' :: (text ++ c :: rest), text ++ c :: rest, more, ?_, readString_append hname _,
      ?_, hread, hskip⟩
    · rw [List.append_assoc, skipSpace_blank hfront, List.cons_append, skipSpace_head rfl]
      simp only [List.append_assoc, List.cons_append]
    · rw [skipSpace_blank hmiddle, skipSpace_head rfl]

theorem readsValues_succ (hitems : ReadsItems fuel) (hmembers : ReadsMembers fuel) :
    ReadsValues (fuel + 1) := by
  intro text v rest hvalue hfuel hrest
  cases hvalue with
  | null => simp [readValue, skipSpace, isSpace, readWord]
  | isTrue => simp [readValue, skipSpace, isSpace, readWord]
  | isFalse => simp [readValue, skipSpace, isSpace, readWord]
  | number hnumber =>
    obtain ⟨c, more, rfl, hspace, -⟩ := (IsValue.number hnumber).head
    obtain ⟨c', more', hsame, hc⟩ := hnumber.head
    obtain ⟨rfl, rfl⟩ := List.cons.inj hsame
    rw [List.cons_append, readValue_number hc hspace, ← List.cons_append,
      readNumber_append hnumber hrest]
    rfl
  | @string body pieces hbody =>
    have hread := readString_append hbody rest
    simp [readValue, skipSpace, isSpace, hread]
  | @emptyArray blank hblank =>
    have hend : skipSpace (blank ++ ']' :: rest) = ']' :: rest := by
      rw [skipSpace_blank hblank, skipSpace_head rfl]
    simp [readValue, skipSpace_head, isSpace, hend]
  | @array more items hsome =>
    obtain ⟨c, hc, hhead⟩ := hsome.skipSpace
    simp only [List.length_cons, List.length_append, List.length_nil] at hfuel
    rw [List.cons_append, List.append_assoc, readValue_array hc (hhead _)]
    rw [List.singleton_append, hitems more items rest hsome (by omega)]
    rfl
  | @emptyObject blank hblank =>
    have hend : skipSpace (blank ++ '\x7d' :: rest) = '\x7d' :: rest := by
      rw [skipSpace_blank hblank, skipSpace_head rfl]
    simp [readValue, skipSpace_head, isSpace, hend]
  | @object more members hsome =>
    simp only [List.length_cons, List.length_append, List.length_nil] at hfuel
    rw [List.cons_append, List.append_assoc, readValue_object (hsome.skipSpace _)]
    rw [List.singleton_append, hmembers more members rest hsome (by omega)]
    rfl

theorem readsItems_succ (hvalues : ReadsValues fuel) (hitems : ReadsItems fuel) :
    ReadsItems (fuel + 1) := by
  intro text items rest h hfuel
  cases h with
  | last only =>
    obtain ⟨more, hread, hskip⟩ := hvalues.element only (by omega) (.inr (.inl rfl)) rest
    simp [readItems, hread, hskip]
  | @more text others v items first hothers =>
    simp only [List.length_cons, List.length_append] at hfuel
    obtain ⟨more, hread, hskip⟩ :=
      hvalues.element first (by omega) (.inl rfl) (others ++ ']' :: rest)
    have hmore := hitems others items rest hothers (by omega)
    simp [readItems, hread, hskip, hmore]

theorem readsMembers_succ (hvalues : ReadsValues fuel) (hmembers : ReadsMembers fuel) :
    ReadsMembers (fuel + 1) := by
  intro text members rest h hfuel
  cases h with
  | @last _ member only =>
    obtain ⟨key, v⟩ := member
    obtain ⟨_, _, _, _, hquote, hkey, hcolon, hread, hskip⟩ :=
      hvalues.member only (by omega) (.inr (.inr rfl)) rest
    simp [readMembers, hquote, hkey, hcolon, hread, hskip]
  | @more text others member members first hothers =>
    obtain ⟨key, v⟩ := member
    simp only [List.length_cons, List.length_append] at hfuel
    obtain ⟨_, _, _, _, hquote, hkey, hcolon, hread, hskip⟩ :=
      hvalues.member first (by omega) (.inl rfl) (others ++ '\x7d' :: rest)
    have hmore := hmembers others members rest hothers (by omega)
    simp [readMembers, hquote, hkey, hcolon, hread, hskip, hmore]

/-- The induction is on the fuel, of which each call leaves one less for those that it makes. -/
theorem reads_of_fuel (fuel : Nat) : ReadsValues fuel ∧ ReadsItems fuel ∧ ReadsMembers fuel := by
  induction fuel with
  | zero =>
    refine ⟨?_, fun _ _ _ _ hfuel => absurd hfuel (by simp), fun _ _ _ _ hfuel =>
      absurd hfuel (by simp)⟩
    intro text v rest hvalue hfuel _
    obtain ⟨c, more, rfl, -⟩ := hvalue.head
    simp at hfuel
  | succ fuel ih =>
    obtain ⟨hvalues, hitems, hmembers⟩ := ih
    exact ⟨readsValues_succ hitems hmembers, readsItems_succ hvalues hitems,
      readsMembers_succ hvalues hmembers⟩

/-- Every text that the grammar has is read as its value. -/
theorem parse_of_isElement (h : IsElement text v) : parse text = some v := by
  cases h with
  | @mk before text after _ hfront hvalue hback =>
    have hrest : Follows (after ++ []) := follows_blank hback (by simp [Follows])
    have hread := (reads_of_fuel (2 * (before ++ (text ++ after)).length + 2)).1 text v after hvalue
      (by simp only [List.length_append]; omega) (by simpa using hrest)
    have hend : skipSpace after = [] := List.dropWhile_eq_nil_iff.2 hback
    rw [parse, readValue_blank hfront, hread]
    simp [hend]

end RecordStore.Json
