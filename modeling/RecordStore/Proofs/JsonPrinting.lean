import Mathlib.Data.List.Forall2
import RecordStore.Json.Printer
import RecordStore.Proofs.JsonGrammar

/-!
# What is printed is JSON

The printed forms of strings, words, flags and objects are in the grammar, and what is read from
them are the characters, the numbers and the members that were printed.
-/

namespace RecordStore.Json

open Numeral

/-! ## Strings -/

/-- A string as it is read from its printed form, without surrogates. -/
def plainPieces (text : String) : Pieces := text.toList.map .char

@[simp] theorem text?_plainPieces (text : String) : text? (plainPieces text) = some text := by
  have hcharacters : ∀ cs : List Char, characters? (cs.map .char) = some cs := by
    intro cs
    induction cs with
    | nil => rfl
    | cons c cs ih => simp [characters?, ih]
  simp [text?, plainPieces, hcharacters]

variable {rest : List Char} {pieces : Pieces}

theorem body_control {n : Nat} (hn : n < 0x20) (h : Body rest pieces) :
    Body (['\\', 'u'] ++ Hex.padded 4 n ++ rest) (.char (Char.ofNat n) :: pieces) := by
  have hpadded : ∀ n < 0x20,
      Hex.padded 4 n = ['0', '0', (n / 16).digitChar, (n % 16).digitChar] := by
    decide +kernel
  have hunit : ∀ n < 0x20, Piece.ofUnit n = .char (Char.ofNat n) := by decide +kernel
  have hzero : digitValue? 16 '0' = some 0 := by decide
  have hhigh : digitValue? 16 (n / 16).digitChar = some (n / 16) :=
    digitValue?_digitChar (by omega) (by omega)
  have hlow : digitValue? 16 (n % 16).digitChar = some (n % 16) :=
    digitValue?_digitChar (by omega) (by omega)
  have hvalue : value 16 ['0', '0', (n / 16).digitChar, (n % 16).digitChar] = n := by
    simp [value, hzero, hhigh, hlow]
    omega
  have hdigits : ∀ x ∈ ['0', '0', (n / 16).digitChar, (n % 16).digitChar], IsDigit 16 x := by
    simpa using ⟨⟨0, hzero⟩, ⟨_, hhigh⟩, _, hlow⟩
  have hbody := Body.unit hdigits h
  rw [hvalue, hunit n hn] at hbody
  rw [hpadded n hn]
  exact hbody

theorem body_escape (c : Char) (h : Body rest pieces) :
    Body (escape c ++ rest) (.char c :: pieces) := by
  have hshort : ∀ e c, (e, c) ∈ shortEscapes → Body (['\\', e] ++ rest) (.char c :: pieces) :=
    fun e c hknown => .escape hknown h
  unfold escape
  split_ifs with hquote hescape hback hfeed hline hreturn htab hcontrol
  · exact hquote ▸ hshort '"' '"' (by decide)
  · exact hescape ▸ hshort '\\' '\\' (by decide)
  · exact hback ▸ hshort 'b' '\x08' (by decide)
  · exact hfeed ▸ hshort 'f' '\x0c' (by decide)
  · exact hline ▸ hshort 'n' '\n' (by decide)
  · exact hreturn ▸ hshort 'r' '\r' (by decide)
  · exact htab ▸ hshort 't' '\t' (by decide)
  · have hbody := body_control hcontrol h
    rwa [Char.ofNat_toNat] at hbody
  · exact .plain (Nat.le_of_not_lt hcontrol) hquote hescape h

theorem body_plain (text : String) : Body (text.toList.flatMap escape) (plainPieces text) := by
  unfold plainPieces
  induction text.toList with
  | nil => exact .nil
  | cons c cs ih =>
    rw [List.flatMap_cons, List.map_cons]
    exact body_escape c ih

theorem isValue_quoted (text : String) : IsValue (quoted text) (.string (plainPieces text)) :=
  .string (body_plain text)

/-! ## Words and flags -/

theorem isDigit_of_mem_ofWord {n : UInt64} {c : Char} (hc : c ∈ ofWord n) : isDigit c := by
  have hdigit : ∀ d < 10, isDigit d.digitChar := by decide
  obtain ⟨d, hd, rfl⟩ := exists_digit_of_mem_toDigits (by omega) hc
  exact hdigit d hd

theorem exists_first_digit {n : Nat} (hn : 0 < n) :
    ∃ c rest, Nat.toDigits 10 n = c :: rest ∧ c ≠ '0' := by
  have hnonzero : ∀ d < 10, 0 < d → d.digitChar ≠ '0' := by decide
  induction n using Nat.strongRecOn with
  | _ n ih =>
    rw [Nat.toDigits_eq_if (by omega)]
    split
    · rename_i hsmall
      exact ⟨_, [], rfl, hnonzero n hsmall hn⟩
    · obtain ⟨c, rest, hdigits, hc⟩ := ih (n / 10) (by omega) (by omega)
      rw [hdigits]
      exact ⟨c, _, rfl, hc⟩

theorem isValue_ofWord (n : UInt64) : IsValue (ofWord n) (.number (ofWord n)) := by
  have hwhole : Whole (ofWord n) := by
    rcases Nat.eq_zero_or_pos n.toNat with hzero | hpos
    · rw [ofWord, hzero]
      exact .zero
    · obtain ⟨c, rest, hdigits, hc⟩ := exists_first_digit hpos
      have hall : ∀ d ∈ c :: rest, isDigit d := fun d hd =>
        isDigit_of_mem_ofWord (n := n) (by rwa [ofWord, hdigits])
      rw [ofWord, hdigits]
      exact .digits hc ⟨by simp, hall⟩
  have hnumber := Number.parts (.inl rfl) hwhole .none .none
  rw [List.nil_append, List.append_nil, List.append_nil] at hnumber
  exact .number hnumber

theorem foldl_toDigits (n : Nat) :
    (Nat.toDigits 10 n).foldl (fun acc c => acc * 10 + (c.toNat - '0'.toNat)) 0 = n := by
  have hdigit : ∀ d < 10, d.digitChar.toNat - '0'.toNat = d := by decide
  induction n using Nat.strongRecOn with
  | _ n ih =>
    rw [Nat.toDigits_eq_if (by omega)]
    split
    · rename_i hsmall
      simp only [List.foldl_cons, List.foldl_nil, Nat.zero_mul, Nat.zero_add]
      exact hdigit n hsmall
    · rw [List.foldl_append, ih (n / 10) (by omega)]
      simp only [List.foldl_cons, List.foldl_nil, hdigit (n % 10) (by omega)]
      omega

@[simp] theorem word?_ofWord (n : UInt64) : (Value.number (ofWord n)).word? = some n := by
  have hall : ((ofWord n).all fun c => '0' ≤ c && c ≤ '9') = true :=
    List.all_eq_true.2 fun c hc => isDigit_of_mem_ofWord hc
  have hfits : n.toNat ≤ maxWord := Nat.le_sub_one_of_lt n.toNat_lt_size
  rw [Value.word?, wordOfDigits?, if_pos hall, ofWord, foldl_toDigits]
  simp [hfits]

theorem isValue_ofBool (b : Bool) : IsValue (ofBool b) (.bool b) := by
  cases b with
  | true => exact .isTrue
  | false => exact .isFalse

/-! ## Objects -/

theorem blank_nil : Blank [] := by simp [Blank]

theorem IsValue.element {text : List Char} {v : Value} (h : IsValue text v) : IsElement text v := by
  have helement := IsElement.mk blank_nil h blank_nil
  rwa [List.nil_append, List.append_nil] at helement

theorem isMember_printed {text : List Char} {v : Value} (key : String) (h : IsValue text v) :
    IsMember (quoted key ++ ':' :: text) (plainPieces key, v) := by
  have hmember := IsMember.mk blank_nil (body_plain key) blank_nil h.element
  simpa [quoted] using hmember

/-- A printed member, and what is read from it. -/
def Prints (member : String × Layout) (v : Pieces × Value) : Prop :=
  v.1 = plainPieces member.1 ∧ IsValue (compact member.2) v.2

/-- An object is printed as its members, each of them as its key and its value. -/
theorem isValue_object {members : List (String × Layout)} {values : List (Pieces × Value)}
    (h : List.Forall₂ Prints members values) :
    IsValue (compact (.object members)) (.object values) := by
  have hmember : ∀ {member v}, Prints member v →
      IsMember (quoted member.1 ++ ':' :: compact member.2) v := by
    rintro member ⟨key, v⟩ ⟨rfl, hvalue⟩
    exact isMember_printed member.1 hvalue
  have hmembers : ∀ {members values}, List.Forall₂ Prints members values → members ≠ [] →
      IsMembers (commas (compactMembers members)) values := by
    intro members values hall hsome
    induction hall with
    | nil => exact absurd rfl hsome
    | @cons member v more others hfirst hmore ih =>
      cases hmore with
      | nil => exact .last (hmember hfirst)
      | cons => exact .more (hmember hfirst) (ih (by simp))
  cases h with
  | nil => exact .emptyObject blank_nil
  | cons hfirst hmore => exact .object (hmembers (.cons hfirst hmore) (by simp))

end RecordStore.Json
