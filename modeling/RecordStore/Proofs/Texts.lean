import RecordStore.Address
import RecordStore.Proofs.Numerals
import RecordStore.Text.Utf8

/-!
# Texts that read back

What is written as text is read back as it was: addresses in both of their spellings, payloads in
hexadecimal digits, and payloads in UTF-8.
-/

namespace RecordStore

/-! ## Addresses -/

namespace Address

open Numeral

variable (a : Address)

theorem ofText_hex : ofText a.text.toList = .ok a := by
  have hread : Numeral.read 16 (UInt64.size - 1) (Hex.padded 16 a.raw.toNat) =
      .ok a.raw.toNat :=
    read_toDigits (by omega) (by omega) (Nat.le_sub_one_of_lt a.raw.toNat_lt_size) _
  have htext : a.text.toList = '0' :: 'x' :: Hex.padded 16 a.raw.toNat := by
    simp [text, Hex.prefixed]
  unfold ofText
  rw [htext]
  change (Numeral.read 16 (UInt64.size - 1) (Hex.padded 16 a.raw.toNat)).map _ = _
  rw [hread]
  simp [Except.map]

/-- The decimal spelling has no `x` in it, so it is not taken for the other one. -/
theorem ofText_decimal : ofText (toString a.raw.toNat).toList = .ok a := by
  have hread : Numeral.read 10 (UInt64.size - 1) (Nat.toDigits 10 a.raw.toNat) =
      .ok a.raw.toNat :=
    read_toDigits (by omega) (by omega) (Nat.le_sub_one_of_lt a.raw.toNat_lt_size) 0
  have htext : (toString a.raw.toNat).toList = Nat.toDigits 10 a.raw.toNat := by
    rw [Nat.toString_eq_repr, Nat.repr_eq_ofList_toDigits, String.toList_ofList]
  unfold ofText
  rw [htext]
  split
  · rename_i digits hx
    have hmem : 'x' ∈ Nat.toDigits 10 a.raw.toNat := by simp [hx]
    obtain ⟨d, hd⟩ := digitValue?_of_mem_toDigits (by omega) (by omega) hmem
    exact absurd hd (by simp [digitValue?])
  · rw [hread]
    simp [Except.map]

end Address

/-! ## Payloads in hexadecimal digits -/

namespace Hex

open Numeral

variable {a b c : Char} {x y n : Nat} {text : List Char}

def isDigit (c : Char) : Bool :=
  ('0' ≤ c && c ≤ '9') || ('a' ≤ c && c ≤ 'f') || ('A' ≤ c && c ≤ 'F')

theorem toNat_lt_of_isDigit (h : isDigit c) : c.toNat < 128 := by
  have hle : ∀ b : Char, b.toNat < 128 → c ≤ b → c.toNat < 128 := fun b hb hcb =>
    Nat.lt_of_le_of_lt (UInt32.le_iff_toNat_le.1 (Char.le_def.1 hcb)) hb
  simp only [isDigit, Bool.or_eq_true, Bool.and_eq_true, decide_eq_true_eq] at h
  rcases h with (h | h) | h
  · exact hle '9' (by decide) h.2
  · exact hle 'f' (by decide) h.2
  · exact hle 'F' (by decide) h.2

theorem isDigit_iff : isDigit c ↔ IsDigit 16 c :=
  isDigit_iff_of_ascii (fun _ => toNat_lt_of_isDigit) (by decide +kernel)

theorem digitChar_eq_toLower (h : digitValue? 16 c = some x) : x.digitChar = c.toLower := by
  have hascii : ∀ n < 128, ∀ x < 16, digitValue? 16 (Char.ofNat n) = some x →
      x.digitChar = (Char.ofNat n).toLower := by
    decide +kernel
  have hlower := hascii c.toNat (toNat_lt_of_digitValue? h) x (digitValue?_lt h)
  rw [Char.ofNat_toNat] at hlower
  exact hlower h

theorem padded_pair (hx : x < 16) (hy : y < 16) :
    padded 2 (16 * x + y) = [x.digitChar, y.digitChar] := by
  unfold padded
  rcases Nat.eq_zero_or_pos x with rfl | hpos
  · rw [Nat.mul_zero, Nat.zero_add, Nat.toDigits_of_lt_base hy]
    rfl
  · rw [← Nat.toDigits_append_toDigits (by omega) hpos hy, Nat.toDigits_of_lt_base hx,
      Nat.toDigits_of_lt_base hy]
    rfl

/-- A pair is read when both are digits. A sign may stand for the first one, as it may before any
numeral. -/
theorem read_pair : Numeral.read 16 255 [a, b] = .ok n ↔
    ∃ x y, (digitValue? 16 a = some x ∨ a = '+' ∧ x = 0) ∧ digitValue? 16 b = some y ∧
      16 * x + y = n := by
  rw [read_ok]
  constructor
  · rintro ⟨⟨sign, digits, htext, rfl | rfl, -, hdigits, rfl⟩, -⟩
    · obtain rfl : [a, b] = digits := htext
      obtain ⟨x, hx⟩ := hdigits a (by simp)
      obtain ⟨y, hy⟩ := hdigits b (by simp)
      refine ⟨x, y, .inl hx, hy, ?_⟩
      simp [value, hx, hy, Nat.mul_comm]
    · obtain ⟨rfl, rfl⟩ : a = '+' ∧ digits = [b] := by simpa [eq_comm] using htext
      obtain ⟨y, hy⟩ := hdigits b (by simp)
      refine ⟨0, y, .inr ⟨rfl, rfl⟩, hy, ?_⟩
      simp [value, hy]
  · rintro ⟨x, y, hfirst, hy, rfl⟩
    have hy' := digitValue?_lt hy
    rcases hfirst with hx | ⟨rfl, rfl⟩
    · have hx' := digitValue?_lt hx
      refine ⟨⟨[], [a, b], rfl, .inl rfl, by simp, ?_, ?_⟩, by omega⟩
      · simpa using ⟨⟨x, hx⟩, y, hy⟩
      · simp [value, hx, hy, Nat.mul_comm]
    · refine ⟨⟨['+'], [b], rfl, .inr rfl, by simp, ?_, ?_⟩, by omega⟩
      · simpa using ⟨y, hy⟩
      · simp [value, hy]

def Paired : List Char → Prop
  | [] => True
  | [_] => False
  | a :: b :: rest => (isDigit a ∨ a = '+') ∧ isDigit b ∧ Paired rest

/-- A character of a pair as it is written back; a sign counts for nothing. -/
def plain (c : Char) : Char := if c = '+' then '0' else c.toLower

theorem not_isDigit_plus : ¬ isDigit '+' := by decide

theorem plain_of_digit (h : isDigit c) : plain c = c.toLower := by
  apply if_neg
  rintro rfl
  exact not_isDigit_plus h

theorem plain_first (h : digitValue? 16 a = some x ∨ a = '+' ∧ x = 0) :
    plain a = x.digitChar := by
  rcases h with hx | ⟨rfl, rfl⟩
  · rw [plain_of_digit (isDigit_iff.2 ⟨x, hx⟩), digitChar_eq_toLower hx]
  · rfl

theorem paired_of_digits (heven : text.length % 2 = 0) (hdigits : ∀ c ∈ text, isDigit c) :
    Paired text := by
  fun_induction Paired text with
  | case1 => trivial
  | case2 => simp at heven
  | case3 a b rest ih =>
    have heven' : rest.length % 2 = 0 := by
      simp only [List.length_cons] at heven
      omega
    exact ⟨.inl (hdigits a (by simp)), hdigits b (by simp),
      ih heven' fun c hc => hdigits c (by simp [hc])⟩

theorem decodePairs_of_paired (acc : Bytes) (position : Nat) (h : Paired text) : ∃ bytes,
    decodePairs acc position text = .ok (acc.reverse ++ bytes) ∧
      encode bytes = text.map plain := by
  fun_induction Paired text generalizing acc position with
  | case1 => exact ⟨[], by simp [decodePairs], rfl⟩
  | case2 => exact h.elim
  | case3 a b rest ih =>
    obtain ⟨hfirst, hsecond, hrest⟩ := h
    obtain ⟨x, hx⟩ : ∃ x, digitValue? 16 a = some x ∨ a = '+' ∧ x = 0 := by
      rcases hfirst with hdigit | hsign
      · obtain ⟨x, hx⟩ := isDigit_iff.1 hdigit
        exact ⟨x, .inl hx⟩
      · exact ⟨0, .inr ⟨hsign, rfl⟩⟩
    have hx' : x < 16 := by
      rcases hx with hx | ⟨-, rfl⟩
      · exact digitValue?_lt hx
      · decide
    obtain ⟨y, hy⟩ := isDigit_iff.1 hsecond
    have hy' := digitValue?_lt hy
    have hvalue : (UInt8.ofNat (16 * x + y)).toNat = 16 * x + y :=
      UInt8.toNat_ofNat_of_lt' (by change _ < 256; omega)
    obtain ⟨bytes, hbytes, htext⟩ :=
      ih (UInt8.ofNat (16 * x + y) :: acc) (position + 2) hrest
    refine ⟨UInt8.ofNat (16 * x + y) :: bytes, ?_, ?_⟩
    · rw [decodePairs, read_pair.2 ⟨x, y, hx, hy, rfl⟩]
      dsimp only
      rw [hbytes, List.reverse_cons, List.append_assoc]
      rfl
    · rw [encode, List.flatMap_cons, hvalue, padded_pair hx' hy', ← plain_first hx,
        digitChar_eq_toLower hy, ← plain_of_digit hsecond]
      simpa [encode] using htext

theorem encodeText_of_decode {bytes : Bytes} (hdigits : ∀ c ∈ text, isDigit c)
    (h : decode text = .ok bytes) : encodeText bytes = String.ofList (text.map Char.toLower) := by
  unfold decode at h
  split at h
  · cases h
  · split at h
    · cases h
    · rename_i heven
      obtain ⟨bytes', hbytes, htext⟩ :=
        decodePairs_of_paired [] 0 (paired_of_digits (Decidable.not_not.1 heven) hdigits)
      rw [hbytes] at h
      obtain rfl := Except.ok.inj h
      rw [encodeText]
      refine congrArg String.ofList (htext.trans ?_)
      exact List.map_congr_left fun c hc => plain_of_digit (hdigits c hc)

end Hex

/-! ## Payloads in UTF-8 -/

namespace Utf8

theorem readTails_cons {acc count low high b : Nat} (hlow : low ≤ b) (hhigh : b ≤ high)
    (hb : b < 256) (rest : Bytes) :
    readTails acc (count + 1) low high (UInt8.ofNat b :: rest) =
      readTails (acc * 64 + (b - 0x80)) count 0x80 0xBF rest := by
  have hbyte : (UInt8.ofNat b).toNat = b := UInt8.toNat_ofNat_of_lt' hb
  rw [readTails, hbyte, if_pos ⟨hlow, hhigh⟩]

theorem next_of_lead {b : Nat} {lead : Lead} (hb : b < 256) (h : lead? b = some lead)
    (rest : Bytes) :
    next (UInt8.ofNat b) rest = readTails lead.bits lead.tails lead.low lead.high rest := by
  have hbyte : (UInt8.ofNat b).toNat = b := UInt8.toNat_ofNat_of_lt' hb
  rw [next, hbyte, h]

theorem lead?_three {n : Nat} (hlow : 0x800 ≤ n) (hhigh : n ≤ 0xFFFF)
    (hvalid : n < 0xD800 ∨ 0xDFFF < n) : ∃ low high,
      lead? (n / 4096 % 16 + 224) = some ⟨n / 4096 % 16, 2, low, high⟩ ∧
      low ≤ n / 64 % 64 + 128 ∧ n / 64 % 64 + 128 ≤ high := by
  unfold lead?
  by_cases hfirst : n / 4096 = 0
  · exact ⟨0xA0, 0xBF, by simp [hfirst], by omega, by omega⟩
  · by_cases hsurrogates : n / 4096 = 13
    · exact ⟨0x80, 0x9F, by simp [hsurrogates], by omega, by omega⟩
    · refine ⟨0x80, 0xBF, ?_, by omega, by omega⟩
      rw [if_neg (by omega), if_neg (by omega), if_neg (by omega), if_neg (by omega),
        if_neg (by omega), if_pos (by omega)]
      simp

theorem lead?_four {n : Nat} (hlow : 0xFFFF < n) (hhigh : n < 0x110000) : ∃ low high,
    lead? (n / 262144 % 8 + 240) = some ⟨n / 262144 % 8, 3, low, high⟩ ∧
      low ≤ n / 4096 % 64 + 128 ∧ n / 4096 % 64 + 128 ≤ high := by
  unfold lead?
  by_cases hfirst : n / 262144 = 0
  · exact ⟨0x90, 0xBF, by simp [hfirst], by omega, by omega⟩
  · by_cases hlast : n / 262144 = 4
    · exact ⟨0x80, 0x8F, by simp [hlast], by omega, by omega⟩
    · refine ⟨0x80, 0xBF, ?_, by omega, by omega⟩
      rw [if_neg (by omega), if_neg (by omega), if_neg (by omega), if_neg (by omega),
        if_neg (by omega), if_neg (by omega), if_neg (by omega), if_pos (by omega)]
      simp

theorem next_of_char (c : Char) (rest : Bytes) :
    ∃ b tail, String.utf8EncodeChar c = b :: tail ∧
      next b (tail ++ rest) = (some c.toNat, rest) := by
  have hvalid : c.val.toNat < 0xD800 ∨ 0xDFFF < c.val.toNat ∧ c.val.toNat < 0x110000 := c.valid
  unfold String.utf8EncodeChar Char.toNat
  dsimp only
  generalize c.val.toNat = n at hvalid ⊢
  split
  · refine ⟨_, _, rfl, ?_⟩
    have hlead : lead? n = some ⟨n, 0, 0x80, 0xBF⟩ := if_pos (by omega)
    rw [next_of_lead (by omega) hlead]
    rfl
  · split
    · refine ⟨_, _, rfl, ?_⟩
      have hlead : lead? (n / 64 % 32 + 192) = some ⟨n / 64 % 32, 1, 0x80, 0xBF⟩ := by
        unfold lead?
        rw [if_neg (by omega), if_neg (by omega), if_pos (by omega)]
        simp
      have htail : 0x80 ≤ n % 64 + 128 ∧ n % 64 + 128 ≤ 0xBF := by omega
      rw [next_of_lead (by omega) hlead, List.cons_append,
        readTails_cons htail.1 htail.2 (by omega)]
      simp only [readTails, List.nil_append, Prod.mk.injEq, Option.some.injEq, and_true]
      omega
    · split
      · refine ⟨_, _, rfl, ?_⟩
        obtain ⟨low, high, hlead, hlow, hhigh⟩ :=
          lead?_three (n := n) (by omega) (by omega) (by omega)
        rw [next_of_lead (by omega) hlead, List.cons_append,
          readTails_cons hlow hhigh (by omega), List.cons_append,
          readTails_cons (by omega) (by omega) (by omega)]
        simp only [readTails, List.nil_append, Prod.mk.injEq, Option.some.injEq, and_true]
        omega
      · refine ⟨_, _, rfl, ?_⟩
        obtain ⟨low, high, hlead, hlow, hhigh⟩ := lead?_four (n := n) (by omega) (by omega)
        rw [next_of_lead (by omega) hlead, List.cons_append,
          readTails_cons hlow hhigh (by omega), List.cons_append,
          readTails_cons (by omega) (by omega) (by omega), List.cons_append,
          readTails_cons (by omega) (by omega) (by omega)]
        simp only [readTails, List.nil_append, Prod.mk.injEq, Option.some.injEq, and_true]
        omega

theorem decodeOnto_encode (text acc : List Char) :
    decodeOnto acc (encode text) = acc.reverse ++ text := by
  induction text generalizing acc with
  | nil => simp [encode, decodeOnto]
  | cons c text ih =>
    obtain ⟨b, tail, hchar, hnext⟩ := next_of_char c (encode text)
    have hbytes : encode (c :: text) = b :: (tail ++ encode text) := by
      simp [encode, hchar]
    rw [hbytes, decodeOnto, hnext]
    simp [ih, Char.ofNat_toNat]

theorem decodeLossy_encode (text : String) : decodeLossy (encode text.toList) = text := by
  rw [decodeLossy, decodeOnto_encode, List.reverse_nil, List.nil_append, String.ofList_toList]

end Utf8

end RecordStore
