import Mathlib.Algebra.Group.Nat.Defs
import Mathlib.Tactic.ByContra
import RecordStore.Text.Numeral

/-!
# Numerals

A text is read as a number exactly when it is one sign at most and then digits of a number that is
not too large. Else the leftmost fault is named: the text ends where a digit is asked for, a
character is no digit, or the digits up to this one are too large. What is written in digits is read
back.
-/

namespace RecordStore.Numeral

variable {radix limit acc d n : Nat} {c : Char} {text good rest : List Char} {fault : Fault}

/-! ## Digits -/

theorem digitValue?_lt (h : digitValue? radix c = some d) : d < radix := by
  simp only [digitValue?, Option.ite_none_right_eq_some, Option.some.injEq] at h
  omega

theorem toNat_lt_of_digitValue? (h : digitValue? radix c = some d) : c.toNat < 128 := by
  by_contra hlarge
  have hle : ∀ b : Char, b.toNat < 128 → ¬ c ≤ b := by
    intro b hb hcb
    have hcb : c.toNat ≤ b.toNat := UInt32.le_iff_toNat_le.1 (Char.le_def.1 hcb)
    omega
  simp [digitValue?, hle '9' (by decide), hle 'z' (by decide), hle 'Z' (by decide)] at h

theorem digitValue?_digitChar (hradix : radix ≤ 16) (hd : d < radix) :
    digitValue? radix d.digitChar = some d := by
  have hd' : d < 16 := by omega
  have hdigit : ∀ d < 16, ∀ radix ≤ 16, d < radix →
      digitValue? radix d.digitChar = some d := by
    decide +kernel
  exact hdigit d hd' radix hradix hd

theorem digitValue?_plus (radix : Nat) : digitValue? radix '+' = none := by
  simp [digitValue?]

theorem readDigits_append (acc : Nat) (xs ys : List Char) :
    readDigits radix limit acc (xs ++ ys) =
      readDigits radix limit acc xs >>= fun n => readDigits radix limit n ys := by
  fun_induction readDigits radix limit acc xs with
  | case1 acc => rfl
  | case2 acc c rest h => simp [readDigits, h]; rfl
  | case3 acc c rest d h hlarge => simp [readDigits, h, hlarge]; rfl
  | case4 acc c rest d h hfits ih => simp [readDigits, h, hfits, ih]

theorem readDigits_singleton (hd : digitValue? radix c = some d) (hfits : acc * radix + d ≤ limit) :
    readDigits radix limit acc [c] = .ok (acc * radix + d) := by
  unfold readDigits
  rw [hd]
  dsimp only
  rw [if_neg (Nat.not_lt_of_le hfits)]
  rfl

theorem readDigits_toDigits (hradix : 1 < radix) (hradix' : radix ≤ 16) (hn : n ≤ limit) :
    readDigits radix limit 0 (Nat.toDigits radix n) = .ok n := by
  induction n using Nat.strongRecOn with
  | _ n ih =>
    have hpos : 0 < radix := by omega
    have hlast := digitValue?_digitChar hradix' (Nat.mod_lt n hpos)
    have hsplit : n / radix * radix + n % radix = n := Nat.div_add_mod' n radix
    rw [Nat.toDigits_eq_if hradix]
    split
    · rename_i hsmall
      rw [Nat.mod_eq_of_lt hsmall] at hlast
      rw [readDigits_singleton hlast (by omega)]
      simp
    · have hless : n / radix < n := Nat.div_lt_self (by omega) hradix
      have hhead := ih (n / radix) hless (Nat.le_trans (Nat.le_of_lt hless) hn)
      rw [readDigits_append, hhead]
      change readDigits radix limit (n / radix) _ = _
      rw [readDigits_singleton hlast (by omega), hsplit]

theorem readDigits_zeros (hradix : 0 < radix) (k : Nat) (text : List Char) :
    readDigits radix limit 0 (List.replicate k '0' ++ text) = readDigits radix limit 0 text := by
  have hzero : digitValue? radix '0' = some 0 := by
    unfold digitValue?
    simp [hradix]
  induction k with
  | zero => rfl
  | succ k ih =>
    rw [List.replicate_succ, List.cons_append, readDigits, hzero]
    simpa using ih

theorem read_of_head (hc : c ≠ '+') (rest : List Char) :
    read radix limit (c :: rest) = readDigits radix limit 0 (c :: rest) := by
  unfold read
  split <;> simp_all

theorem exists_digit_of_mem_toDigits (hradix : 1 < radix) (hc : c ∈ Nat.toDigits radix n) :
    ∃ d < radix, c = d.digitChar := by
  induction n using Nat.strongRecOn with
  | _ n ih =>
    rw [Nat.toDigits_eq_if hradix] at hc
    split at hc
    · rename_i hsmall
      exact ⟨n, hsmall, List.mem_singleton.1 hc⟩
    · rcases List.mem_append.1 hc with hc | hc
      · exact ih _ (Nat.div_lt_self (by omega) hradix) hc
      · exact ⟨n % radix, Nat.mod_lt n (by omega), List.mem_singleton.1 hc⟩

theorem digitValue?_of_mem_toDigits (hradix : 1 < radix) (hradix' : radix ≤ 16)
    (hc : c ∈ Nat.toDigits radix n) : ∃ d, digitValue? radix c = some d := by
  obtain ⟨d, hd, rfl⟩ := exists_digit_of_mem_toDigits hradix hc
  exact ⟨d, digitValue?_digitChar hradix' hd⟩

theorem toDigits_ne_nil : Nat.toDigits radix n ≠ [] := by
  intro hnil
  have := Nat.length_toDigits_pos (b := radix) (n := n)
  simp [hnil] at this

theorem read_toDigits (hradix : 1 < radix) (hradix' : radix ≤ 16) (hn : n ≤ limit) (k : Nat) :
    read radix limit (List.replicate k '0' ++ Nat.toDigits radix n) = .ok n := by
  have hdigits : readDigits radix limit 0 (List.replicate k '0' ++ Nat.toDigits radix n) =
      .ok n := by
    rw [readDigits_zeros (by omega), readDigits_toDigits hradix hradix' hn]
  cases htext : List.replicate k '0' ++ Nat.toDigits radix n with
  | nil => exact absurd (List.append_eq_nil_iff.1 htext).2 toDigits_ne_nil
  | cons c rest =>
    have hhead : c ≠ '+' := by
      rintro rfl
      have hmem : '+' ∈ List.replicate k '0' ++ Nat.toDigits radix n := by simp [htext]
      rcases List.mem_append.1 hmem with hmem | hmem
      · exact absurd (List.eq_of_mem_replicate hmem) (by decide)
      · obtain ⟨d, hd⟩ := digitValue?_of_mem_toDigits hradix hradix' hmem
        rw [digitValue?_plus] at hd
        cases hd
    rw [read_of_head hhead, ← htext, hdigits]

/-! ## Digits and their places -/

/-- The number that digits stand for by their places. -/
def value (radix : Nat) : List Char → Nat
  | [] => 0
  | c :: rest => (digitValue? radix c).getD 0 * radix ^ rest.length + value radix rest

def IsDigit (radix : Nat) (c : Char) : Prop := ∃ d, digitValue? radix c = some d

theorem isDigit_iff_of_ascii {digit : Char → Bool} (hascii : ∀ c, digit c → c.toNat < 128)
    (hsame : ∀ n < 128, digit (Char.ofNat n) = (digitValue? radix (Char.ofNat n)).isSome) :
    digit c ↔ IsDigit radix c := by
  have hvalue : c.toNat < 128 → digit c = (digitValue? radix c).isSome := by
    intro hc
    have hvalue := hsame c.toNat hc
    rwa [Char.ofNat_toNat] at hvalue
  constructor
  · intro h
    rwa [hvalue (hascii c h), Option.isSome_iff_exists] at h
  · rintro ⟨x, hx⟩
    rw [hvalue (toNat_lt_of_digitValue? hx), hx]
    rfl

theorem value_concat (radix : Nat) (text : List Char) (c : Char) :
    value radix (text ++ [c]) = value radix text * radix + (digitValue? radix c).getD 0 := by
  induction text with
  | nil => simp [value]
  | cons b rest ih =>
    rw [List.cons_append, value, value, ih, List.length_append, List.length_singleton, Nat.pow_succ]
    simp only [Nat.add_mul, Nat.mul_assoc, Nat.add_assoc]

theorem shift_cons (h : digitValue? radix c = some d) (acc : Nat) (rest : List Char) :
    acc * radix ^ (c :: rest).length + value radix (c :: rest) =
      (acc * radix + d) * radix ^ rest.length + value radix rest := by
  rw [value, h, Option.getD_some, List.length_cons, Nat.pow_succ, Nat.add_mul,
    Nat.mul_comm (radix ^ rest.length), Nat.mul_assoc, Nat.add_assoc]

theorem le_shift (h : digitValue? radix c = some d) (acc : Nat) (rest : List Char) :
    acc * radix + d ≤ (acc * radix + d) * radix ^ rest.length + value radix rest := by
  have hradix : 0 < radix := Nat.lt_of_le_of_lt (Nat.zero_le d) (digitValue?_lt h)
  have hplaces := Nat.le_mul_of_pos_right (acc * radix + d) (Nat.pow_pos (n := rest.length) hradix)
  omega

theorem readDigits_ok (hacc : acc ≤ limit) :
    readDigits radix limit acc text = .ok n ↔ (∀ c ∈ text, IsDigit radix c) ∧
      acc * radix ^ text.length + value radix text = n ∧ n ≤ limit := by
  fun_induction readDigits radix limit acc text with
  | case1 acc =>
    simp only [List.not_mem_nil, false_implies, implies_true, true_and, List.length_nil,
      Nat.pow_zero, Nat.mul_one, value, Nat.add_zero, Except.ok.injEq]
    exact ⟨fun h => ⟨h, h ▸ hacc⟩, And.left⟩
  | case2 acc c rest h =>
    simp [IsDigit, h]
  | case3 acc c rest d h hlarge =>
    constructor
    · intro hread
      cases hread
    · rintro ⟨-, hn, hfits⟩
      rw [shift_cons h] at hn
      have := le_shift h acc rest
      omega
  | case4 acc c rest d h hfits ih =>
    have hdigit : IsDigit radix c := ⟨d, h⟩
    rw [ih (Nat.le_of_not_lt hfits), shift_cons h, List.forall_mem_cons, and_iff_right hdigit]

theorem readDigits_error (hacc : acc ≤ limit) :
    readDigits radix limit acc text = .error fault ↔ ∃ good c rest, text = good ++ c :: rest ∧
      (∀ b ∈ good, IsDigit radix b) ∧ acc * radix ^ good.length + value radix good ≤ limit ∧
      (fault = .invalidDigit ∧ digitValue? radix c = none ∨
        fault = .overflow ∧ ∃ d, digitValue? radix c = some d ∧
          limit < (acc * radix ^ good.length + value radix good) * radix + d) := by
  constructor
  · intro h
    fun_induction readDigits radix limit acc text with
    | case1 acc => cases h
    | case2 acc c rest hbad =>
      cases h
      exact ⟨[], c, rest, rfl, by simp, by simpa [value] using hacc, .inl ⟨rfl, hbad⟩⟩
    | case3 acc c rest d hd hlarge =>
      cases h
      refine ⟨[], c, rest, rfl, by simp, by simpa [value] using hacc, .inr ⟨rfl, d, hd, ?_⟩⟩
      simpa [value] using hlarge
    | case4 acc c rest d hd hfits ih =>
      obtain ⟨good, b, more, rfl, hgood, hle, hwhy⟩ := ih (Nat.le_of_not_lt hfits) h
      rw [← shift_cons hd] at hle hwhy
      exact ⟨c :: good, b, more, rfl, List.forall_mem_cons.2 ⟨⟨d, hd⟩, hgood⟩, hle, hwhy⟩
  · rintro ⟨good, c, rest, rfl, hgood, hle, hwhy⟩
    rw [readDigits_append, (readDigits_ok hacc).2 ⟨hgood, rfl, hle⟩]
    show readDigits radix limit _ (c :: rest) = _
    rw [readDigits]
    rcases hwhy with ⟨rfl, hbad⟩ | ⟨rfl, d, hd, hlarge⟩
    · rw [hbad]
    · rw [hd]
      exact if_pos hlarge

/-! ## Signs -/

/-- The text behind its sign; a sign alone is none. -/
def unsigned : List Char → List Char
  | '+' :: c :: rest => c :: rest
  | text => text

theorem unsigned_of_head (hc : c ≠ '+') (rest : List Char) : unsigned (c :: rest) = c :: rest := by
  unfold unsigned
  split
  · rename_i h
    exact absurd (List.cons.inj h).1 hc
  · rfl

theorem read_eq (text : List Char) :
    read radix limit text =
      if unsigned text = [] then .error .empty else readDigits radix limit 0 (unsigned text) := by
  unfold read
  split
  · rfl
  · simp [unsigned, readDigits, digitValue?_plus]
  · rename_i rest hne
    cases rest with
    | nil => simp at hne
    | cons c rest => simp [unsigned]
  · rename_i hsign
    cases text with
    | nil => exact absurd rfl ‹_›
    | cons c rest =>
      have hc : c ≠ '+' := by
        rintro rfl
        exact hsign rest rfl
      rw [unsigned_of_head hc, if_neg (by simp)]

/-- One sign at most, and then digits that stand for the number. -/
def Spells (radix : Nat) (text : List Char) (n : Nat) : Prop :=
  ∃ sign digits, text = sign ++ digits ∧ (sign = [] ∨ sign = ['+']) ∧ digits ≠ [] ∧
    (∀ c ∈ digits, IsDigit radix c) ∧ value radix digits = n

theorem exists_sign (text : List Char) :
    ∃ sign, text = sign ++ unsigned text ∧ (sign = [] ∨ sign = ['+']) := by
  unfold unsigned
  split
  · exact ⟨['+'], rfl, .inr rfl⟩
  · exact ⟨[], rfl, .inl rfl⟩

theorem not_isDigit_plus : ¬ IsDigit radix '+' := by
  rintro ⟨d, hd⟩
  rw [digitValue?_plus] at hd
  cases hd

theorem spells_iff_unsigned : Spells radix text n ↔
    unsigned text ≠ [] ∧ (∀ c ∈ unsigned text, IsDigit radix c) ∧
      value radix (unsigned text) = n := by
  constructor
  · rintro ⟨sign, digits, rfl, hsign, hsome, hdigits, hvalue⟩
    have hunsigned : unsigned (sign ++ digits) = digits := by
      cases digits with
      | nil => exact absurd rfl hsome
      | cons c rest =>
        rcases hsign with rfl | rfl
        · refine unsigned_of_head ?_ rest
          rintro rfl
          exact not_isDigit_plus (hdigits '+' List.mem_cons_self)
        · rfl
    rw [hunsigned]
    exact ⟨hsome, hdigits, hvalue⟩
  · rintro ⟨hsome, hdigits, hvalue⟩
    obtain ⟨sign, htext, hsign⟩ := exists_sign text
    exact ⟨sign, unsigned text, htext, hsign, hsome, hdigits, hvalue⟩

theorem read_ok : read radix limit text = .ok n ↔ Spells radix text n ∧ n ≤ limit := by
  rw [read_eq, spells_iff_unsigned]
  split
  · rename_i hnil
    simp [hnil]
  · rename_i hsome
    rw [readDigits_ok (Nat.zero_le limit)]
    simp [hsome, and_assoc]

/-! ## Faults -/

/-- Where the leftmost fault of some digits is, and what it is. -/
inductive Breaks (radix limit : Nat) : List Char → Fault → Prop
  | empty : Breaks radix limit [] .empty
  | invalidDigit {good rest : List Char} {c : Char} (digits : ∀ b ∈ good, IsDigit radix b)
      (fits : value radix good ≤ limit) (bad : ¬ IsDigit radix c) :
    Breaks radix limit (good ++ c :: rest) .invalidDigit
  | overflow {good rest : List Char} {c : Char} (digits : ∀ b ∈ good ++ [c], IsDigit radix b)
      (fits : value radix good ≤ limit) (large : limit < value radix (good ++ [c])) :
    Breaks radix limit (good ++ c :: rest) .overflow

theorem breaks_iff (hsome : text ≠ []) : Breaks radix limit text fault ↔
    readDigits radix limit 0 text = .error fault := by
  rw [readDigits_error (Nat.zero_le limit)]
  simp only [Nat.zero_mul, Nat.zero_add]
  constructor
  · intro h
    cases h with
    | empty => exact absurd rfl hsome
    | @invalidDigit good rest c digits fits bad =>
      have hbad : digitValue? radix c = none :=
        Option.eq_none_iff_forall_ne_some.2 fun d hd => bad ⟨d, hd⟩
      exact ⟨good, c, rest, rfl, digits, fits, .inl ⟨rfl, hbad⟩⟩
    | @overflow good rest c digits fits large =>
      obtain ⟨hgood, hc⟩ := List.forall_mem_append.1 digits
      obtain ⟨d, hd⟩ := hc c List.mem_cons_self
      rw [value_concat, hd] at large
      exact ⟨good, c, rest, rfl, hgood, fits, .inr ⟨rfl, d, hd, large⟩⟩
  · rintro ⟨good, c, rest, rfl, hgood, hfits, ⟨rfl, hbad⟩ | ⟨rfl, d, hd, hlarge⟩⟩
    · exact .invalidDigit hgood hfits fun ⟨d, hd⟩ => by simp [hbad] at hd
    · refine .overflow (List.forall_mem_append.2 ⟨hgood, ?_⟩) hfits ?_
      · simpa using ⟨d, hd⟩
      · rwa [value_concat, hd]

theorem read_error : read radix limit text = .error fault ↔
    Breaks radix limit (unsigned text) fault := by
  rw [read_eq]
  split
  · rename_i hnil
    rw [hnil]
    constructor
    · intro h
      cases h
      exact .empty
    · intro h
      generalize htext : ([] : List Char) = text at h
      cases h with
      | empty => rfl
      | invalidDigit => simp at htext
      | overflow => simp at htext
  · rename_i hsome
    exact (breaks_iff hsome).symm

end RecordStore.Numeral
