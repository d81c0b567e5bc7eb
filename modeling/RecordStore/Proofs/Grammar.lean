import RecordStore.Proofs.Texts

/-!
# Which texts are accepted

An address is read from every numeral below `2 ^ 64`, in hexadecimal digits behind `0x` or in
decimal ones, and else the leftmost fault is named. A payload in hexadecimal digits is read two
characters at a time, each pair as a numeral of its own: a sign may stand for the first digit of a
pair, and counts for nothing.
-/

namespace RecordStore

/-! ## Addresses -/

namespace Address

open Numeral

variable {text digits : List Char} {n : Nat} {fault : Numeral.Fault}

/-- The texts that stand for a number. -/
inductive Spelled : List Char → Nat → Prop
  | hex {sign digits : List Char} (signed : sign = [] ∨ sign = ['+']) (nonempty : digits ≠ [])
      (hexadecimal : ∀ c ∈ digits, Hex.isDigit c) :
    Spelled ('0' :: 'x' :: (sign ++ digits)) (value 16 digits)
  | decimal {sign digits : List Char} (signed : sign = [] ∨ sign = ['+']) (nonempty : digits ≠ [])
      (decimal : ∀ c ∈ digits, c.isDigit) :
    Spelled (sign ++ digits) (value 10 digits)

/-- The leftmost fault of a text; what stands in front of it decides the base. -/
inductive Broken : List Char → Numeral.Fault → Prop
  | hex {digits : List Char} {fault : Numeral.Fault}
      (breaks : Breaks 16 (UInt64.size - 1) (unsigned digits) fault) :
    Broken ('0' :: 'x' :: digits) fault
  | decimal {text : List Char} {fault : Numeral.Fault} (plain : ¬ ['0', 'x'] <+: text)
      (breaks : Breaks 10 (UInt64.size - 1) (unsigned text) fault) :
    Broken text fault

theorem isDigit_iff {c : Char} : c.isDigit ↔ IsDigit 10 c := by
  refine isDigit_iff_of_ascii (fun c hc => ?_) (by decide +kernel)
  have hle := (Bool.and_eq_true_iff.1 hc).2
  have hle : c.toNat ≤ 57 := UInt32.le_iff_toNat_le.1 (of_decide_eq_true hle)
  omega

theorem not_prefix_of_spells (h : Spells 10 text n) : ¬ ['0', 'x'] <+: text := by
  rintro ⟨rest, rfl⟩
  obtain ⟨-, hdigits, -⟩ := spells_iff_unsigned.1 h
  obtain ⟨d, hd⟩ := hdigits 'x' (by simp [unsigned])
  exact absurd hd (by simp [digitValue?])

theorem spelled_hex : Spelled ('0' :: 'x' :: digits) n ↔ Spells 16 digits n := by
  constructor
  · generalize htext : '0' :: 'x' :: digits = text
    rintro (@⟨sign, ds, hsign, hsome, hdigits⟩ | @⟨sign, ds, hsign, hsome, hdigits⟩)
    · obtain rfl : digits = sign ++ ds := (List.cons.inj (List.cons.inj htext).2).2
      exact ⟨sign, ds, rfl, hsign, hsome, fun c hc => Hex.isDigit_iff.1 (hdigits c hc), rfl⟩
    · have hspells : Spells 10 (sign ++ ds) (value 10 ds) :=
        ⟨sign, ds, rfl, hsign, hsome, fun c hc => isDigit_iff.1 (hdigits c hc), rfl⟩
      exact absurd ⟨digits, htext⟩ (not_prefix_of_spells hspells)
  · rintro ⟨sign, ds, rfl, hsign, hsome, hdigits, rfl⟩
    exact .hex hsign hsome fun c hc => Hex.isDigit_iff.2 (hdigits c hc)

theorem spelled_decimal (hplain : ¬ ['0', 'x'] <+: text) : Spelled text n ↔ Spells 10 text n := by
  constructor
  · rintro (@⟨sign, ds, hsign, hsome, hdigits⟩ | @⟨sign, ds, hsign, hsome, hdigits⟩)
    · exact absurd ⟨_, rfl⟩ hplain
    · exact ⟨sign, ds, rfl, hsign, hsome, fun c hc => isDigit_iff.1 (hdigits c hc), rfl⟩
  · rintro ⟨sign, ds, rfl, hsign, hsome, hdigits, rfl⟩
    exact .decimal hsign hsome fun c hc => isDigit_iff.2 (hdigits c hc)

theorem broken_hex : Broken ('0' :: 'x' :: digits) fault ↔
    Breaks 16 (UInt64.size - 1) (unsigned digits) fault := by
  constructor
  · rintro (⟨hbreaks⟩ | ⟨hplain, -⟩)
    · exact hbreaks
    · exact absurd ⟨digits, rfl⟩ hplain
  · exact .hex

theorem broken_decimal (hplain : ¬ ['0', 'x'] <+: text) : Broken text fault ↔
    Breaks 10 (UInt64.size - 1) (unsigned text) fault := by
  constructor
  · rintro (⟨-⟩ | ⟨-, hbreaks⟩)
    · exact absurd ⟨_, rfl⟩ hplain
    · exact hbreaks
  · exact .decimal hplain

theorem exists_reading (text : List Char) : ∃ radix rest,
    ofText text =
      (Numeral.read radix (UInt64.size - 1) rest).map (fun n => ⟨UInt64.ofNat n⟩) ∧
    (∀ n, Spelled text n ↔ Spells radix rest n) ∧
    ∀ fault, Broken text fault ↔ Breaks radix (UInt64.size - 1) (unsigned rest) fault := by
  unfold ofText
  split
  · rename_i digits
    exact ⟨16, digits, rfl, fun _ => spelled_hex, fun _ => broken_hex⟩
  · rename_i hplain
    have hplain : ¬ ['0', 'x'] <+: text := by
      rintro ⟨digits, rfl⟩
      exact hplain digits rfl
    exact ⟨10, text, rfl, fun _ => spelled_decimal hplain, fun _ => broken_decimal hplain⟩

theorem ofText_ok (text : List Char) (a : Address) :
    ofText text = .ok a ↔ Spelled text a.raw.toNat := by
  obtain ⟨radix, rest, hread, hspelled, -⟩ := exists_reading text
  rw [hread, hspelled]
  constructor
  · intro h
    cases hn : Numeral.read radix (UInt64.size - 1) rest with
    | error fault =>
      rw [hn] at h
      cases h
    | ok n =>
      rw [hn] at h
      obtain rfl : (⟨UInt64.ofNat n⟩ : Address) = a := Except.ok.inj h
      obtain ⟨hspells, hfits⟩ := read_ok.1 hn
      rwa [UInt64.toNat_ofNat_of_lt' (Nat.lt_of_le_pred (by decide) hfits)]
  · intro h
    rw [read_ok.2 ⟨h, Nat.le_sub_one_of_lt a.raw.toNat_lt_size⟩]
    simp [Except.map]

theorem ofText_error (text : List Char) (fault : Numeral.Fault) :
    ofText text = .error fault ↔ Broken text fault := by
  obtain ⟨radix, rest, hread, -, hbroken⟩ := exists_reading text
  rw [hread, hbroken, ← read_error]
  cases Numeral.read radix (UInt64.size - 1) rest <;> simp [Except.map]

/-- A text is read exactly when it is a spelling of a number of 64 bits, as this number; else its
leftmost fault is named. What an address is printed as, and its number in decimal digits, are
spellings of it. -/
theorem ofText_grammar (text : List Char) :
    (∀ a, ofText text = .ok a ↔ Spelled text a.raw.toNat) ∧
    ((∃ a, ofText text = .ok a) ↔ ∃ n < UInt64.size, Spelled text n) ∧
    (∀ fault, ofText text = .error fault ↔ Broken text fault) ∧
    ∀ a : Address, ofText a.text.toList = .ok a ∧ ofText (toString a.raw.toNat).toList = .ok a := by
  refine ⟨ofText_ok text, ⟨?_, ?_⟩, ofText_error text, fun a => ⟨a.ofText_hex, a.ofText_decimal⟩⟩
  · rintro ⟨a, ha⟩
    exact ⟨a.raw.toNat, a.raw.toNat_lt_size, (ofText_ok text a).1 ha⟩
  · rintro ⟨n, hn, hspelled⟩
    refine ⟨⟨UInt64.ofNat n⟩, (ofText_ok text _).2 ?_⟩
    rwa [UInt64.toNat_ofNat_of_lt' hn]

end Address

/-! ## Payloads in hexadecimal digits -/

namespace Hex

open Numeral

variable {text : List Char} {bytes : Bytes}

theorem toNat_lt_of_paired (h : Paired text) : ∀ c ∈ text, c.toNat < 128 := by
  fun_induction Paired text with
  | case1 => simp
  | case2 => exact h.elim
  | case3 a b rest ih =>
    obtain ⟨hfirst, hsecond, hrest⟩ := h
    have ha : a.toNat < 128 := by
      rcases hfirst with ha | rfl
      · exact toNat_lt_of_isDigit ha
      · decide
    simpa using ⟨ha, toNat_lt_of_isDigit hsecond, ih hrest⟩

theorem length_of_paired (h : Paired text) : text.length % 2 = 0 := by
  fun_induction Paired text with
  | case1 => rfl
  | case2 => exact h.elim
  | case3 a b rest ih =>
    have := ih h.2.2
    simp only [List.length_cons]
    omega

theorem paired_of_decodePairs {acc : Bytes} {position : Nat} (heven : text.length % 2 = 0)
    (h : decodePairs acc position text = .ok bytes) : Paired text := by
  fun_induction Paired text generalizing acc position with
  | case1 => trivial
  | case2 => simp at heven
  | case3 a b rest ih =>
    have heven' : rest.length % 2 = 0 := by
      simp only [List.length_cons] at heven
      omega
    rw [decodePairs] at h
    split at h
    · cases h
    · rename_i n hread
      obtain ⟨x, y, hfirst, hy, -⟩ := read_pair.1 hread
      exact ⟨hfirst.imp (fun hx => isDigit_iff.2 ⟨x, hx⟩) And.left, isDigit_iff.2 ⟨y, hy⟩,
        ih heven' h⟩

theorem decode_of_paired (h : Paired text) :
    ∃ bytes, decode text = .ok bytes ∧ encode bytes = text.map plain := by
  obtain ⟨bytes, hbytes, htext⟩ := decodePairs_of_paired [] 0 h
  refine ⟨bytes, ?_, htext⟩
  have hascii : ¬ (text.any fun c => 128 ≤ c.toNat) = true := by
    simpa using toNat_lt_of_paired h
  rw [decode, if_neg hascii, if_neg (by simpa using length_of_paired h)]
  exact hbytes

theorem paired_of_decode (h : decode text = .ok bytes) : Paired text := by
  unfold decode at h
  split at h
  · cases h
  · split at h
    · cases h
    · rename_i heven
      exact paired_of_decodePairs (Decidable.not_not.1 heven) h

theorem digits_of_paired (h : Paired text) (hplain : '+' ∉ text) : ∀ c ∈ text, isDigit c := by
  fun_induction Paired text with
  | case1 => simp
  | case2 => exact h.elim
  | case3 a b rest ih =>
    obtain ⟨hfirst, hsecond, hrest⟩ := h
    simp only [List.mem_cons, not_or] at hplain
    have ha : isDigit a := hfirst.resolve_right (Ne.symm hplain.1)
    simpa using ⟨ha, hsecond, ih hrest hplain.2.2⟩

/-- A payload is read exactly when each pair of its characters is two digits, or a sign and a digit;
without signs, when it is ASCII, of even length and made of digits. It is written back in lower
case, with a zero for each sign. -/
theorem decode_exact (text : List Char) :
    ((∃ bytes, decode text = .ok bytes) ↔ Paired text) ∧
    ((∃ bytes, decode text = .ok bytes) ∧ '+' ∉ text ↔
      (∀ c ∈ text, c.toNat < 128) ∧ text.length % 2 = 0 ∧ ∀ c ∈ text, isDigit c) ∧
    ∀ bytes, decode text = .ok bytes → encodeText bytes = String.ofList (text.map plain) := by
  have hiff : (∃ bytes, decode text = .ok bytes) ↔ Paired text := by
    constructor
    · rintro ⟨bytes, h⟩
      exact paired_of_decode h
    · intro h
      obtain ⟨bytes, hbytes, -⟩ := decode_of_paired h
      exact ⟨bytes, hbytes⟩
  refine ⟨hiff, ?_, ?_⟩
  · rw [hiff]
    constructor
    · rintro ⟨h, hplain⟩
      exact ⟨toNat_lt_of_paired h, length_of_paired h, digits_of_paired h hplain⟩
    · rintro ⟨-, heven, hdigits⟩
      exact ⟨paired_of_digits heven hdigits, fun hplus => not_isDigit_plus (hdigits '+' hplus)⟩
  · intro bytes h
    obtain ⟨bytes', hbytes, htext⟩ := decode_of_paired (paired_of_decode h)
    obtain rfl : bytes = bytes' := Except.ok.inj (h.symm.trans hbytes)
    rw [encodeText, htext]

/-- A sign is no digit, and a text with one is read all the same, as a byte of another text. -/
theorem signed_pair_decoded :
    decode ['+', 'f'] = .ok [15] ∧ isDigit '+' = false ∧
      encode [15] = ['0', 'f'] ∧ ['0', 'f'] ≠ ['+', 'f'].map Char.toLower :=
  ⟨rfl, rfl, rfl, by decide⟩

end Hex

end RecordStore
