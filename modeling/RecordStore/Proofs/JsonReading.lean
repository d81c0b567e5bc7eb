import RecordStore.Proofs.JsonGrammar

/-!
# What is read as JSON

Each reader takes a text of the grammar from what is before it and leaves the characters behind, so
that a text is read exactly when the grammar has it.
-/

namespace RecordStore.Json

open Numeral

variable {c : Char} {text rest : List Char}

/-! ## Tokens -/

/-- The reader takes a text of one kind and leaves the rest. -/
def Takes (kind : List Char → Prop) (text : List Char) (result : List Char × List Char) : Prop :=
  text = result.1 ++ result.2 ∧ kind result.1

variable {result : List Char × List Char}

theorem readDigits_takes (h : readDigits text = some result) : Takes Digits text result := by
  unfold readDigits at h
  split at h
  · cases h
  · rename_i hsome
    cases h
    refine ⟨(List.takeWhile_append_dropWhile).symm, by simpa using hsome, fun c hc => ?_⟩
    exact List.mem_takeWhile_imp hc

theorem readWhole_takes (h : readWhole text = some result) : Takes Whole text result := by
  unfold readWhole at h
  split at h
  · cases h
    exact ⟨rfl, .zero⟩
  · rename_i hzero
    obtain ⟨rfl, hdigits⟩ := readDigits_takes h
    obtain ⟨c, ds, hcons⟩ := List.exists_cons_of_ne_nil hdigits.1
    refine ⟨rfl, ?_⟩
    rw [hcons] at hdigits ⊢
    refine .digits ?_ hdigits
    rintro rfl
    exact hzero (ds ++ result.2) (by rw [hcons, List.cons_append])

theorem readFraction_takes (h : readFraction text = some result) : Takes Fraction text result := by
  unfold readFraction at h
  split at h
  · obtain ⟨digits, hread, rfl⟩ := Option.map_eq_some_iff.1 h
    obtain ⟨rfl, hdigits⟩ := readDigits_takes hread
    exact ⟨rfl, .digits hdigits⟩
  · cases h
    exact ⟨rfl, .none⟩

theorem readExponentDigits_takes (h : readExponentDigits text = some result) :
    ∃ sign digits, text = sign ++ digits ++ result.2 ∧ result.1 = sign ++ digits ∧
      (sign = [] ∨ sign = ['+'] ∨ sign = ['-']) ∧ Digits digits := by
  unfold readExponentDigits at h
  split at h
  · obtain ⟨digits, hread, rfl⟩ := Option.map_eq_some_iff.1 h
    obtain ⟨rfl, hdigits⟩ := readDigits_takes hread
    exact ⟨['+'], _, rfl, rfl, .inr (.inl rfl), hdigits⟩
  · obtain ⟨digits, hread, rfl⟩ := Option.map_eq_some_iff.1 h
    obtain ⟨rfl, hdigits⟩ := readDigits_takes hread
    exact ⟨['-'], _, rfl, rfl, .inr (.inr rfl), hdigits⟩
  · obtain ⟨htext, hdigits⟩ := readDigits_takes h
    exact ⟨[], _, htext, rfl, .inl rfl, hdigits⟩

theorem exponent_takes {e : Char} (he : e = 'e' ∨ e = 'E')
    (h : readExponentDigits text = some result) :
    Takes Exponent (e :: text) (e :: result.1, result.2) := by
  obtain ⟨sign, digits, htext, hresult, hsign, hdigits⟩ := readExponentDigits_takes h
  rw [Takes, htext, hresult]
  exact ⟨rfl, .digits he hsign hdigits⟩

theorem readExponent_takes (h : readExponent text = some result) : Takes Exponent text result := by
  unfold readExponent at h
  split at h
  · obtain ⟨signed, hread, rfl⟩ := Option.map_eq_some_iff.1 h
    exact exponent_takes (.inl rfl) hread
  · obtain ⟨signed, hread, rfl⟩ := Option.map_eq_some_iff.1 h
    exact exponent_takes (.inr rfl) hread
  · cases h
    exact ⟨rfl, .none⟩

theorem readUnsigned_takes (h : readUnsigned text = some result) :
    ∃ whole fraction exponent, Whole whole ∧ Fraction fraction ∧ Exponent exponent ∧
      result.1 = whole ++ (fraction ++ exponent) ∧ text = result.1 ++ result.2 := by
  simp only [readUnsigned, Option.bind_eq_bind, Option.bind_eq_some_iff] at h
  obtain ⟨⟨whole, afterWhole⟩, hwhole, ⟨fraction, afterFraction⟩, hfraction,
    ⟨exponent, rest⟩, hexponent, hresult⟩ := h
  obtain ⟨rfl, his⟩ := readWhole_takes hwhole
  obtain ⟨hafter, his'⟩ := readFraction_takes hfraction
  obtain ⟨hafter', his''⟩ := readExponent_takes hexponent
  dsimp only at hafter hafter'
  obtain rfl := Option.some.inj hresult
  refine ⟨whole, fraction, exponent, his, his', his'', List.append_assoc .., ?_⟩
  simp only [hafter, hafter', List.append_assoc]

theorem readNumber_takes (h : readNumber text = some result) : Takes Number text result := by
  unfold readNumber at h
  split at h
  · obtain ⟨⟨digits, rest⟩, hread, rfl⟩ := Option.map_eq_some_iff.1 h
    obtain ⟨whole, fraction, exponent, hwhole, hfraction, hexponent, rfl, rfl⟩ :=
      readUnsigned_takes hread
    exact ⟨rfl, .parts (.inr rfl) hwhole hfraction hexponent⟩
  · obtain ⟨whole, fraction, exponent, hwhole, hfraction, hexponent, hresult, htext⟩ :=
      readUnsigned_takes h
    refine ⟨htext, ?_⟩
    rw [hresult]
    exact .parts (.inl rfl) hwhole hfraction hexponent

/-! ## Strings -/

theorem shortEscapes_of_unescape? {e c : Char} (h : unescape? e = some c) :
    (e, c) ∈ shortEscapes := by
  unfold unescape? at h
  split at h <;> first | cases h; decide | cases h

theorem readUnit_eq_some {a b c d : Char} {n : Nat} (h : readUnit a b c d = some n) :
    (∀ x ∈ [a, b, c, d], IsDigit 16 x) ∧ value 16 [a, b, c, d] = n := by
  have hdigits : ∀ x ∈ [a, b, c, d], IsDigit 16 x := by
    simp only [readUnit, hexValue?_eq, Option.bind_eq_bind, Option.bind_eq_some_iff] at h
    obtain ⟨w, hw, x, hx, y, hy, z, hz, -⟩ := h
    simpa using ⟨⟨w, hw⟩, ⟨x, hx⟩, ⟨y, hy⟩, z, hz⟩
  rw [readUnit_eq hdigits] at h
  exact ⟨hdigits, Option.some.inj h⟩

theorem readString_takes {pieces : Pieces} (h : readString text = some (pieces, rest)) :
    ∃ body, text = body ++ '"' :: rest ∧ Body body pieces := by
  fun_induction readString text generalizing pieces with
  | case1 => cases h
  | case2 =>
    cases h
    exact ⟨[], rfl, .nil⟩
  | case3 a b c d more ih =>
    simp only [Option.bind_eq_bind, Option.bind_eq_some_iff] at h
    obtain ⟨unit, hunit, ⟨tail, behind⟩, hmore, hresult⟩ := h
    obtain ⟨rfl, rfl⟩ := Prod.mk.inj (Option.some.inj hresult)
    obtain ⟨hdigits, rfl⟩ := readUnit_eq_some hunit
    obtain ⟨body, rfl, hbody⟩ := ih hmore
    exact ⟨_, rfl, .unit hdigits hbody⟩
  | case4 e more _ ih =>
    simp only [Option.bind_eq_bind, Option.bind_eq_some_iff] at h
    obtain ⟨c, hknown, ⟨tail, behind⟩, hmore, hresult⟩ := h
    obtain ⟨rfl, rfl⟩ := Prod.mk.inj (Option.some.inj hresult)
    obtain ⟨body, rfl, hbody⟩ := ih hmore
    exact ⟨_, rfl, .escape (shortEscapes_of_unescape? hknown) hbody⟩
  | case5 => cases h
  | case6 c more hquote _ _ hplain ih =>
    obtain ⟨⟨tail, behind⟩, hmore, hresult⟩ := Option.map_eq_some_iff.1 h
    obtain ⟨rfl, rfl⟩ := Prod.mk.inj hresult
    obtain ⟨body, rfl, hbody⟩ := ih hmore
    obtain ⟨hprintable, hescape⟩ := not_or.1 hplain
    exact ⟨_, rfl, .plain (Nat.le_of_not_lt hprintable) hquote hescape hbody⟩

/-! ## Values -/

theorem exists_blank (text : List Char) : ∃ blank, Blank blank ∧ text = blank ++ skipSpace text :=
  ⟨text.takeWhile isSpace, fun _ => List.mem_takeWhile_imp, List.takeWhile_append_dropWhile.symm⟩

theorem readWord_eq {word : List Char} (h : readWord word text = some rest) :
    text = word ++ rest := by
  unfold readWord at h
  split at h
  · rename_i hword
    cases h
    exact (List.prefix_iff_eq_append.1 (List.isPrefixOf_iff_prefix.1 hword)).symm
  · cases h

def TakesValue (fuel : Nat) : Prop := ∀ text v rest, readValue fuel text = some (v, rest) →
  ∃ before used, text = before ++ (used ++ rest) ∧ Blank before ∧ IsValue used v

def TakesItems (fuel : Nat) : Prop := ∀ text items rest, readItems fuel text = some (items, rest) →
  ∃ used, text = used ++ ']' :: rest ∧ IsItems used items

def TakesMembers (fuel : Nat) : Prop := ∀ text members rest,
  readMembers fuel text = some (members, rest) →
    ∃ used, text = used ++ '\x7d' :: rest ∧ IsMembers used members

variable {fuel : Nat} {v : Value}

theorem takesValue_succ (hitems : TakesItems fuel) (hmembers : TakesMembers fuel) :
    TakesValue (fuel + 1) := by
  intro text v rest h
  obtain ⟨before, hbefore, htext⟩ := exists_blank text
  suffices hused : ∃ used, skipSpace text = used ++ rest ∧ IsValue used v by
    obtain ⟨used, hskip, hvalue⟩ := hused
    exact ⟨before, used, by rw [← hskip, ← htext], hbefore, hvalue⟩
  -- the first character behind the blanks decides what kind of value it is
  unfold readValue at h
  split at h
  · rename_i more hskip
    obtain ⟨⟨pieces, behind⟩, hread, hresult⟩ := Option.map_eq_some_iff.1 h
    obtain ⟨rfl, rfl⟩ := Prod.mk.inj hresult
    obtain ⟨body, rfl, hbody⟩ := readString_takes hread
    exact ⟨'"' :: (body ++ ['"']), by simp [hskip], .string hbody⟩
  · rename_i more hskip
    split at h
    · rename_i behind hend
      cases h
      obtain ⟨blank, hblank, hmore⟩ := exists_blank more
      rw [hend] at hmore
      exact ⟨'[' :: (blank ++ [']']), by simp [hskip, hmore], .emptyArray hblank⟩
    · obtain ⟨⟨items, behind⟩, hread, hresult⟩ := Option.map_eq_some_iff.1 h
      obtain ⟨rfl, rfl⟩ := Prod.mk.inj hresult
      obtain ⟨used, rfl, hsome⟩ := hitems more items _ hread
      exact ⟨'[' :: (used ++ [']']), by simp [hskip], .array hsome⟩
  · rename_i more hskip
    split at h
    · rename_i behind hend
      cases h
      obtain ⟨blank, hblank, hmore⟩ := exists_blank more
      rw [hend] at hmore
      exact ⟨'\x7b' :: (blank ++ ['\x7d']), by simp [hskip, hmore], .emptyObject hblank⟩
    · obtain ⟨⟨members, behind⟩, hread, hresult⟩ := Option.map_eq_some_iff.1 h
      obtain ⟨rfl, rfl⟩ := Prod.mk.inj hresult
      obtain ⟨used, rfl, hsome⟩ := hmembers more members _ hread
      exact ⟨'\x7b' :: (used ++ ['\x7d']), by simp [hskip], .object hsome⟩
  · rename_i more hskip
    obtain ⟨behind, hread, hresult⟩ := Option.map_eq_some_iff.1 h
    obtain ⟨rfl, rfl⟩ := Prod.mk.inj hresult
    exact ⟨['n', 'u', 'l', 'l'], by rw [hskip, readWord_eq hread]; rfl, .null⟩
  · rename_i more hskip
    obtain ⟨behind, hread, hresult⟩ := Option.map_eq_some_iff.1 h
    obtain ⟨rfl, rfl⟩ := Prod.mk.inj hresult
    exact ⟨['t', 'r', 'u', 'e'], by rw [hskip, readWord_eq hread]; rfl, .isTrue⟩
  · rename_i more hskip
    obtain ⟨behind, hread, hresult⟩ := Option.map_eq_some_iff.1 h
    obtain ⟨rfl, rfl⟩ := Prod.mk.inj hresult
    exact ⟨['f', 'a', 'l', 's', 'e'], by rw [hskip, readWord_eq hread]; rfl, .isFalse⟩
  · obtain ⟨⟨digits, behind⟩, hread, hresult⟩ := Option.map_eq_some_iff.1 h
    obtain ⟨rfl, rfl⟩ := Prod.mk.inj hresult
    obtain ⟨hskip, hnumber⟩ := readNumber_takes hread
    exact ⟨digits, hskip, .number hnumber⟩

theorem TakesValue.element (h : TakesValue fuel) (hread : readValue fuel text = some (v, rest)) :
    ∃ used, text = used ++ skipSpace rest ∧ IsElement used v := by
  obtain ⟨before, used, rfl, hbefore, hvalue⟩ := h text v rest hread
  obtain ⟨after, hafter, hrest⟩ := exists_blank rest
  refine ⟨before ++ (used ++ after), ?_, .mk hbefore hvalue hafter⟩
  simp only [List.append_assoc, ← hrest]

theorem takesItems_succ (hvalues : TakesValue fuel) (hitems : TakesItems fuel) :
    TakesItems (fuel + 1) := by
  intro text items rest h
  simp only [readItems, Option.bind_eq_bind, Option.bind_eq_some_iff] at h
  obtain ⟨⟨item, behind⟩, hread, h⟩ := h
  obtain ⟨used, rfl, helement⟩ := hvalues.element hread
  split at h
  · rename_i more hcomma
    obtain ⟨⟨others, behind'⟩, hmore, hresult⟩ := Option.bind_eq_some_iff.1 h
    obtain ⟨rfl, rfl⟩ := Prod.mk.inj (Option.some.inj hresult)
    obtain ⟨used', rfl, hothers⟩ := hitems more others _ hmore
    exact ⟨used ++ ',' :: used', by simp [hcomma], .more helement hothers⟩
  · rename_i more hend
    obtain ⟨rfl, rfl⟩ := Prod.mk.inj (Option.some.inj h)
    exact ⟨used, by rw [hend], .last helement⟩
  · cases h

theorem takesMembers_succ (hvalues : TakesValue fuel) (hmembers : TakesMembers fuel) :
    TakesMembers (fuel + 1) := by
  intro text members rest h
  obtain ⟨before, hbefore, htext⟩ := exists_blank text
  rw [readMembers] at h
  split at h
  · rename_i afterQuote hquote
    simp only [Option.bind_eq_bind, Option.bind_eq_some_iff] at h
    obtain ⟨⟨key, afterKey⟩, hkey, h⟩ := h
    obtain ⟨body, rfl, hname⟩ := readString_takes hkey
    obtain ⟨between, hbetween, hmiddle⟩ := exists_blank afterKey
    split at h
    · rename_i afterColon hcolon
      obtain ⟨⟨v, behind⟩, hread, htail⟩ := Option.bind_eq_some_iff.1 h
      obtain ⟨used, rfl, helement⟩ := hvalues.element hread
      have hmember := IsMember.mk hbefore hname hbetween helement
      rw [hquote, hmiddle, hcolon] at htext
      split at htail
      · rename_i more hcomma
        obtain ⟨⟨others, behind'⟩, hmore, hresult⟩ := Option.bind_eq_some_iff.1 htail
        obtain ⟨rfl, rfl⟩ := Prod.mk.inj (Option.some.inj hresult)
        obtain ⟨used', rfl, hothers⟩ := hmembers more others _ hmore
        exact ⟨_, by simp [htext, hcomma], .more hmember hothers⟩
      · rename_i more hend
        obtain ⟨rfl, rfl⟩ := Prod.mk.inj (Option.some.inj htail)
        exact ⟨_, by simp [htext, hend], .last hmember⟩
      · cases htail
    · cases h
  · cases h

theorem takes_of_fuel (fuel : Nat) : TakesValue fuel ∧ TakesItems fuel ∧ TakesMembers fuel := by
  induction fuel with
  | zero =>
    refine ⟨fun _ _ _ h => ?_, fun _ _ _ h => ?_, fun _ _ _ h => ?_⟩
    · simp [readValue] at h
    · simp [readItems] at h
    · simp [readMembers] at h
  | succ fuel ih =>
    obtain ⟨hvalues, hitems, hmembers⟩ := ih
    exact ⟨takesValue_succ hitems hmembers, takesItems_succ hvalues hitems,
      takesMembers_succ hvalues hmembers⟩

/-- The texts that are read are those of the grammar. -/
theorem parse_iff : parse text = some v ↔ IsElement text v := by
  refine ⟨fun h => ?_, parse_of_isElement⟩
  unfold parse at h
  split at h
  · rename_i v' rest hread
    split at h
    · rename_i hend
      cases h
      obtain ⟨used, hused, helement⟩ := (takes_of_fuel _).1.element hread
      rw [List.isEmpty_iff.1 hend, List.append_nil] at hused
      rwa [hused]
    · cases h
  · cases h

theorem parse_bind_eq_some {α : Type} {read : Value → Option α} {a : α} :
    (parse text).bind read = some a ↔ ∃ v, IsElement text v ∧ read v = some a := by
  simp only [Option.bind_eq_some_iff, parse_iff]

end RecordStore.Json
