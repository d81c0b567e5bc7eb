import RecordStore.Text.Hex

/-! # Stream identifiers -/

namespace RecordStore

structure Uuid where
  bits : BitVec 128
  deriving DecidableEq, Repr, Inhabited

namespace Uuid

def hyphenate (digits : List Char) : List Char :=
  digits.take 8 ++ '-' :: (digits.drop 8).take 4 ++ '-' :: (digits.drop 12).take 4 ++
    '-' :: (digits.drop 16).take 4 ++ '-' :: digits.drop 20

def chars (u : Uuid) : List Char := hyphenate (Hex.padded 32 u.bits.toNat)

def text (u : Uuid) : String := String.ofList u.chars

/-! ## Reading -/

def ofDigits? (digits : List Char) : Option Uuid :=
  if digits.length = 32 then
    (digits.foldlM (fun acc c => (Numeral.digitValue? 16 c).map (acc * 16 + ·)) 0).map
      fun n => ⟨BitVec.ofNat 128 n⟩
  else none

/-- Reads groups of 8, 4, 4, 4 and 12 digits with hyphens between. -/
def ofHyphenated? (text : List Char) : Option Uuid :=
  if text.length = 36 ∧ text[8]? = some '-' ∧ text[13]? = some '-' ∧ text[18]? = some '-' ∧
      text[23]? = some '-' then
    ofDigits? (text.take 8 ++ (text.drop 9).take 4 ++ (text.drop 14).take 4 ++
      (text.drop 19).take 4 ++ text.drop 24)
  else none

def urnMarker : List Char := "urn:uuid:".toList

/-- Bare digits, or the hyphenated form, which may stand in braces or behind `urn:uuid:`. -/
def ofChars? (text : List Char) : Option Uuid :=
  if text.length = 32 then ofDigits? text
  else if text.length = 38 ∧ text.head? = some '\x7b' ∧ text.getLast? = some '\x7d' then
    ofHyphenated? (text.tail.take 36)
  else if text.length = 45 ∧ (text.take 9).map Char.toLower = urnMarker then
    ofHyphenated? (text.drop 9)
  else ofHyphenated? text

def ofText? (text : String) : Option Uuid := ofChars? text.toList

end Uuid

end RecordStore
