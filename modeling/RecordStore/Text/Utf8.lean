import RecordStore.Bytes

/-!
# UTF-8

Encoding, and decoding that puts U+FFFD in the place of each maximal prefix of an ill-formed
sequence.
-/

namespace RecordStore.Utf8

def encode (text : List Char) : Bytes := text.flatMap String.utf8EncodeChar

/-- What a lead byte promises: its own bits, the bytes that follow, and the range of the first. -/
structure Lead where
  bits : Nat
  tails : Nat
  low : Nat
  high : Nat

/-- The ranges keep out overlong forms, surrogates and values above U+10FFFF. -/
def lead? (b : Nat) : Option Lead :=
  if b < 0x80 then some ⟨b, 0, 0x80, 0xBF⟩
  else if b < 0xC2 then none
  else if b < 0xE0 then some ⟨b - 0xC0, 1, 0x80, 0xBF⟩
  else if b = 0xE0 then some ⟨0x0, 2, 0xA0, 0xBF⟩
  else if b = 0xED then some ⟨0xD, 2, 0x80, 0x9F⟩
  else if b < 0xF0 then some ⟨b - 0xE0, 2, 0x80, 0xBF⟩
  else if b = 0xF0 then some ⟨0x0, 3, 0x90, 0xBF⟩
  else if b < 0xF4 then some ⟨b - 0xF0, 3, 0x80, 0xBF⟩
  else if b = 0xF4 then some ⟨0x4, 3, 0x80, 0x8F⟩
  else none

/-- Reads `count` continuation bytes onto `acc`, or stops before the first that does not fit. -/
def readTails : (acc count low high : Nat) → Bytes → Option Nat × Bytes
  | acc, 0, _, _, rest => (some acc, rest)
  | _, _ + 1, _, _, [] => (none, [])
  | acc, count + 1, low, high, b :: rest =>
    if low ≤ b.toNat ∧ b.toNat ≤ high then
      readTails (acc * 64 + (b.toNat - 0x80)) count 0x80 0xBF rest
    else (none, b :: rest)

theorem length_readTails_le (acc count low high : Nat) (bytes : Bytes) :
    (readTails acc count low high bytes).2.length ≤ bytes.length := by
  fun_induction readTails acc count low high bytes with
  | case1 => simp
  | case2 => simp
  | case3 _ _ _ _ _ _ _ ih => simp only [List.length_cons]; omega
  | case4 => simp

/-- The next character and the bytes after it; `none` stands for an ill-formed prefix. -/
def next (b : UInt8) (rest : Bytes) : Option Nat × Bytes :=
  match lead? b.toNat with
  | none => (none, rest)
  | some lead => readTails lead.bits lead.tails lead.low lead.high rest

theorem length_next_le (b : UInt8) (rest : Bytes) : (next b rest).2.length ≤ rest.length := by
  unfold next
  split
  · simp
  · exact length_readTails_le ..

def replacement : Char := '\uFFFD'

/-- Decodes onto `acc`, which holds the characters so far, last one first. -/
def decodeOnto (acc : List Char) : Bytes → List Char
  | [] => acc.reverse
  | b :: rest =>
    decodeOnto (((next b rest).1.elim replacement Char.ofNat) :: acc) (next b rest).2
termination_by bytes => bytes.length
decreasing_by
  have := length_next_le b rest
  simp only [List.length_cons]
  omega

def decodeLossy (bytes : Bytes) : String := String.ofList (decodeOnto [] bytes)

end RecordStore.Utf8
