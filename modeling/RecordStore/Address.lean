import RecordStore.Text.Hex

/-!
# Record addresses

An address is one 64-bit word: 14 bits name a backing file, 50 bits the offset in it.
-/

namespace RecordStore

structure Address where
  raw : UInt64
  deriving DecidableEq, Repr, Inhabited

namespace Address

def offsetBits : Nat := 50
def fileIndexBits : Nat := 14

/-- File indices stay below this. -/
def maxFileIndex : Nat := 1 <<< fileIndexBits

/-- Offsets stay below this. -/
def offsetLimit : Nat := 1 <<< offsetBits

def offsetMask : Nat := offsetLimit - 1

/-- Stands for no address: offset 0 lies in the file header, where no record is. -/
def null : Address := ⟨0⟩

def isNull (a : Address) : Bool := a.raw == 0

/-! ## Parts -/

def fileIndex (a : Address) : Nat := a.raw.toNat / offsetLimit
def offset (a : Address) : Nat := a.raw.toNat % offsetLimit

/-- The word of two parts that are known to fit. -/
def ofParts (fileIndex offset : Nat) : Address :=
  ⟨UInt64.ofNat (fileIndex * offsetLimit + offset)⟩

theorem maxFileIndex_eq : maxFileIndex = 16384 := rfl
theorem offsetLimit_eq : offsetLimit = 1125899906842624 := rfl
theorem offsetMask_eq : offsetMask = 1125899906842623 := rfl

theorem toNat_ofParts {i n : Nat} (hi : i < maxFileIndex) (hn : n ≤ offsetMask) :
    (ofParts i n).raw.toNat = i * offsetLimit + n := by
  rw [maxFileIndex_eq] at hi
  rw [offsetMask_eq] at hn
  rw [ofParts, offsetLimit_eq, UInt64.toNat_ofNat']
  exact Nat.mod_eq_of_lt (by omega)

theorem fileIndex_ofParts {i n : Nat} (hi : i < maxFileIndex) (hn : n ≤ offsetMask) :
    (ofParts i n).fileIndex = i := by
  rw [fileIndex, toNat_ofParts hi hn, offsetLimit_eq]
  rw [offsetMask_eq] at hn
  omega

theorem offset_ofParts {i n : Nat} (hi : i < maxFileIndex) (hn : n ≤ offsetMask) :
    (ofParts i n).offset = n := by
  rw [offset, toNat_ofParts hi hn, offsetLimit_eq]
  rw [offsetMask_eq] at hn
  omega

inductive Fault where
  | fileIndexTooLarge (fileIndex : Nat)
  | offsetTooLarge (offset : Nat)
  | offsetOverflow
  deriving DecidableEq, Repr

def Fault.message : Fault → String
  | .fileIndexTooLarge n => s!"file index {n} exceeds 14-bit address field"
  | .offsetTooLarge n => s!"offset {n} exceeds 50-bit address field"
  | .offsetOverflow => "address offset overflow"

def encode (fileIndex offset : Nat) : Except Fault Address :=
  if maxFileIndex ≤ fileIndex then .error (.fileIndexTooLarge fileIndex)
  else if offsetMask < offset then .error (.offsetTooLarge offset)
  else .ok (ofParts fileIndex offset)

/-- Moves within the file; an offset that leaves 64 bits is told apart from one that leaves 50. -/
def offsetBy (a : Address) (delta : Nat) : Except Fault Address :=
  if UInt64.size ≤ a.offset + delta then .error .offsetOverflow
  else encode a.fileIndex (a.offset + delta)

theorem encode_ok {fileIndex offset : Nat} {a : Address} (h : encode fileIndex offset = .ok a) :
    fileIndex < maxFileIndex ∧ offset ≤ offsetMask ∧ a = ofParts fileIndex offset := by
  unfold encode at h
  split at h
  · cases h
  · split at h
    · cases h
    · exact ⟨by omega, by omega, (Except.ok.inj h).symm⟩

theorem offsetBy_ok {a b : Address} {delta : Nat} (h : a.offsetBy delta = .ok b) :
    a.offset + delta ≤ offsetMask ∧ b = ofParts a.fileIndex (a.offset + delta) := by
  unfold offsetBy at h
  split at h
  · cases h
  · exact (encode_ok h).2

theorem offsetBy_ofParts {i n delta : Nat} (hi : i < maxFileIndex) (hn : n + delta ≤ offsetMask) :
    (ofParts i n).offsetBy delta = .ok (ofParts i (n + delta)) := by
  have hstart : n ≤ offsetMask := Nat.le_trans (Nat.le_add_right n delta) hn
  have hsize : UInt64.size = 2 ^ 64 := rfl
  rw [offsetBy, fileIndex_ofParts hi hstart, offset_ofParts hi hstart, encode,
    if_neg (by rw [offsetMask_eq] at hn; omega), if_neg (Nat.not_le_of_lt hi),
    if_neg (Nat.not_lt_of_le hn)]

/-! ## Order -/

instance : LT Address := ⟨fun a b => a.raw < b.raw⟩
instance : LE Address := ⟨fun a b => a.raw ≤ b.raw⟩
instance (a b : Address) : Decidable (a < b) := inferInstanceAs (Decidable (a.raw < b.raw))
instance (a b : Address) : Decidable (a ≤ b) := inferInstanceAs (Decidable (a.raw ≤ b.raw))

def insertOrdered (a : Address) : List Address → List Address
  | [] => [a]
  | b :: rest =>
    if a < b then a :: b :: rest
    else if a = b then b :: rest
    else b :: insertOrdered a rest

def sortDistinct (addresses : List Address) : List Address :=
  addresses.foldr insertOrdered []

/-! ## Text -/

def text (a : Address) : String := Hex.prefixed 16 a.raw.toNat

def debugText (a : Address) : String := s!"Address({a.raw.toNat})"

def ofText (text : List Char) : Except Numeral.Fault Address :=
  let raw :=
    match text with
    | '0' :: 'x' :: digits => Numeral.read 16 (UInt64.size - 1) digits
    | _ => Numeral.read 10 (UInt64.size - 1) text
  raw.map fun n => ⟨UInt64.ofNat n⟩

end Address

end RecordStore
