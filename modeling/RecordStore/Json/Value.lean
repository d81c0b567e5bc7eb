/-! # JSON values as they stand in a text -/

namespace RecordStore.Json

/-- A piece of a string: a character, or one half of a surrogate pair given by an escape. -/
inductive Piece where
  | char (c : Char)
  | surrogate (unit : Nat)
  deriving DecidableEq, Repr

abbrev Pieces := List Piece

/-- Numbers keep their text, strings their surrogates, and objects the order of their members. -/
inductive Value where
  | null
  | bool (b : Bool)
  | number (text : List Char)
  | string (pieces : Pieces)
  | array (items : List Value)
  | object (members : List (Pieces × Value))
  deriving Inhabited

/-! ## Strings -/

def isHighSurrogate (unit : Nat) : Bool := 0xD800 ≤ unit && unit < 0xDC00
def isLowSurrogate (unit : Nat) : Bool := 0xDC00 ≤ unit && unit < 0xE000

/-- What a four-digit escape stands for. -/
def Piece.ofUnit (unit : Nat) : Piece :=
  if isHighSurrogate unit || isLowSurrogate unit then .surrogate unit else .char (Char.ofNat unit)

/-- The characters of a string, if each surrogate is half of a pair. -/
def characters? : Pieces → Option (List Char)
  | [] => some []
  | .char c :: rest => (c :: ·) <$> characters? rest
  | .surrogate high :: .surrogate low :: rest =>
    if isHighSurrogate high && isLowSurrogate low then
      (Char.ofNat (0x10000 + (high - 0xD800) * 0x400 + (low - 0xDC00)) :: ·) <$> characters? rest
    else none
  | .surrogate _ :: _ => none

def text? (pieces : Pieces) : Option String := String.ofList <$> characters? pieces

/-! ## Reading values as the types of the store -/

def maxWord : Nat := UInt64.size - 1

/-- The value of a number written with digits alone. -/
def wordOfDigits? (text : List Char) : Option UInt64 :=
  if text.all fun c => '0' ≤ c && c ≤ '9' then
    let n := text.foldl (fun acc c => acc * 10 + (c.toNat - '0'.toNat)) 0
    if n ≤ maxWord then some (UInt64.ofNat n) else none
  else none

namespace Value

def word? : Value → Option UInt64
  | number text => wordOfDigits? text
  | _ => none

def bool? : Value → Option Bool
  | bool b => some b
  | _ => none

def string? : Value → Option String
  | string pieces => text? pieces
  | _ => none

end Value

end RecordStore.Json
