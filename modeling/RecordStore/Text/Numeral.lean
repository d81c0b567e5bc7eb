/-!
# Unsigned numerals

The text of an unsigned number in a given base: one optional `+`, then digits. The leftmost
character that breaks the rules decides the error.
-/

namespace RecordStore.Numeral

inductive Fault where
  | empty
  | invalidDigit
  | overflow
  deriving DecidableEq, Repr

def Fault.message : Fault → String
  | .empty => "cannot parse integer from empty string"
  | .invalidDigit => "invalid digit found in string"
  | .overflow => "number too large to fit in target type"

def Fault.name : Fault → String
  | .empty => "Empty"
  | .invalidDigit => "InvalidDigit"
  | .overflow => "PosOverflow"

/-- The value of a digit, letters of either case standing for ten and above. -/
def digitValue? (radix : Nat) (c : Char) : Option Nat :=
  let value :=
    if '0' ≤ c ∧ c ≤ '9' then c.toNat - '0'.toNat
    else if 'a' ≤ c ∧ c ≤ 'z' then c.toNat - 'a'.toNat + 10
    else if 'A' ≤ c ∧ c ≤ 'Z' then c.toNat - 'A'.toNat + 10
    else radix
  if value < radix then some value else none

/-- Reads digits onto `acc`, refusing any value above `limit`. -/
def readDigits (radix limit : Nat) : Nat → List Char → Except Fault Nat
  | acc, [] => .ok acc
  | acc, c :: rest =>
    match digitValue? radix c with
    | none => .error .invalidDigit
    | some d =>
      if limit < acc * radix + d then .error .overflow
      else readDigits radix limit (acc * radix + d) rest

def read (radix limit : Nat) : List Char → Except Fault Nat
  | [] => .error .empty
  | ['+'] => .error .invalidDigit
  | '+' :: rest => readDigits radix limit 0 rest
  | text => readDigits radix limit 0 text

end RecordStore.Numeral
