import RecordStore.Bytes
import RecordStore.Text.Numeral

/-! # Lower-case hexadecimal text -/

namespace RecordStore.Hex

/-- The digits of `n`, with zeros in front up to `width`. -/
def padded (width n : Nat) : List Char :=
  let digits := Nat.toDigits 16 n
  List.replicate (width - digits.length) '0' ++ digits

def encode (bytes : Bytes) : List Char := bytes.flatMap fun b => padded 2 b.toNat

def encodeText (bytes : Bytes) : String := String.ofList (encode bytes)

/-- The number `n` behind `0x`, at least `width` digits wide. -/
def prefixed (width n : Nat) : String := "0x" ++ String.ofList (padded width n)

/-! ## Payloads given as hexadecimal text -/

inductive Fault where
  | notAscii
  | oddLength
  | badPair (position : Nat) (fault : Numeral.Fault)
  deriving DecidableEq, Repr

def Fault.message : Fault → String
  | .notAscii => "hex payload must be ASCII"
  | .oddLength => "hex payload must have an even number of digits"
  | .badPair position fault => s!"invalid hex at position {position}: {fault.message}"

/-- Reads two characters at a time, each pair as a numeral of its own. -/
def decodePairs (acc : List UInt8) (position : Nat) : List Char → Except Fault Bytes
  | a :: b :: rest =>
    match Numeral.read 16 255 [a, b] with
    | .error fault => .error (.badPair position fault)
    | .ok value => decodePairs (UInt8.ofNat value :: acc) (position + 2) rest
  | _ => .ok acc.reverse

def decode (text : List Char) : Except Fault Bytes :=
  if text.any fun c => 128 ≤ c.toNat then .error .notAscii
  else if text.length % 2 ≠ 0 then .error .oddLength
  else decodePairs [] 0 text

end RecordStore.Hex
