import RecordStore.Bytes

/-! # Record framing: a two-byte little-endian length, then the payload -/

namespace RecordStore.Record

def headerSize : Nat := 2
def maxLength : Nat := 65535

/-- The bytes that a payload of `length` bytes takes in a file. -/
def encodedLength (length : Nat) : Nat := headerSize + length

structure TooLong where
  length : Nat
  deriving DecidableEq, Repr

def TooLong.message (fault : TooLong) : String :=
  s!"record of {fault.length} bytes exceeds maximum of {maxLength}"

def header (length : Nat) : Bytes := [UInt8.ofNat (length % 256), UInt8.ofNat (length / 256)]

def encodeHeader (length : Nat) : Except TooLong Bytes :=
  if maxLength < length then .error ⟨length⟩ else .ok (header length)

theorem encodeHeader_ok {length : Nat} {bs : Bytes} (h : encodeHeader length = .ok bs) :
    length ≤ maxLength ∧ bs = header length := by
  unfold encodeHeader at h
  split at h
  · cases h
  · exact ⟨by omega, (Except.ok.inj h).symm⟩

/-- The length that the first two bytes give, if there are two. -/
def decodeHeader : Bytes → Option Nat
  | low :: high :: _ => some (low.toNat + 256 * high.toNat)
  | _ => none

/-- A whole record as it stands in a file. -/
def encode (payload : Bytes) : Bytes := header payload.length ++ payload

end RecordStore.Record
