import RecordStore.Text.Hidden

/-!
# Quoted text

Text between double quotes, as diagnostics show it: the usual one-letter escapes, `\u{…}` for
characters that would not be seen, and everything else as it is.
-/

namespace RecordStore.Quoted

def escape (c : Char) : List Char :=
  if c = '\x00' then ['\\', '0']
  else if c = '\t' then ['\\', 't']
  else if c = '\r' then ['\\', 'r']
  else if c = '\n' then ['\\', 'n']
  else if c = '\\' ∨ c = '"' then ['\\', c]
  else if c.toNat < 0x20 ∨ c.toNat = 0x7F ∨ Hidden.isHidden c then
    ['\\', 'u', '\x7b'] ++ Nat.toDigits 16 c.toNat ++ ['\x7d']
  else [c]

def quote (text : String) : String :=
  String.ofList ('"' :: text.toList.flatMap escape ++ ['"'])

end RecordStore.Quoted
