import RecordStore.Text.Hex

/-! # Writing JSON text -/

namespace RecordStore.Json

/-- Quotes, backslashes and controls are escaped; every other character stands as it is. -/
def escape (c : Char) : List Char :=
  if c = '"' then ['\\', '"']
  else if c = '\\' then ['\\', '\\']
  else if c = '\x08' then ['\\', 'b']
  else if c = '\x0c' then ['\\', 'f']
  else if c = '\n' then ['\\', 'n']
  else if c = '\r' then ['\\', 'r']
  else if c = '\t' then ['\\', 't']
  else if c.toNat < 0x20 then ['\\', 'u'] ++ Hex.padded 4 c.toNat
  else [c]

def quoted (text : String) : List Char := '"' :: text.toList.flatMap escape ++ ['"']

def ofWord (n : UInt64) : List Char := Nat.toDigits 10 n.toNat

def ofBool : Bool → List Char
  | true => ['t', 'r', 'u', 'e']
  | false => ['f', 'a', 'l', 's', 'e']

/-- What is to be written: a scalar given by its text, or a structure. -/
inductive Layout where
  | scalar (text : List Char)
  | array (items : List Layout)
  | object (members : List (String × Layout))

def commas : List (List Char) → List Char
  | [] => []
  | [part] => part
  | part :: rest => part ++ ',' :: commas rest

/-! ## Without blanks -/

mutual

def compact : Layout → List Char
  | .scalar text => text
  | .array items => '[' :: commas (compactItems items) ++ [']']
  | .object members => '\x7b' :: commas (compactMembers members) ++ ['\x7d']

def compactItems : List Layout → List (List Char)
  | [] => []
  | item :: rest => compact item :: compactItems rest

def compactMembers : List (String × Layout) → List (List Char)
  | [] => []
  | (key, value) :: rest => (quoted key ++ ':' :: compact value) :: compactMembers rest

end

/-! ## One item a line, two blanks a level -/

def newline (level : Nat) : List Char := '\n' :: List.replicate (2 * level) ' '

/-- Items between brackets, each on its own line; nothing at all stands on one line. -/
def lines (opening closing : Char) (level : Nat) : List (List Char) → List Char
  | [] => [opening, closing]
  | parts => opening :: commas (parts.map (newline (level + 1) ++ ·)) ++ newline level ++ [closing]

mutual

def indented (level : Nat) : Layout → List Char
  | .scalar text => text
  | .array items => lines '[' ']' level (indentedItems (level + 1) items)
  | .object members => lines '\x7b' '\x7d' level (indentedMembers (level + 1) members)

def indentedItems (level : Nat) : List Layout → List (List Char)
  | [] => []
  | item :: rest => indented level item :: indentedItems level rest

def indentedMembers (level : Nat) : List (String × Layout) → List (List Char)
  | [] => []
  | (key, value) :: rest =>
    (quoted key ++ [':', ' '] ++ indented level value) :: indentedMembers level rest

end

def Layout.compactText (layout : Layout) : String := String.ofList (compact layout)
def Layout.indentedText (layout : Layout) : String := String.ofList (indented 0 layout)

end RecordStore.Json
