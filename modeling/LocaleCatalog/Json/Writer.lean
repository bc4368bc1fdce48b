/-!
# Writing JSON

Objects and lists are written one member a line, indented by two spaces a level, and as `{}` or
`[]` when they hold nothing. The members of an object are written in the order they are given in;
a caller that wants them sorted gives them sorted. Texts are written as they are but for the quote,
the backslash and the control characters below the space.
-/

namespace LocaleCatalog.Json

/-! ## 1. Texts -/

/-- A hexadecimal digit. -/
def hexDigit (n : Nat) : Char :=
  if n < 10 then Char.ofNat (48 + n) else Char.ofNat (87 + n)

/-- One character as it stands between the quotes. -/
def writeChar (c : Char) : List Char :=
  match c with
  | '"' => ['\\', '"']
  | '\\' => ['\\', '\\']
  | '\x08' => ['\\', 'b']
  | '\x0c' => ['\\', 'f']
  | '\n' => ['\\', 'n']
  | '\r' => ['\\', 'r']
  | '\t' => ['\\', 't']
  | c =>
    if c.toNat < 0x20 then ['\\', 'u', '0', '0', hexDigit (c.toNat / 16), hexDigit (c.toNat % 16)]
    else [c]

/-- The characters of a text between its quotes. -/
def writeChars (cs : List Char) : List Char :=
  cs.flatMap writeChar

/-- A text. -/
def writeText (s : String) : List Char :=
  '"' :: (writeChars s.toList ++ ['"'])

/-! ## 2. Lists and objects -/

/-- A new line at a level of nesting. -/
def newline (level : Nat) : List Char :=
  '\n' :: List.replicate (2 * level) ' '

/-- Written things on a line each, between brackets that stand at `level`. -/
def writeBetween (opening closing : Char) (level : Nat) (things : List (List Char)) : List Char :=
  if things.isEmpty then [opening, closing]
  else
    opening :: (List.intercalate [','] (things.map (newline (level + 1) ++ ·))
      ++ newline level ++ [closing])

/-- A member of an object; its value is written already. -/
def writeMember (member : String × List Char) : List Char :=
  writeText member.1 ++ ':' :: ' ' :: member.2

/-- An object at a level of nesting; its values are written already. -/
def writeObject (level : Nat) (members : List (String × List Char)) : List Char :=
  writeBetween '{' '}' level (members.map writeMember)

/-- A list of texts at a level of nesting. -/
def writeList (level : Nat) (items : List String) : List Char :=
  writeBetween '[' ']' level (items.map writeText)

end LocaleCatalog.Json
