import LocaleCatalog.Text.Unprintable

/-!
# Text in double quotes

Messages show a foreign text between double quotes, so that its ends and its invisible characters
can be seen: a quote, a backslash, NUL, tab and the two line ends are written with a letter, and
any other character that does not show is written by its number.
-/

namespace LocaleCatalog.Text

/-- The digits of `n` to base sixteen, in lower case. -/
def hex (n : Nat) : String :=
  String.ofList (Nat.toDigits 16 n)

/-- One character as it stands between the quotes. -/
def quotedChar (c : Char) : String :=
  match c with
  | '"' => "\\\""
  | '\\' => "\\\\"
  | '\x00' => "\\0"
  | '\t' => "\\t"
  | '\n' => "\\n"
  | '\r' => "\\r"
  | c => if isUnprintable c then "\\u\x7b" ++ hex c.toNat ++ "\x7d" else c.toString

/-- The text in double quotes. -/
def quoted (s : String) : String :=
  "\"" ++ String.join (s.toList.map quotedChar) ++ "\""

/-- A list of texts, each quoted, in brackets. -/
def quotedList (texts : List String) : String :=
  "[" ++ ", ".intercalate (texts.map quoted) ++ "]"

end LocaleCatalog.Text
