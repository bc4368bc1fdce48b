import LocaleCatalog.Decimal.Layout
import LocaleCatalog.Text.Quoted

/-!
# What can be wrong with a JSON text, and where

* `Cause` says what was found; `Cause.message` is its wording, the only place that has one;
* `Fault` is a cause with the number of bytes that lie behind the point where it is reported. A
  reader knows what it has left and not where it started, so this is the measure it can give;
* `Fault.locate` turns the measure into a line and a column of the whole text. A column counts
  bytes, and a report may stand in the middle of a character: one byte past its start.
-/

namespace LocaleCatalog.Json

/-! ## 1. Causes -/

/-- A number as its text reads: a whole number of sixty-four bits, or a floating-point number. -/
inductive Number where
  | natural (n : Nat)
  | negative (n : Nat)
  | floating (x : Float)

/-- The value that stands where another kind of value was wanted. -/
inductive Unexpected where
  | null
  | boolean (b : Bool)
  | number (n : Number)
  | text (s : String)
  | list
  | object

/-- The kind of value that was wanted. -/
inductive Shape where
  | object
  | text
  | list
  | config
  deriving DecidableEq

/-- What is wrong with a text. -/
inductive Cause where
  | endInValue
  | endInObject
  | endInList
  | endInText
  | expectedColon
  | expectedCommaOrBrace
  | expectedCommaOrBracket
  | expectedValue
  | expectedWord
  | keyNotText
  | controlCharacter
  | invalidEscape
  | invalidNumber
  | numberOutOfRange
  | loneSurrogate
  | unfinishedSurrogate
  | trailingComma
  | trailingCharacters
  | wrongType (found : Unexpected) (wanted : Shape)
  | duplicateField (name : String)

/-! ## 2. Wording -/

/-- Numbers in messages are positional while the leading digit has an exponent from -5 to 15. -/
def numberLayout : Decimal.Layout := ⟨-5, 15⟩

/-- How a number is named in a message. -/
def Number.describe : Number → String
  | .natural n => s!"integer `{n}`"
  | .negative n => s!"integer `-{n}`"
  | .floating x => "floating point `" ++ numberLayout.renderFloat x ++ "`"

/-- How a value is named in a message. -/
def Unexpected.describe : Unexpected → String
  | .null => "null"
  | .boolean b => if b then "boolean `true`" else "boolean `false`"
  | .number n => n.describe
  | .text s => "string " ++ Text.quoted s
  | .list => "sequence"
  | .object => "map"

/-- How the wanted kind of value is named in a message. -/
def Shape.describe : Shape → String
  | .object => "a map"
  | .text => "a string"
  | .list => "a sequence"
  | .config => "struct Config"

/-- The wording of a cause. -/
def Cause.message : Cause → String
  | .endInValue => "EOF while parsing a value"
  | .endInObject => "EOF while parsing an object"
  | .endInList => "EOF while parsing a list"
  | .endInText => "EOF while parsing a string"
  | .expectedColon => "expected `:`"
  | .expectedCommaOrBrace => "expected `,` or `\x7d`"
  | .expectedCommaOrBracket => "expected `,` or `]`"
  | .expectedValue => "expected value"
  | .expectedWord => "expected ident"
  | .keyNotText => "key must be a string"
  | .controlCharacter => "control character (\\u0000-\\u001F) found while parsing a string"
  | .invalidEscape => "invalid escape"
  | .invalidNumber => "invalid number"
  | .numberOutOfRange => "number out of range"
  | .loneSurrogate => "lone leading surrogate in hex escape"
  | .unfinishedSurrogate => "unexpected end of hex escape"
  | .trailingComma => "trailing comma"
  | .trailingCharacters => "trailing characters"
  | .wrongType found wanted => s!"invalid type: {found.describe}, expected {wanted.describe}"
  | .duplicateField name => s!"duplicate field `{name}`"

/-! ## 3. Places -/

/-- The number of bytes a text takes. -/
def size (cs : List Char) : Nat :=
  (String.ofList cs).utf8ByteSize

/-- A cause, and how many bytes lie behind the point where it is reported. -/
structure Fault where
  cause : Cause
  left : Nat

/-- Reported just before `rest`. -/
def Fault.before (rest : List Char) (cause : Cause) : Fault :=
  ⟨cause, size rest⟩

/-- Reported one byte into `rest`, or at its end when nothing is left. -/
def Fault.within (rest : List Char) (cause : Cause) : Fault :=
  ⟨cause, size rest - 1⟩

/-- A place in a text: a line, counted from one, and the bytes before the place on that line. -/
structure Position where
  line : Nat
  column : Nat
  deriving Repr, DecidableEq

/-- The place `n` bytes behind `start`. -/
def Position.advance (start : Position) : List Char → Nat → Position
  | [], n => ⟨start.line, start.column + n⟩
  | c :: cs, n =>
    if n < c.utf8Size then ⟨start.line, start.column + n⟩
    else if c = '\n' then Position.advance ⟨start.line + 1, 0⟩ cs (n - 1)
    else Position.advance ⟨start.line, start.column + c.utf8Size⟩ cs (n - c.utf8Size)

/-- A fault with its place in the text. -/
structure Malformation where
  cause : Cause
  position : Position

/-- Finds the place of a fault in the text it was found in. -/
def Fault.locate (text : List Char) (fault : Fault) : Malformation :=
  ⟨fault.cause, Position.advance ⟨1, 0⟩ text (size text - fault.left)⟩

/-- The cause and its place, as one line. -/
def Malformation.message (m : Malformation) : String :=
  s!"{m.cause.message} at line {m.position.line} column {m.position.column}"

end LocaleCatalog.Json
