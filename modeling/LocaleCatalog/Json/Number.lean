import LocaleCatalog.Json.Reader

/-!
# Numbers

Numbers occur only where another kind of value was wanted, so their value shows in messages alone.

* `numeral` reads a number as it is written: sign, digits, fraction, exponent;
* `Numeral.value` gives its value. A whole number that fits sixty-four bits is exact. Any other is
  a floating-point number: the leading digits that fit sixty-four bits, scaled by a power of ten.
-/

namespace LocaleCatalog.Json

/-! ## 1. As written -/

/-- A number as it is written. -/
structure Numeral where
  minus : Bool
  whole : List Char
  fraction : List Char
  /-- The exponent, if there is one: whether it has a minus, and its digits. -/
  exponent : Option (Bool × List Char)

/-- The digits that follow one digit. -/
def digitsFrom (digit : Char) : (rest : List Char) → Parsed (List Char) (digit :: rest)
  | [] => .one [digit] digit []
  | c :: rest =>
    if c.isDigit then ((digitsFrom c rest).map (digit :: ·)).behind digit
    else .one [digit] digit (c :: rest)

/-- Digits, of which there must be one. `atEnd` is the cause given where the text ends before
    it. -/
def digits (atEnd : Cause) : Reader (List Char)
  | [] => .error (.before [] atEnd)
  | c :: rest =>
    if c.isDigit then .ok (digitsFrom c rest) else .error (.within (c :: rest) .invalidNumber)

/-- The digits before the point. A zero stands alone. -/
def wholePart (atEnd : Cause) : Reader (List Char)
  | '0' :: c :: rest =>
    if c.isDigit then .error (.within (c :: rest) .invalidNumber)
    else .ok (.one ['0'] '0' (c :: rest))
  | input => digits atEnd input

/-- Reads a point with digits behind it, if there is a point. -/
def withFraction (atEnd : Cause) {input : List Char} :
    Parsed Numeral input → Except Fault (Parsed Numeral input)
  | ⟨n, '.' :: rest, shorter⟩ => do
    let fraction ← digits atEnd rest
    return Parsed.followedBy ⟨n, '.' :: rest, shorter⟩
      ((fraction.map fun ds => { n with fraction := ds }).behind '.')
  | p => return p

/-- Reads the sign and the digits of an exponent. -/
def signedDigits (atEnd : Cause) : Reader (Bool × List Char)
  | '+' :: rest => return ((← digits atEnd rest).map ((false, ·))).behind '+'
  | '-' :: rest => return ((← digits atEnd rest).map ((true, ·))).behind '-'
  | rest => return (← digits atEnd rest).map ((false, ·))

/-- Reads an `e` with an exponent behind it, if there is an `e`. -/
def withExponent (atEnd : Cause) {input : List Char} :
    Parsed Numeral input → Except Fault (Parsed Numeral input)
  | ⟨n, c :: rest, shorter⟩ =>
    if c = 'e' ∨ c = 'E' then do
      let exponent ← signedDigits atEnd rest
      return Parsed.followedBy ⟨n, c :: rest, shorter⟩
        ((exponent.map fun e => { n with exponent := some e }).behind c)
    else return ⟨n, c :: rest, shorter⟩
  | p => return p

/-- A number behind its sign. -/
def unsignedNumeral (minus : Bool) (atEnd : Cause) : Reader Numeral := fun input => do
  let whole ← wholePart atEnd input
  withExponent atEnd (← withFraction atEnd (whole.map fun ds => ⟨minus, ds, [], none⟩))

/-- A number. -/
def numeral (atEnd : Cause) : Reader Numeral
  | '-' :: rest => return (← unsignedNumeral true atEnd rest).behind '-'
  | input => unsignedNumeral false atEnd input

/-! ## 2. Value -/

/-- The least number that does not fit sixty-four bits. -/
def wordLimit : Nat := 0x10000000000000000

/-- The least number that does not fit thirty-one bits. -/
def exponentLimit : Nat := 0x80000000

/-- Takes digits into `n` as long as it stays below a limit; the digits that do not fit are left. -/
def absorb (limit n : Nat) : List Char → Nat × List Char
  | [] => (n, [])
  | c :: cs =>
    let next := n * 10 + (c.toNat - 48)
    if next < limit then absorb limit next cs else (n, c :: cs)

/-- A power of ten with a small exponent, as a floating-point number. -/
def powerOfTen (n : Nat) : Float :=
  Float.ofScientific 1 false n

/-- `significand` times a power of ten. The significand is rounded first, then the product or
    quotient; two quotients where one power of ten is not small enough. `none` if too large. -/
def scaled (significand : Nat) (exponent : Int) : Option Float :=
  let x := significand.toUInt64.toFloat
  if 0 ≤ exponent then
    if significand = 0 then some 0.0
    else if 308 < exponent then none
    else
      let y := x * powerOfTen exponent.toNat
      if y.isInf then none else some y
  else if -308 ≤ exponent then some (x / powerOfTen (-exponent).toNat)
  else if -616 ≤ exponent then some (x / powerOfTen 308 / powerOfTen (-exponent - 308).toNat)
  else some 0.0

/-- A floating-point number with the sign of the numeral. -/
def Numeral.signed (written : Numeral) (x : Float) : Number :=
  .floating (if written.minus then -x else x)

/-- The value of a numeral without fraction and exponent whose digits make up `n`. -/
def Numeral.wholeValue (written : Numeral) (n : Nat) : Number :=
  if written.minus then
    if n = 0 ∨ wordLimit / 2 < n then written.signed n.toUInt64.toFloat else .negative n
  else .natural n

/-- The number that a numeral stands for; `rest` is what stands behind it. Whole numbers of
    sixty-four bits are exact, all others are floating-point numbers. -/
def Numeral.value (written : Numeral) (rest : List Char) : Except Fault Number :=
  let (whole, spilt) := absorb wordLimit 0 written.whole
  let (significand, dropped) := absorb wordLimit whole written.fraction
  let start : Int :=
    Int.ofNat spilt.length + Int.ofNat dropped.length - Int.ofNat written.fraction.length
  let finish (exponent : Int) : Except Fault Number :=
    match scaled significand exponent with
    | some x => .ok (written.signed x)
    | none => .error (.before rest .numberOutOfRange)
  match written.exponent with
  | none =>
    if written.fraction = [] ∧ spilt = [] then .ok (written.wholeValue significand)
    else finish start
  | some (minus, ds) =>
    match absorb exponentLimit 0 ds with
    | (e, []) => finish (if minus then start - e else start + e)
    | (_, _ :: unread) =>
      if significand ≠ 0 ∧ minus = false then .error (.before (unread ++ rest) .numberOutOfRange)
      else .ok (written.signed 0.0)

/-- Reads a number to its value. -/
def number : Reader Number := fun input => do
  let written ← numeral .endInValue input
  let n ← written.value.value written.rest
  return written.map fun _ => n

end LocaleCatalog.Json
