import LocaleCatalog.Json.Reader

/-!
# Texts in quotes

* `escape` reads what stands behind a backslash: a letter, or a character by number, for which two
  units of sixteen bits may be needed;
* `quotedChars` reads the characters up to the closing quote. Control characters must be escaped,
  and each kind of fault is reported where its last byte was looked at.
-/

namespace LocaleCatalog.Json

/-! ## 1. Characters by number -/

/-- The value of a hexadecimal digit. -/
def hexDigit? (c : Char) : Option Nat :=
  if '0' ≤ c ∧ c ≤ '9' then some (c.toNat - 48)
  else if 'a' ≤ c ∧ c ≤ 'f' then some (c.toNat - 87)
  else if 'A' ≤ c ∧ c ≤ 'F' then some (c.toNat - 55)
  else none

/-- The fault of a unit that is not made of four digits. Four bytes are taken all the same; if
    there are fewer, the text ends. -/
def hexFault (input : List Char) : Fault :=
  if size input < 4 then ⟨.endInText, 0⟩ else ⟨.invalidEscape, size input - 4⟩

/-- Four hexadecimal digits, that is, one unit of sixteen bits. -/
def hexUnit : Reader Nat
  | a :: b :: c :: d :: rest =>
    match hexDigit? a, hexDigit? b, hexDigit? c, hexDigit? d with
    | some w, some x, some y, some z =>
      let unit := ((w * 16 + x) * 16 + y) * 16 + z
      .ok ((((Parsed.one unit d rest).behind c).behind b).behind a)
    | _, _, _, _ => .error (hexFault (a :: b :: c :: d :: rest))
  | input => .error (hexFault input)

/-- The unit opens a pair. -/
def isHighSurrogate (n : Nat) : Bool := 0xD800 ≤ n && n ≤ 0xDBFF

/-- The unit closes a pair. -/
def isLowSurrogate (n : Nat) : Bool := 0xDC00 ≤ n && n ≤ 0xDFFF

/-- The character that two units of a pair stand for. -/
def pairChar (high low : Nat) : Char :=
  Char.ofNat (0x10000 + (high - 0xD800) * 0x400 + (low - 0xDC00))

/-- The second half of a pair, with its backslash; `high` was read before. -/
def secondUnit (high : Nat) : Reader Char
  | '\\' :: 'u' :: rest => do
    let low ← hexUnit rest
    if isLowSurrogate low.value then
      return ((low.map (pairChar high)).behind 'u').behind '\\'
    else throw (.before low.rest .loneSurrogate)
  | '\\' :: other :: rest => throw (.within (other :: rest) .unfinishedSurrogate)
  | '\\' :: [] => throw (.before [] .endInText)
  | other :: rest => throw (.within (other :: rest) .unfinishedSurrogate)
  | [] => throw (.before [] .endInText)

/-- A character written by number: one unit, or two that form a pair. -/
def unicodeEscape : Reader Char := fun input => do
  let first ← hexUnit input
  if isLowSurrogate first.value then throw (.before first.rest .loneSurrogate)
  else if isHighSurrogate first.value then
    return first.followedBy (← secondUnit first.value first.rest)
  else return first.map Char.ofNat

/-! ## 2. Escapes -/

/-- The character that a letter behind a backslash stands for. -/
def escapeLetter? : Char → Option Char
  | '"' => some '"'
  | '\\' => some '\\'
  | '/' => some '/'
  | 'b' => some '\x08'
  | 'f' => some '\x0c'
  | 'n' => some '\n'
  | 'r' => some '\r'
  | 't' => some '\t'
  | _ => none

/-- What stands behind a backslash. -/
def escape : Reader Char
  | [] => .error (.before [] .endInText)
  | c :: rest =>
    if c = 'u' then (unicodeEscape rest).map (·.behind c)
    else
      match escapeLetter? c with
      | some d => .ok (.one d c rest)
      | none => .error (.within (c :: rest) .invalidEscape)

/-! ## 3. Up to the closing quote -/

/-- The characters up to the closing quote, which is taken too. -/
def quotedChars : Reader (List Char)
  | [] => .error (.before [] .endInText)
  | c :: rest =>
    if c = '"' then .ok (.one [] c rest)
    else if c = '\\' then do
      let first ← escape rest
      let more ← quotedChars first.rest
      return (first.followedBy (more.map (first.value :: ·))).behind c
    else if c.toNat < 0x20 then .error (.before rest .controlCharacter)
    else do
      let more ← quotedChars rest
      return (more.map (c :: ·)).behind c
termination_by input => input.length
decreasing_by
  · exact Nat.lt_succ_of_lt first.shorter
  · exact Nat.lt_succ_self _

end LocaleCatalog.Json
