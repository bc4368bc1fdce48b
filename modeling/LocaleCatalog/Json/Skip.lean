import LocaleCatalog.Json.Structure

/-!
# Values that are read past

A member that nobody asks for is skipped. Its form is checked and its value is not: a number may be
too large, an escape may be half of a pair. Nesting has no limit, so the open brackets are kept in
a list (`skipWithin`), and each round reads one scalar or one opening bracket (`skipStep`).
-/

namespace LocaleCatalog.Json

/-! ## 1. Texts -/

/-- Reads past what stands behind a backslash. -/
def skipEscape : Reader Unit
  | [] => .error (.before [] .endInText)
  | c :: rest =>
    if c = 'u' then (hexUnit rest).map fun unit => (unit.map fun _ => ()).behind c
    else if (escapeLetter? c).isSome then .ok (.one () c rest)
    else .error (.within (c :: rest) .invalidEscape)

/-- Reads past a text behind its opening quote. -/
def skipQuoted : Reader Unit
  | [] => .error (.before [] .endInText)
  | c :: rest =>
    if c = '"' then .ok (.one () c rest)
    else if c = '\\' then do
      let first ← skipEscape rest
      return (first.followedBy (← skipQuoted first.rest)).behind c
    else if c.toNat < 0x20 then .error (.before (c :: rest) .controlCharacter)
    else (skipQuoted rest).map (·.behind c)
termination_by input => input.length
decreasing_by
  · exact Nat.lt_succ_of_lt first.shorter
  · exact Nat.lt_succ_self _

/-! ## 2. Brackets -/

/-- The two kinds of brackets. -/
inductive Bracket where
  | brace
  | square

/-- The bracket that closes. -/
def Bracket.closing : Bracket → Char
  | .brace => '}'
  | .square => ']'

/-- The cause given where the text ends inside. -/
def Bracket.atEnd : Bracket → Cause
  | .brace => .endInObject
  | .square => .endInList

/-- The cause given where neither a comma nor the closing bracket follows. -/
def Bracket.expected : Bracket → Cause
  | .brace => .expectedCommaOrBrace
  | .square => .expectedCommaOrBracket

variable {input : List Char}

/-- Reads past what precedes a value inside a bracket: nothing in a list, a key and a colon in an
    object. -/
def skipKey (bracket : Bracket) (p : Parsed Unit input) : Except Fault (Parsed Unit input) :=
  match bracket with
  | .square => .ok p
  | .brace =>
    match token? p.rest with
    | none => .error (.within [] .endInObject)
    | some token =>
      if token.value = '"' then do
        let key ← skipQuoted token.rest
        return p.followedBy (token.followedBy (key.followedBy (← colon key.rest)))
      else .error (.within token.chars .keyNotText)

/-- Behind a value: closes brackets up to the first one that goes on with a comma. What is returned
    are the brackets inside which a value must follow; none if the skipping is over. -/
def skipClosing : List Bracket → Parsed Unit input → Except Fault (Parsed (List Bracket) input)
  | [], p => .ok (p.map fun _ => [])
  | bracket :: brackets, p =>
    match token? p.rest with
    | none => .error (.within [] bracket.atEnd)
    | some token =>
      let taken := p.followedBy (token.map fun _ => ())
      if token.value = bracket.closing then skipClosing brackets taken
      else if token.value = ',' then
        (skipKey bracket taken).map (·.map fun _ => bracket :: brackets)
      else .error (.within token.chars bracket.expected)

/-- Behind an opening bracket. -/
def skipOpened (bracket : Bracket) (brackets : List Bracket) (p : Parsed Unit input) :
    Except Fault (Parsed (List Bracket) input) :=
  match token? p.rest with
  | none => .error (.within [] bracket.atEnd)
  | some token =>
    if token.value = bracket.closing then
      skipClosing brackets (p.followedBy (token.map fun _ => ()))
    else (skipKey bracket p).map (·.map fun _ => bracket :: brackets)

/-- Reads past a scalar, or past an opening bracket, and the brackets that close behind it. -/
def skipStep (brackets : List Bracket) : Reader (List Bracket) := fun input =>
  match token? input with
  | none => .error (.within [] .endInValue)
  | some token => do
    let c := token.value
    let taken := token.map fun _ => ()
    if c = 'n' then skipClosing brackets (← word "ull".toList taken)
    else if c = 't' then skipClosing brackets (← word "rue".toList taken)
    else if c = 'f' then skipClosing brackets (← word "alse".toList taken)
    else if c = '"' then skipClosing brackets (token.followedBy (← skipQuoted token.rest))
    else if c = '-' ∨ c.isDigit then
      let written ← numeral .invalidNumber token.chars
      skipClosing brackets (token.reread (written.map fun _ => ()))
    else if c = '[' then skipOpened .square brackets taken
    else if c = '{' then skipOpened .brace brackets taken
    else throw (.within token.chars .expectedValue)

/-! ## 3. Whole values -/

/-- Reads past a value inside the open brackets, and past all that closes them. -/
def skipWithin (brackets : List Bracket) : Reader Unit := fun input => do
  let step ← skipStep brackets input
  match step.value with
  | [] => return step.map fun _ => ()
  | brackets => return step.followedBy (← skipWithin brackets step.rest)
termination_by input => input.length
decreasing_by exact step.shorter

/-- Reads past one value of any kind. -/
def skipValue : Reader Unit :=
  skipWithin []

end LocaleCatalog.Json
