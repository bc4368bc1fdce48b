import LocaleCatalog.Json.Fault

/-!
# Readers of JSON

A reader takes the characters that are left and returns a value with the characters that are left
then, or the fault it met. What is left then is shorter than what it got (`Parsed.shorter`), which
is why every loop over a text ends. Faults are met in the order of the text.
-/

namespace LocaleCatalog.Json

/-! ## 1. What a reader returns -/

/-- A value read from the start of `input`, and what is left of it. -/
structure Parsed (α : Type) (input : List Char) where
  value : α
  rest : List Char
  shorter : rest.length < input.length

/-- A reader of values. -/
abbrev Reader (α : Type) : Type :=
  (input : List Char) → Except Fault (Parsed α input)

namespace Parsed

variable {α β : Type} {input : List Char}

/-- One character was read. -/
def one (value : α) (c : Char) (rest : List Char) : Parsed α (c :: rest) :=
  ⟨value, rest, Nat.lt_succ_self _⟩

/-- The same, read from an input with one more character in front. -/
def behind (c : Char) (p : Parsed α input) : Parsed α (c :: input) :=
  ⟨p.value, p.rest, Nat.lt_succ_of_lt p.shorter⟩

/-- Another value was read from what the first one left; the second value is kept. -/
def followedBy (p : Parsed α input) (q : Parsed β p.rest) : Parsed β input :=
  ⟨q.value, q.rest, Nat.lt_trans q.shorter p.shorter⟩

/-- The value changed, the input left as it is. -/
def map (f : α → β) (p : Parsed α input) : Parsed β input :=
  ⟨f p.value, p.rest, p.shorter⟩

end Parsed

/-! ## 2. Tokens -/

/-- The four blanks that may stand between tokens. -/
def isSpace (c : Char) : Bool :=
  c = ' ' || c = '\n' || c = '\t' || c = '\r'

/-- What is left behind the blanks. -/
def skipSpace (cs : List Char) : List Char :=
  cs.dropWhile isSpace

/-- The first character that is no blank, if there is one. -/
def token? : (input : List Char) → Option (Parsed Char input)
  | [] => none
  | c :: rest => if isSpace c then (token? rest).map (·.behind c) else some (.one c c rest)

/-- The token with what stands behind it. -/
def Parsed.chars {input : List Char} (token : Parsed Char input) : List Char :=
  token.value :: token.rest

/-- A value was read from the token on, its own character included. -/
def Parsed.reread {α : Type} {input : List Char} (token : Parsed Char input)
    (p : Parsed α token.chars) : Parsed α input :=
  ⟨p.value, p.rest, Nat.lt_of_lt_of_le p.shorter token.shorter⟩

/-- Nothing but blanks is left where there is no token. -/
theorem token?_eq_none_iff {input : List Char} : token? input = none ↔ skipSpace input = [] := by
  induction input with
  | nil => simp [token?, skipSpace]
  | cons c rest ih =>
    by_cases h : isSpace c = true
    · simpa [token?, skipSpace, List.dropWhile_cons, h] using ih
    · simp [token?, skipSpace, h]

/-! ## 3. Documents -/

/-- Reads a whole text: one value, with nothing but blanks behind it. -/
def document {α : Type} (value : Reader α) (text : String) : Except Malformation α :=
  match value text.toList with
  | .error fault => .error (fault.locate text.toList)
  | .ok found =>
    match token? found.rest with
    | none => .ok found.value
    | some token =>
      .error ((Fault.within token.chars .trailingCharacters).locate text.toList)

end LocaleCatalog.Json
