import LocaleCatalog.Text.Blank

/-!
# Calls in a source text

A call is a name with an opening parenthesis behind it. There is no parser for the language of the
text: calls are looked for one after the other, and each is judged by what follows it.

* `findCall` finds the next call. The character before it must not be part of a word, so `attr(` is
  no call of `tr`, while `this.tr(` and `$tr(` are;
* `Argument.ofText` reads what follows: a literal in one of three quotes, or something else;
* `calls` lists all calls of a text with their arguments. Behind a closed literal the search goes
  on behind its quote; behind anything else it goes on right behind the parenthesis. So the places
  where calls end move on strictly, and a call is opened once.

A place in the text is given by what follows it: a list that ends the text's own list of characters
cannot cut a character in two.
-/

namespace LocaleCatalog.Source

/-! ## 1. The next call -/

/-- What opens a call: its name and a parenthesis. -/
structure CallToken where
  name : List Char

/-- The characters of the token. -/
def CallToken.chars (token : CallToken) : List Char :=
  token.name ++ ['(']

theorem CallToken.length_chars_pos (token : CallToken) : 0 < token.chars.length := by
  simp [CallToken.chars]

/-- A call may start behind `before`: at the start of the text, or behind a character that is
    neither an ASCII letter or digit nor an underscore. -/
def startsWord : Option Char → Bool
  | none => true
  | some c => !(c.isAlphanum || c = '_')

/-- What follows the next call in `text`, which stands behind `before`. A token inside a word is
    passed over as a whole. -/
def findCall (token : CallToken) (before : Option Char) (text : List Char) :
    Option { rest : List Char // rest.length < text.length } :=
  if h : token.chars <+: text then
    have shorter : (text.drop token.chars.length).length < text.length := by
      have h₁ := h.length_le
      have h₂ := token.length_chars_pos
      rw [List.length_drop]
      omega
    if startsWord before then some ⟨text.drop token.chars.length, shorter⟩
    else
      (findCall token (some '(') (text.drop token.chars.length)).map fun rest =>
        ⟨rest.1, Nat.lt_trans rest.2 shorter⟩
  else
    match text with
    | [] => none
    | c :: cs =>
      (findCall token (some c) cs).map fun rest => ⟨rest.1, Nat.lt_succ_of_lt rest.2⟩
termination_by text.length
decreasing_by
  · exact shorter
  · exact Nat.lt_succ_self _

/-! ## 2. The argument -/

/-- The three quotes. -/
def isQuote (c : Char) : Bool :=
  c = '\'' || c = '"' || c = '`'

/-- Splits a text at the first quote that no backslash precedes: the characters before it as they
    stand, and what follows it. `none` if the text ends first. -/
def literal (quote : Char) : List Char → Option (List Char × List Char)
  | [] => none
  | c :: rest =>
    if c = '\\' then
      match rest with
      | [] => none
      | d :: behind => (literal quote behind).map fun found => (c :: d :: found.1, found.2)
    else if c = quote then some ([], rest)
    else (literal quote rest).map fun found => (c :: found.1, found.2)

theorem length_literal_lt {quote : Char} {text body rest : List Char}
    (h : literal quote text = some (body, rest)) : rest.length < text.length := by
  fun_induction literal quote text generalizing body rest with
  | case1 => simp at h
  | case2 => simp at h
  | case3 d behind ih =>
    obtain ⟨found, hfound, heq⟩ := Option.map_eq_some_iff.1 h
    obtain ⟨rfl, rfl⟩ := Prod.mk.inj heq
    have := ih hfound
    simp only [List.length_cons]
    omega
  | case4 =>
    simp only [Option.some.injEq, Prod.mk.injEq] at h
    rw [← h.2]
    simp
  | case5 c rest _ _ ih =>
    obtain ⟨found, hfound, heq⟩ := Option.map_eq_some_iff.1 h
    obtain ⟨rfl, rfl⟩ := Prod.mk.inj heq
    exact Nat.lt_succ_of_lt (ih hfound)

/-- What follows the opening of a call. -/
inductive Argument (text : List Char) where
  /-- Nothing but blanks up to the end. -/
  | missing
  /-- Something that is no literal, or a literal that is never closed. -/
  | other
  /-- A literal: its quote, the characters in it, and what follows its closing quote. -/
  | literal (quote : Char) (body rest : List Char) (shorter : rest.length < text.length)

/-- Reads the argument of a call. -/
def Argument.ofText (text : List Char) : Argument text :=
  match h : text.dropWhile Text.isBlank with
  | [] => .missing
  | c :: behind =>
    if isQuote c then
      match h' : Source.literal c behind with
      | none => .other
      | some (body, rest) => .literal c body rest (by
          have h₁ := (List.dropWhile_suffix Text.isBlank (l := text)).length_le
          have h₂ := length_literal_lt h'
          rw [h, List.length_cons] at h₁
          omega)
    else .other

/-! ## 3. All calls -/

/-- A call: what follows its parenthesis, and its literal if it has one. -/
structure Call where
  behind : List Char
  literal : Option (List Char)

/-- The byte offset of the place just behind the parenthesis. -/
def Call.offset (text : List Char) (call : Call) : Nat :=
  (String.ofList text).utf8ByteSize - (String.ofList call.behind).utf8ByteSize

/-- The calls in `text`, which stands behind `before`, in their order. -/
def calls (token : CallToken) (before : Option Char) (text : List Char) : List Call :=
  match findCall token before text with
  | none => []
  | some ⟨behind, shorter⟩ =>
    match Argument.ofText behind with
    | .missing => [⟨behind, none⟩]
    | .other => ⟨behind, none⟩ :: calls token (some '(') behind
    | .literal quote body rest shorter' =>
      have : rest.length < text.length := Nat.lt_trans shorter' shorter
      ⟨behind, some body⟩ :: calls token (some quote) rest
termination_by text.length

end LocaleCatalog.Source
