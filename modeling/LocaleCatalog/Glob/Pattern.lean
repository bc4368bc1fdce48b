/-!
# Patterns for paths

A pattern is a text with wildcards: `?` is any character, `*` any characters, `[…]` a character out
of a class, `[!…]` one that is not in it, and `**` between slashes any number of components.

* `Pattern.parse` reads a pattern to its tokens, or says where the first error from the left is;
* `Pattern.matchesText` tests whether a text matches a pattern. It looks at the tokens alone.

A slash is a character like any other for all wildcards but `**`.
-/

namespace LocaleCatalog.Glob

/-! ## 1. Tokens -/

/-- One part of a character class. -/
inductive ClassPart where
  | single (c : Char)
  | range (first last : Char)
  deriving DecidableEq

/-- One token of a pattern. -/
inductive Token where
  | char (c : Char)
  | anyChar
  | anyChars
  | anyComponents
  | within (parts : List ClassPart)
  | outside (parts : List ClassPart)
  deriving DecidableEq

/-- A pattern, token by token. -/
structure Pattern where
  tokens : List Token

/-! ## 2. Syntax errors -/

/-- What is wrong with a pattern. -/
inductive PatternProblem where
  | tooManyStars
  | partOfComponent
  | badClass
  deriving DecidableEq

/-- What is wrong with a pattern, and at which character. -/
structure PatternError where
  position : Nat
  problem : PatternProblem

/-- The wording of a problem. -/
def PatternProblem.message : PatternProblem → String
  | .tooManyStars => "wildcards are either regular `*` or recursive `**`"
  | .partOfComponent => "recursive wildcards must form a single path component"
  | .badClass => "invalid range pattern"

/-- The wording of an error. -/
def PatternError.message (error : PatternError) : String :=
  s!"Pattern syntax error near position {error.position}: {error.problem.message}"

/-! ## 3. Reading -/

/-- The parts of a class; a dash between two characters makes a range of them. -/
def classParts : List Char → List ClassPart
  | a :: '-' :: b :: rest => .range a b :: classParts rest
  | a :: rest => .single a :: classParts rest
  | [] => []

/-- Splits behind the first bracket that is not the first character: the class, and the rest. -/
def splitClass : List Char → Option (List Char × List Char)
  | [] => none
  | first :: rest =>
    match rest.dropWhile (· ≠ ']') with
    | [] => none
    | _ :: behind => some (first :: rest.takeWhile (· ≠ ']'), behind)

theorem length_splitClass_lt {cs body rest : List Char} (h : splitClass cs = some (body, rest)) :
    rest.length < cs.length := by
  cases cs with
  | nil => simp [splitClass] at h
  | cons first more =>
    simp only [splitClass] at h
    split at h
    · simp at h
    · rename_i heq
      have hlen := (List.dropWhile_suffix (· ≠ ']') (l := more)).length_le
      rw [heq] at hlen
      simp only [Option.some.injEq, Prod.mk.injEq] at h
      rw [← h.2]
      simp only [List.length_cons] at hlen ⊢
      omega

/-- Reads a class behind its opening bracket. -/
def readClass : List Char → Option (Token × List Char)
  | '!' :: cs => (splitClass cs).map fun found => (.outside (classParts found.1), found.2)
  | cs => (splitClass cs).map fun found => (.within (classParts found.1), found.2)

theorem length_readClass_lt {cs rest : List Char} {token : Token}
    (h : readClass cs = some (token, rest)) : rest.length < cs.length := by
  unfold readClass at h
  split at h
  · obtain ⟨found, hfound, heq⟩ := Option.map_eq_some_iff.1 h
    obtain ⟨_, rfl⟩ := Prod.mk.inj heq
    exact Nat.lt_succ_of_lt (length_splitClass_lt hfound)
  · obtain ⟨found, hfound, heq⟩ := Option.map_eq_some_iff.1 h
    obtain ⟨_, rfl⟩ := Prod.mk.inj heq
    exact length_splitClass_lt hfound

/-- Reads tokens from the character with number `position` on; `fresh` says that a component
    starts there. -/
def readTokens (position : Nat) (fresh : Bool) (cs : List Char) :
    Except PatternError (List Token) :=
  match cs with
  | [] => .ok []
  | '?' :: rest => return .anyChar :: (← readTokens (position + 1) false rest)
  | '*' :: '*' :: '*' :: _ => .error ⟨position + 2, .tooManyStars⟩
  | '*' :: '*' :: rest =>
    if fresh then
      match rest with
      | [] => .ok [.anyComponents]
      | '/' :: behind => return .anyComponents :: (← readTokens (position + 3) true behind)
      | _ => .error ⟨position + 2, .partOfComponent⟩
    else .error ⟨position - 1, .partOfComponent⟩
  | '*' :: rest => return .anyChars :: (← readTokens (position + 1) false rest)
  | '[' :: rest =>
    match h : readClass rest with
    | none => .error ⟨position, .badClass⟩
    | some (token, behind) =>
      have := length_readClass_lt h
      return token :: (← readTokens (position + 1 + (rest.length - behind.length)) false behind)
  | c :: rest => return .char c :: (← readTokens (position + 1) (c = '/') rest)
termination_by cs.length

/-- Reads a pattern. -/
def Pattern.parse (text : String) : Except PatternError Pattern :=
  (readTokens 0 true text.toList).map .mk

/-! ## 4. Matching -/

/-- The character belongs to the part of a class. -/
def ClassPart.has (part : ClassPart) (c : Char) : Bool :=
  match part with
  | .single d => c = d
  | .range first last => first ≤ c && c ≤ last

/-- The texts that one token for a single character matches. -/
def Token.accepts (token : Token) (c : Char) : Bool :=
  match token with
  | .char d => c = d
  | .anyChar => true
  | .within parts => parts.any (·.has c)
  | .outside parts => !parts.any (·.has c)
  | .anyChars | .anyComponents => false

/-- Some end of the text, the whole of it and nothing included, passes the test. -/
def anyEnd (test : List Char → Bool) : List Char → Bool
  | [] => test []
  | c :: cs => test (c :: cs) || anyEnd test cs

/-- What stands behind some slash of the text, or nothing, passes the test. -/
def anyBehindSlash (test : List Char → Bool) : List Char → Bool
  | [] => test []
  | c :: cs => (c = '/' && test cs) || anyBehindSlash test cs

/-- The tokens match the whole text. -/
def matchTokens : List Token → List Char → Bool
  | [], cs => cs.isEmpty
  | .anyChars :: tokens, cs => anyEnd (matchTokens tokens) cs
  | .anyComponents :: tokens, cs => matchTokens tokens cs || anyBehindSlash (matchTokens tokens) cs
  | _ :: _, [] => false
  | token :: tokens, c :: cs => token.accepts c && matchTokens tokens cs

/-- The pattern matches the whole text. -/
def Pattern.matchesText (pattern : Pattern) (text : String) : Bool :=
  matchTokens pattern.tokens text.toList

/-! ## 5. Patterns without wildcards -/

/-- The character that a token stands for, if it is no wildcard. -/
def Token.char? : Token → Option Char
  | .char c => some c
  | _ => none

/-- The text that a pattern without wildcards stands for. -/
def Pattern.literal? (pattern : Pattern) : Option String :=
  (pattern.tokens.mapM Token.char?).map String.ofList

/-- The pattern is `**`, that is, any number of components. -/
def Pattern.isRecursive (pattern : Pattern) : Bool :=
  pattern.tokens = [.anyComponents]

end LocaleCatalog.Glob
