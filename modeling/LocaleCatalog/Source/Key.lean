import LocaleCatalog.Source.Call

/-!
# Keys

A key is the literal of a call, character by character as it stands in the source. A literal is a
key if it holds at least one character, no line end, and no `$` with a brace behind it, which would
be filled in at run time. `keysOf` lists the keys of a text, each once, where it first occurs.
-/

namespace LocaleCatalog.Source

/-- The start of a part that is filled in at run time. -/
def placeholder : List Char := ['$', '{']

/-- Whether the text opens such a part anywhere. -/
def opensPlaceholder : List Char → Bool
  | [] => false
  | c :: rest => placeholder.isPrefixOf (c :: rest) || opensPlaceholder rest

theorem opensPlaceholder_iff {body : List Char} :
    opensPlaceholder body = true ↔ placeholder <:+: body := by
  induction body with
  | nil => simp [opensPlaceholder, placeholder]
  | cons c rest ih =>
    rw [opensPlaceholder, Bool.or_eq_true, ih, List.isPrefixOf_iff_prefix, List.infix_cons_iff]

/-- The literal may be a key. -/
def IsKey (body : List Char) : Prop :=
  body ≠ [] ∧ '\n' ∉ body ∧ '\r' ∉ body ∧ ¬ placeholder <:+: body

instance (body : List Char) : Decidable (IsKey body) :=
  decidable_of_iff (body ≠ [] ∧ '\n' ∉ body ∧ '\r' ∉ body ∧ opensPlaceholder body = false) (by
    rw [IsKey, ← opensPlaceholder_iff, Bool.not_eq_true])

/-- The key of a call, if its literal is one. -/
def Call.key? (call : Call) : Option (List Char) :=
  call.literal.filter fun body => IsKey body

/-- The keys in a text, in the order of their first occurrence. -/
def keysOf (name text : String) : List String :=
  (((calls ⟨name.toList⟩ none text.toList).filterMap Call.key?).map String.ofList).eraseDups

end LocaleCatalog.Source
