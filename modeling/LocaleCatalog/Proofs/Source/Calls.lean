import LocaleCatalog.Source.Call

/-!
# Calls one after the other

The calls of a text are found step by step: what follows the next one (`Source.nextCall?`) tells its
argument, and where the search goes on.

* `Source.Argument.ofText_of_not_isQuote`, `Source.Argument.exists_ofText_of_literal`: an argument by
  the first character that is no blank;
* `Source.nextCall?_cons`, `Source.nextCall?_here`: the next call by the first characters of the
  text;
* `Source.calls_eq`: all calls by the next one. Texts with the same next call have the same calls
  (`Source.calls_congr`), so what stands before a text counts only for a call at its very start
  (`Source.calls_eq_of_startsWord`).
-/

namespace LocaleCatalog.Source

/-! ## 1. Arguments -/

section Arguments

variable {text : List Char} {c : Char} {more : List Char}

/-- A character that is no quote begins no literal. -/
theorem Argument.ofText_of_not_isQuote (hdrop : text.dropWhile Text.isBlank = c :: more)
    (hc : isQuote c = false) : Argument.ofText text = .other := by
  unfold Argument.ofText
  split
  · rename_i hnil
    rw [hdrop] at hnil
    cases hnil
  · rename_i hcons
    rw [hdrop] at hcons
    cases hcons
    rw [if_neg (by simp [hc])]

/-- What is read behind a quote is the literal. -/
theorem Argument.exists_ofText_of_literal (hdrop : text.dropWhile Text.isBlank = c :: more)
    (hc : isQuote c = true) {body rest : List Char} (hliteral : Source.literal c more = some (body, rest)) :
    ∃ shorter, Argument.ofText text = .literal c body rest shorter := by
  unfold Argument.ofText
  split
  · rename_i hnil
    rw [hdrop] at hnil
    cases hnil
  · rename_i hcons
    rw [hdrop] at hcons
    cases hcons
    rw [if_pos hc]
    split
    · rename_i hnone
      rw [hliteral] at hnone
      cases hnone
    · rename_i hsome
      rw [hliteral] at hsome
      cases hsome
      have hless := (List.dropWhile_suffix Text.isBlank (l := text)).length_le
      have hless' := length_literal_lt hliteral
      rw [hdrop, List.length_cons] at hless
      exact ⟨by omega, rfl⟩

end Arguments

/-! ## 2. The next call -/

variable {token : CallToken} {before : Option Char}

/-- What follows the next call. -/
def nextCall? (token : CallToken) (before : Option Char) (text : List Char) : Option (List Char) :=
  (findCall token before text).map Subtype.val

theorem nextCall?_nil : nextCall? token before [] = none := by
  unfold nextCall?
  rw [findCall, dif_neg (by simp [CallToken.chars])]
  rfl

theorem nextCall?_cons {c : Char} {text : List Char} (h : ¬ token.chars <+: c :: text) :
    nextCall? token before (c :: text) = nextCall? token (some c) text := by
  unfold nextCall?
  rw [findCall, dif_neg h, Option.map_map]
  rfl

/-- A token opens a call just if a word may start there; otherwise the search goes on behind it. -/
theorem nextCall?_here {text : List Char} (h : token.chars <+: text) :
    nextCall? token before text =
      if startsWord before then some (text.drop token.chars.length)
      else nextCall? token (some '(') (text.drop token.chars.length) := by
  unfold nextCall?
  rw [findCall, dif_pos h]
  split
  · rfl
  · rw [Option.map_map]
    rfl

/-! ## 3. All calls -/

/-- The calls of a text are given by what follows the next one. -/
theorem calls_eq (token : CallToken) (before : Option Char) (text : List Char) :
    calls token before text =
      match nextCall? token before text with
      | none => []
      | some behind =>
        match Argument.ofText behind with
        | .missing => [⟨behind, none⟩]
        | .other => ⟨behind, none⟩ :: calls token (some '(') behind
        | .literal quote body rest _ => ⟨behind, some body⟩ :: calls token (some quote) rest := by
  rw [calls]
  unfold nextCall?
  cases findCall token before text <;> rfl

theorem calls_congr {other : Option Char} {text text' : List Char}
    (h : nextCall? token before text = nextCall? token other text') :
    calls token before text = calls token other text' := by
  rw [calls_eq, h, ← calls_eq]

section Next

variable {text behind : List Char} (hnext : nextCall? token before text = some behind)

include hnext

theorem calls_of_missing (hargument : Argument.ofText behind = .missing) :
    calls token before text = [⟨behind, none⟩] := by
  rw [calls_eq, hnext]
  dsimp only
  rw [hargument]

theorem calls_of_other (hargument : Argument.ofText behind = .other) :
    calls token before text = ⟨behind, none⟩ :: calls token (some '(') behind := by
  rw [calls_eq, hnext]
  dsimp only
  rw [hargument]

theorem calls_of_literal {quote : Char} {body rest : List Char} {shorter : rest.length < behind.length}
    (hargument : Argument.ofText behind = .literal quote body rest shorter) :
    calls token before text = ⟨behind, some body⟩ :: calls token (some quote) rest := by
  rw [calls_eq, hnext]
  dsimp only
  rw [hargument]

end Next

/-- What stands before a text counts only for a call at its very start. -/
theorem calls_eq_of_startsWord {other : Option Char} (h : startsWord before = startsWord other)
    (text : List Char) : calls token before text = calls token other text := by
  refine calls_congr ?_
  by_cases htoken : token.chars <+: text
  · rw [nextCall?_here htoken, nextCall?_here htoken, h]
  · cases text with
    | nil => rw [nextCall?_nil, nextCall?_nil]
    | cons c text => rw [nextCall?_cons htoken, nextCall?_cons htoken]

end LocaleCatalog.Source
