import LocaleCatalog.Proofs.Distinct
import LocaleCatalog.Proofs.Source.Calls
import LocaleCatalog.Proofs.Source.Reference

/-!
# One text behind another

A text is closed for a call name (`Source.IsClosed`) if its end cuts off no call: the argument of
each can be told (`Source.Decided`), and a literal has its closing quote. Behind such a text and a
line end another text is read as if it stood alone, and the first one as if nothing followed.

* `Source.Decided.ofText_append`: an argument that can be told stays what it is;
* `Source.nextCall?_append`: no token reaches over a character that it does not hold, so the search
  finds a call before this character, or starts again behind it;
* `Source.calls_append`: the calls of the one text, and then those of the other;
* `Source.keysOf_append`: the keys of the one text, and then those that are new in the other.
-/

namespace LocaleCatalog.Source

/-! ## 1. Closed texts -/

/-- What stands behind a parenthesis tells the argument: a character that is no blank, and behind a
    quote the units of a literal and the same quote once more. -/
def Decided (behind : List Char) : Prop :=
  ∃ blanks c more, (∀ b ∈ blanks, Text.isBlank b = true) ∧ Text.isBlank c = false ∧
    behind = blanks ++ c :: more ∧
      (c ∈ ['\'', '"', '`'] → ∃ body rest, Units c body ∧ more = body ++ c :: rest)

/-- No call of the text is cut off by the end of the text. -/
def IsClosed (name text : String) : Prop :=
  ∀ call ∈ calls ⟨name.toList⟩ none text.toList, Decided call.behind

theorem decided_iff {behind : List Char} : Decided behind ↔
    ∃ c more, behind.dropWhile Text.isBlank = c :: more ∧
      (isQuote c = true → (literal c more).isSome = true) := by
  constructor
  · intro h
    obtain ⟨blanks, c, more, hblanks, hc, rfl, hquote⟩ := h
    refine ⟨c, more, ?_, fun hc' => ?_⟩
    · rw [List.dropWhile_append_of_pos hblanks, List.dropWhile_cons_of_neg (by simp [hc])]
    · obtain ⟨body, rest, hliteral⟩ := hquote (isQuote_iff.1 hc')
      rw [(literal_eq_some_iff (ne_backslash_of_isQuote hc')).2 hliteral]
      rfl
  · intro h
    obtain ⟨c, more, hdrop, hquote⟩ := h
    have hc := List.head?_dropWhile_not Text.isBlank behind
    rw [hdrop] at hc
    refine ⟨behind.takeWhile Text.isBlank, c, more, fun b hb => List.mem_takeWhile_imp hb,
      by simpa using hc, ?_, fun hmem => ?_⟩
    · rw [← hdrop, List.takeWhile_append_dropWhile]
    · have hc' := isQuote_iff.2 hmem
      obtain ⟨⟨body, rest⟩, hliteral⟩ := Option.isSome_iff_exists.1 (hquote hc')
      exact ⟨body, rest, (literal_eq_some_iff (ne_backslash_of_isQuote hc')).1 hliteral⟩

instance (behind : List Char) : Decidable (Decided behind) :=
  match h : behind.dropWhile Text.isBlank with
  | [] => isFalse (by simp [decided_iff, h])
  | c :: more =>
    decidable_of_iff (isQuote c = true → (literal c more).isSome = true) (by
      rw [decided_iff, h]
      constructor
      · intro hquote
        exact ⟨c, more, rfl, hquote⟩
      · intro hdecided
        obtain ⟨_, _, heq, hquote⟩ := hdecided
        cases heq
        exact hquote)

instance (name text : String) : Decidable (IsClosed name text) :=
  inferInstanceAs (Decidable (∀ call ∈ calls ⟨name.toList⟩ none text.toList, Decided call.behind))

/-! ## 2. Arguments -/

/-- A closed literal is the same in a text that goes on. -/
theorem literal_append {c : Char} (hc : isQuote c = true) {text body rest : List Char}
    (h : literal c text = some (body, rest)) (more : List Char) :
    literal c (text ++ more) = some (body, rest ++ more) := by
  have hslash := ne_backslash_of_isQuote hc
  obtain ⟨hunits, rfl⟩ := (literal_eq_some_iff hslash).1 h
  exact (literal_eq_some_iff hslash).2 ⟨hunits, by simp⟩

/-- An argument that can be told stays what it is in a text that goes on. -/
theorem Decided.ofText_append {behind : List Char} (h : Decided behind) (more : List Char) :
    match Argument.ofText behind with
    | .missing => False
    | .other => Argument.ofText (behind ++ more) = .other
    | .literal quote body rest _ =>
      ∃ shorter, Argument.ofText (behind ++ more) = .literal quote body (rest ++ more) shorter := by
  obtain ⟨c, inside, hdrop, hquote⟩ := decided_iff.1 h
  have hdrop' : (behind ++ more).dropWhile Text.isBlank = c :: (inside ++ more) := by
    simp [List.dropWhile_append, hdrop]
  cases hc : isQuote c with
  | false =>
    rw [Argument.ofText_of_not_isQuote hdrop hc]
    exact Argument.ofText_of_not_isQuote hdrop' hc
  | true =>
    obtain ⟨⟨body, rest⟩, hliteral⟩ := Option.isSome_iff_exists.1 (hquote hc)
    obtain ⟨shorter, hargument⟩ := Argument.exists_ofText_of_literal hdrop hc hliteral
    rw [hargument]
    exact Argument.exists_ofText_of_literal hdrop' hc (literal_append hc hliteral more)

/-! ## 3. Calls -/

variable {token : CallToken} {before : Option Char} {seam : Char}

/-- A token does not reach over a character that it does not hold. -/
theorem chars_prefix_append_iff (hseam : seam ∉ token.chars) {first second : List Char} :
    token.chars <+: first ++ seam :: second ↔ token.chars <+: first := by
  refine ⟨fun h => ?_, List.prefix_append_of_prefix⟩
  rcases List.prefix_or_prefix_of_prefix h (List.prefix_append first _) with hfirst | hover
  · exact hfirst
  · obtain ⟨extra, hsplit⟩ := hover
    cases extra with
    | nil => exact ⟨[], by simpa using hsplit.symm⟩
    | cons c extra =>
      rw [← hsplit, List.prefix_append_right_inj, List.cons_prefix_cons] at h
      exact absurd (by simp [← hsplit, h.1]) hseam

/-- The search finds a call before the character, or starts again behind it. -/
theorem nextCall?_append (hseam : seam ∉ token.chars) (before : Option Char)
    (first second : List Char) :
    nextCall? token before (first ++ seam :: second) =
      ((nextCall? token before first).map (· ++ seam :: second)).or
        (nextCall? token (some seam) second) := by
  induction before, first using findCall.induct token with
  | case1 before first htoken shorter hstart =>
    have hover := (@chars_prefix_append_iff _ _ hseam _ second).2 htoken
    rw [nextCall?_here hover, nextCall?_here htoken, if_pos hstart, if_pos hstart,
      List.drop_append_of_le_length htoken.length_le]
    rfl
  | case2 before first htoken shorter hinside ih =>
    have hover := (@chars_prefix_append_iff _ _ hseam _ second).2 htoken
    rw [nextCall?_here hover, nextCall?_here htoken, if_neg hinside, if_neg hinside,
      List.drop_append_of_le_length htoken.length_le]
    exact ih
  | case3 before hnone =>
    have hover : ¬ token.chars <+: seam :: second := (chars_prefix_append_iff hseam).not.2 hnone
    rw [List.nil_append, nextCall?_cons hover, nextCall?_nil]
    rfl
  | case4 before c first hnone ih =>
    have hover : ¬ token.chars <+: c :: (first ++ seam :: second) :=
      (@chars_prefix_append_iff _ _ hseam (c :: first) _).not.2 hnone
    rw [List.cons_append, nextCall?_cons hover, nextCall?_cons hnone]
    exact ih

/-- A call of a text, in a text that goes on. -/
def Call.append (call : Call) (more : List Char) : Call :=
  ⟨call.behind ++ more, call.literal⟩

/-- The calls of a text whose arguments can be told do not change in a text that goes on, and the
    calls behind it are found from there. -/
theorem calls_append (hseam : seam ∉ token.chars) {first : List Char}
    (hdecided : ∀ call ∈ calls token before first, Decided call.behind) (second : List Char) :
    calls token before (first ++ seam :: second) =
      (calls token before first).map (·.append (seam :: second)) ++
        calls token (some seam) second := by
  have hnext := nextCall?_append hseam before first second
  induction before, first using calls.induct token with
  | case1 before first hfind =>
    have hfirst : nextCall? token before first = none := by simp [nextCall?, hfind]
    have hcalls : calls token before first = [] := by rw [calls_eq, hfirst]
    rw [hfirst] at hnext
    rw [hcalls, calls_congr hnext]
    rfl
  | case2 before first behind shorter hfind hargument =>
    have hfirst : nextCall? token before first = some behind := by simp [nextCall?, hfind]
    rw [calls_of_missing hfirst hargument, List.forall_mem_singleton] at hdecided
    have hmissing := hdecided.ofText_append []
    rw [hargument] at hmissing
    exact hmissing.elim
  | case3 before first behind shorter hfind hargument ih =>
    have hfirst : nextCall? token before first = some behind := by simp [nextCall?, hfind]
    rw [hfirst] at hnext
    rw [calls_of_other hfirst hargument] at hdecided ⊢
    obtain ⟨hhere, hmore⟩ := List.forall_mem_cons.1 hdecided
    have hother := hhere.ofText_append (seam :: second)
    rw [hargument] at hother
    rw [calls_of_other hnext hother, ih hmore (nextCall?_append hseam _ _ _)]
    rfl
  | case4 before first behind shorter hfind quote body rest shorter' hargument _ ih =>
    have hfirst : nextCall? token before first = some behind := by simp [nextCall?, hfind]
    rw [hfirst] at hnext
    rw [calls_of_literal hfirst hargument] at hdecided ⊢
    obtain ⟨hhere, hmore⟩ := List.forall_mem_cons.1 hdecided
    have hliteral := hhere.ofText_append (seam :: second)
    rw [hargument] at hliteral
    obtain ⟨_, hliteral⟩ := hliteral
    rw [calls_of_literal hnext hliteral, ih hmore (nextCall?_append hseam _ _ _)]
    rfl

/-! ## 4. Keys -/

/-- A token holds no line end. -/
theorem not_mem_chars_of_isCallName {name : String} (h : Config.isCallName name = true) :
    '\n' ∉ (⟨name.toList⟩ : CallToken).chars := by
  rw [CallToken.chars, List.mem_append, not_or]
  exact ⟨fun hmem => absurd (isCallChar_of_isCallName h _ hmem) (by decide +kernel), by decide⟩

/-- Behind a closed text and a line end, the keys are those of the closed text, and then those that
    are new in what follows, in their order. -/
theorem keysOf_append {name first : String} (hname : Config.isCallName name = true)
    (hclosed : IsClosed name first) (second : String) :
    keysOf name (first ++ "\n" ++ second) =
      keysOf name first ++ (keysOf name second).filter fun key => key ∉ keysOf name first := by
  have htext : (first ++ "\n" ++ second).toList = first.toList ++ '\n' :: second.toList := by
    simp
  have hcalls := calls_append (not_mem_chars_of_isCallName hname) hclosed second.toList
  -- the line end and the start of a text are alike for the first call behind them
  have hstart := @calls_eq_of_startsWord ⟨name.toList⟩ (some '\n') none rfl second.toList
  have hkeys : ((calls ⟨name.toList⟩ none first.toList).map
      (·.append ('\n' :: second.toList))).filterMap Call.key? =
        (calls ⟨name.toList⟩ none first.toList).filterMap Call.key? := by
    rw [List.filterMap_map]
    rfl
  unfold keysOf
  rw [htext, hcalls, hstart, List.filterMap_append, hkeys, List.map_append, List.eraseDups_append,
    List.removeAll, eraseDups_filter]
  congr 1
  refine List.filter_congr fun key _ => ?_
  rw [Bool.eq_iff_iff]
  simp [List.mem_eraseDups]

/-- A call that the end of a text cuts off takes its argument from behind the line end. -/
example : keysOf "tr" "tr(" = [] ∧ keysOf "tr" "'a')" = [] ∧
    keysOf "tr" ("tr(" ++ "\n" ++ "'a')") = ["a"] := by
  decide +kernel

/-- A call inside a word, one with a literal, and one without. -/
def closedText : String :=
  "attr('x') tr( 'save' ) + tr(label)"

/-- A call at the very start, a key that is not new, and a literal that is never closed with a call
    in it. -/
def openText : String :=
  "tr('load') tr(\"save\") tr('cut tr(`in`)"

theorem keysOf_append_sample : Config.isCallName "tr" = true ∧ IsClosed "tr" closedText ∧
    keysOf "tr" (closedText ++ "\n" ++ openText) = ["save", "load", "in"] := by
  have hname : Config.isCallName "tr" = true := by decide +kernel
  have hclosed : IsClosed "tr" closedText := by decide +kernel
  refine ⟨hname, hclosed, (keysOf_append hname hclosed openText).trans ?_⟩
  decide +kernel

end LocaleCatalog.Source
