import LocaleCatalog.Glob.Expand
import LocaleCatalog.Proofs.FileTree.Landing

/-!
# Reading patterns

* `Glob.IsBare`: a text without the characters that wildcards start with. It is read as itself
  (`Glob.parse_of_isBare`), and nothing else is read as a text without wildcards
  (`Glob.eq_of_literal?`);
* `Glob.isOk_parse_append`: behind a bare directory a pattern can be read just if it can be read by
  itself;
* `Glob.matchesText_component`: the pattern that asks for a component of a given name, anywhere but
  at the end, matches a path just if the path has it there.
-/

namespace LocaleCatalog.Glob

/-! ## 1. Texts without wildcards -/

/-- None of the characters starts a wildcard. -/
def IsBare (cs : List Char) : Prop :=
  '?' ∉ cs ∧ '*' ∉ cs ∧ '[' ∉ cs

instance (cs : List Char) : Decidable (IsBare cs) :=
  inferInstanceAs (Decidable (_ ∧ _))

theorem isBare_cons {c : Char} {cs : List Char} :
    IsBare (c :: cs) ↔ (c ≠ '?' ∧ c ≠ '*' ∧ c ≠ '[') ∧ IsBare cs := by
  unfold IsBare
  simp only [List.mem_cons, not_or, ne_eq]
  constructor
  · intro h
    exact ⟨⟨Ne.symm h.1.1, Ne.symm h.2.1.1, Ne.symm h.2.2.1⟩, h.1.2, h.2.1.2, h.2.2.2⟩
  · intro h
    exact ⟨⟨Ne.symm h.1.1, h.2.1⟩, ⟨Ne.symm h.1.2.1, h.2.2.1⟩, Ne.symm h.1.2.2, h.2.2.2⟩

/-- A character that starts no wildcard is a token by itself. -/
theorem readTokens_cons {c : Char} (h : c ≠ '?' ∧ c ≠ '*' ∧ c ≠ '[') (position : Nat) (fresh : Bool)
    (rest : List Char) : readTokens position fresh (c :: rest) =
      (readTokens (position + 1) (c = '/') rest).map (.char c :: ·) := by
  rw [readTokens]
  · rfl
  · exact fun heq => h.1 heq
  · exact fun _ heq _ => h.2.1 heq
  · exact fun _ heq _ => h.2.1 heq
  · exact fun heq => h.2.1 heq
  · exact fun heq => h.2.2 heq

/-- Bare characters and a slash are read as themselves, and a component starts behind them. -/
theorem readTokens_append {cs : List Char} (h : IsBare cs) (position : Nat) (fresh : Bool)
    (rest : List Char) : readTokens position fresh (cs ++ '/' :: rest) =
      (readTokens (position + cs.length + 1) true rest).map
        (cs.map .char ++ .char '/' :: ·) := by
  induction cs generalizing position fresh with
  | nil =>
    rw [List.nil_append, readTokens_cons (by decide), decide_eq_true rfl]
    rfl
  | cons c cs ih =>
    obtain ⟨hc, hcs⟩ := isBare_cons.1 h
    rw [List.cons_append, readTokens_cons hc, ih hcs]
    have hlength : position + 1 + cs.length + 1 = position + (c :: cs).length + 1 := by
      rw [List.length_cons]
      omega
    rw [hlength]
    cases readTokens (position + (c :: cs).length + 1) true rest <;> rfl

/-- A bare text is read as itself. -/
theorem parse_of_isBare {text : String} (h : IsBare text.toList) :
    Pattern.parse text = .ok ⟨text.toList.map .char⟩ := by
  have hread {cs : List Char} (h : IsBare cs) (position : Nat) (fresh : Bool) :
      readTokens position fresh cs = .ok (cs.map .char) := by
    induction cs generalizing position fresh with
    | nil => rw [readTokens, List.map_nil]
    | cons c cs ih =>
      obtain ⟨hc, hcs⟩ := isBare_cons.1 h
      rw [readTokens_cons hc, ih hcs]
      rfl
  unfold Pattern.parse
  rw [hread h]
  rfl

theorem mapM_parse_of_isBare {texts : List String} (h : ∀ text ∈ texts, IsBare text.toList) :
    texts.mapM Pattern.parse = .ok (texts.map fun text => ⟨text.toList.map .char⟩) := by
  induction texts with
  | nil => rfl
  | cons text texts ih =>
    obtain ⟨htext, htexts⟩ := List.forall_mem_cons.1 h
    rw [List.mapM_cons, parse_of_isBare htext, ih htexts]
    rfl

theorem literal?_bare (text : String) :
    (⟨text.toList.map .char⟩ : Pattern).literal? = some text := by
  have hchars (cs : List Char) : (cs.map Token.char).mapM Token.char? = some cs := by
    induction cs with
    | nil => rfl
    | cons c cs ih =>
      rw [List.map_cons, List.mapM_cons, ih]
      rfl
  unfold Pattern.literal?
  rw [hchars]
  simp

/-! ## 2. Reading behind other characters -/

theorem isOk_map {ε α β : Type} (f : α → β) (result : Except ε α) :
    (result.map f).isOk = result.isOk := by
  cases result <;> rfl

/-- Where a pattern starts does not decide whether it can be read. -/
theorem isOk_readTokens (position other : Nat) (fresh : Bool) (cs : List Char) :
    (readTokens position fresh cs).isOk = (readTokens other fresh cs).isOk := by
  have hbind {α : Type} (f : List Token → α) (result : Except PatternError (List Token)) :
      (do return f (← result) : Except PatternError α).isOk = result.isOk := by
    cases result <;> rfl
  fun_induction readTokens position fresh cs generalizing other with
  | case1 => simp only [readTokens]
  | case2 _ _ _ ih =>
    simp only [readTokens, hbind]
    exact ih _
  | case3 =>
    simp only [readTokens]
    rfl
  | case4 =>
    simp only [readTokens]
    rfl
  | case5 _ _ _ ih =>
    simp only [readTokens, if_true, hbind]
    exact ih _
  | case6 _ _ hstar hnil hslash =>
    simp only [readTokens]
    rfl
  | case7 _ fresh rest hstar hfresh =>
    have hread : readTokens other fresh ('*' :: '*' :: rest) =
        .error ⟨other - 1, .partOfComponent⟩ := by
      unfold readTokens
      split <;> grind
    rw [hread]
    rfl
  | case8 _ _ _ hstars hstar ih =>
    simp only [readTokens, hbind]
    exact ih _
  | case9 _ _ _ hclass =>
    conv => rhs; rw [readTokens]
    split
    · rfl
    · simp_all
  | case10 _ _ _ _ _ hclass _ ih =>
    conv => rhs; rw [readTokens]
    split
    · simp_all
    · rename_i hclass'
      rw [hclass] at hclass'
      cases hclass'
      rw [hbind, hbind]
      exact ih _
  | case11 _ _ _ _ hany hstars hstar hlone hclass ih =>
    rw [hbind, readTokens_cons ⟨hany, hlone, hclass⟩, isOk_map]
    exact ih _

/-- Behind a bare text and a slash, a pattern can be read just if it can be read behind a slash. -/
theorem isOk_parse_append {front : List Char} (h : IsBare front) (cs : List Char) :
    (Pattern.parse (String.ofList (front ++ '/' :: cs))).isOk =
      (Pattern.parse (String.ofList ('/' :: cs))).isOk := by
  unfold Pattern.parse
  rw [isOk_map, isOk_map, String.toList_ofList, String.toList_ofList, readTokens_append h, isOk_map,
    readTokens_cons (by decide), isOk_map]
  exact isOk_readTokens _ _ _ _

theorem cons_eq_ok {token : Token} {result : Except PatternError (List Token)}
    {tokens : List Token} (h : (do return token :: (← result)) = Except.ok tokens) :
    ∃ more, result = .ok more ∧ tokens = token :: more := by
  obtain ⟨more, hmore, htokens⟩ := bind_eq_ok.1 h
  cases htokens
  exact ⟨more, hmore, rfl⟩

theorem mapM_char?_cons {token : Token} {tokens : List Token} {chars : List Char}
    (h : (token :: tokens).mapM Token.char? = some chars) :
    ∃ c more, token = .char c ∧ tokens.mapM Token.char? = some more ∧ chars = c :: more := by
  rw [List.mapM_cons] at h
  cases token with
  | char c =>
    cases hmore : tokens.mapM Token.char? with
    | none =>
      rw [hmore] at h
      cases h
    | some more =>
      rw [hmore] at h
      cases h
      exact ⟨c, more, rfl, rfl, rfl⟩
  | _ => cases h

/-- A class is a wildcard. -/
theorem char?_of_readClass {cs rest : List Char} {token : Token}
    (h : readClass cs = some (token, rest)) : token.char? = none := by
  unfold readClass at h
  split at h
  all_goals
    obtain ⟨found, -, heq⟩ := Option.map_eq_some_iff.1 h
    cases heq
    rfl

/-- Characters that are read as a text without wildcards are those of this text. -/
theorem eq_of_readTokens {position : Nat} {fresh : Bool} {cs chars : List Char}
    {tokens : List Token} (h : readTokens position fresh cs = .ok tokens)
    (hchars : tokens.mapM Token.char? = some chars) : chars = cs := by
  fun_induction readTokens position fresh cs generalizing tokens chars with
  | case1 =>
    cases h
    cases hchars
    rfl
  | case2 | case5 | case8 =>
    obtain ⟨more, -, rfl⟩ := cons_eq_ok h
    obtain ⟨c, rest, hc, -⟩ := mapM_char?_cons hchars
    cases hc
  | case4 =>
    cases h
    obtain ⟨c, rest, hc, -⟩ := mapM_char?_cons hchars
    cases hc
  | case3 | case6 | case7 | case9 => cases h
  | case10 _ _ _ _ _ hclass =>
    obtain ⟨more, -, rfl⟩ := cons_eq_ok h
    obtain ⟨c, rest, rfl, -⟩ := mapM_char?_cons hchars
    cases char?_of_readClass hclass
  | case11 _ _ _ _ _ _ _ _ _ ih =>
    obtain ⟨more, hmore, rfl⟩ := cons_eq_ok h
    obtain ⟨c, rest, hc, hrest, rfl⟩ := mapM_char?_cons hchars
    cases hc
    rw [ih hmore hrest]

/-- What is read as a text without wildcards is this text. -/
theorem eq_of_literal? {text name : String} {pattern : Pattern}
    (h : Pattern.parse text = .ok pattern) (hname : pattern.literal? = some name) :
    name = text := by
  obtain ⟨tokens, htokens, rfl⟩ := map_eq_ok.1 h
  obtain ⟨chars, hchars, rfl⟩ := Option.map_eq_some_iff.1 hname
  rw [eq_of_readTokens htokens hchars, String.ofList_toList]

/-! ## 3. Components of a given name -/

theorem matchTokens_chars {chars : List Char} {tokens : List Token} {cs : List Char} :
    matchTokens (chars.map .char ++ tokens) cs = true ↔
      ∃ rest, cs = chars ++ rest ∧ matchTokens tokens rest = true := by
  induction chars generalizing cs with
  | nil => simp
  | cons c chars ih =>
    cases cs with
    | nil => simp [matchTokens]
    | cons d cs =>
      simp only [List.map_cons, List.cons_append, matchTokens, Token.accepts, Bool.and_eq_true,
        decide_eq_true_eq, ih]
      constructor
      · intro h
        obtain ⟨rfl, rest, rfl, hrest⟩ := h
        exact ⟨rest, rfl, hrest⟩
      · intro h
        obtain ⟨rest, heq, hrest⟩ := h
        obtain ⟨rfl, rfl⟩ := List.cons.inj heq
        exact ⟨rfl, rest, rfl, hrest⟩

/-- Any number of components match any text. -/
theorem matchTokens_anyComponents (cs : List Char) : matchTokens [.anyComponents] cs = true := by
  have hend (cs : List Char) : anyBehindSlash (matchTokens []) cs = true := by
    induction cs with
    | nil => simp [anyBehindSlash, matchTokens]
    | cons c cs ih => simp [anyBehindSlash, ih]
  rw [matchTokens, hend, Bool.or_true]

/-- A text starts with a component, and goes on behind it, just if its first piece is this
    component and not the last. -/
theorem exists_append_slash_iff {name cs : List Char} (h : '/' ∉ name) :
    (∃ rest, cs = name ++ '/' :: rest) ↔ ∃ more, Path.pieces cs = name :: more ∧ more ≠ [] := by
  constructor
  · intro hcs
    obtain ⟨rest, rfl⟩ := hcs
    refine ⟨Path.pieces rest, ?_, Path.pieces_ne_nil rest⟩
    rw [Path.pieces_append_slash, Path.pieces_of_not_mem h]
    rfl
  · intro hpieces
    obtain ⟨more, hpieces, hmore⟩ := hpieces
    obtain ⟨next, last, rfl⟩ := List.exists_cons_of_ne_nil hmore
    rw [Path.pieces_eq_splitOn] at hpieces
    have hcs : ['/'].intercalate (cs.splitOn '/') = cs := List.intercalate_splitOn ..
    rw [hpieces, List.intercalate_cons_cons] at hcs
    exact ⟨_, by rw [← hcs, List.append_assoc]; rfl⟩

/-- The pattern for a component of this name, anywhere but at the end. -/
def component (name : String) : String :=
  "**/" ++ name ++ "/**"

/-- What stands behind the first wildcard of that pattern: the text starts with the component, and
    goes on. -/
def startTokens (name : String) : List Token :=
  (name.toList ++ ['/']).map .char ++ [.anyComponents]

theorem parse_component {name : String} (h : IsBare name.toList) :
    Pattern.parse (component name) = .ok ⟨.anyComponents :: startTokens name⟩ := by
  have htext : (component name).toList =
      '*' :: '*' :: '/' :: (name.toList ++ '/' :: ['*', '*']) := by
    simp [component]
  have hend (position : Nat) : readTokens position true ['*', '*'] = .ok [.anyComponents] := by
    simp [readTokens]
  unfold Pattern.parse
  rw [htext, readTokens, if_pos rfl, readTokens_append h, hend]
  simp [startTokens, Except.map, bind, Except.bind, pure, Except.pure]

theorem matchTokens_startTokens {name : String} (h : '/' ∉ name.toList) (cs : List Char) :
    matchTokens (startTokens name) cs = true ↔
      ∃ more, Path.pieces cs = name.toList :: more ∧ more ≠ [] := by
  rw [← exists_append_slash_iff h, startTokens, matchTokens_chars]
  simp [matchTokens_anyComponents]

/-- A test for a first piece with others behind it, made behind all slashes, is one for the pieces
    between slashes. -/
theorem anyBehindSlash_iff {test : List Char → Bool} {name : List Char}
    (h : ∀ cs, test cs = true ↔ ∃ more, Path.pieces cs = name :: more ∧ more ≠ [])
    (cs : List Char) :
    anyBehindSlash test cs = true ↔ name ∈ (Path.pieces cs).tail.dropLast := by
  induction cs with
  | nil =>
    have hnil : test [] = false := by
      rw [Bool.eq_false_iff, Ne, h]
      simp [Path.pieces]
    simp [anyBehindSlash, Path.pieces, hnil]
  | cons c cs ih =>
    obtain ⟨piece, more, hpieces⟩ := List.exists_cons_of_ne_nil (Path.pieces_ne_nil cs)
    rw [hpieces] at ih
    rw [anyBehindSlash, Path.pieces, Bool.or_eq_true, Bool.and_eq_true, ih, h, hpieces]
    by_cases hc : c = '/'
    · cases more with
      | nil => simp [hc]
      | cons next more => simp [hc, eq_comm]
    · simp [hc]

/-- The pattern matches the texts that have the component, and something behind it. -/
theorem matchesText_component {name text : String} {pattern : Pattern} (h : IsBare name.toList)
    (hslash : '/' ∉ name.toList) (hpattern : Pattern.parse (component name) = .ok pattern) :
    pattern.matchesText text = true ↔ name.toList ∈ (Path.pieces text.toList).dropLast := by
  rw [parse_component h] at hpattern
  cases hpattern
  have hbehind := anyBehindSlash_iff (matchTokens_startTokens hslash) text.toList
  rw [Pattern.matchesText, matchTokens, Bool.or_eq_true, hbehind, matchTokens_startTokens hslash]
  obtain ⟨piece, more, hpieces⟩ := List.exists_cons_of_ne_nil (Path.pieces_ne_nil text.toList)
  rw [hpieces]
  cases more with
  | nil => simp
  | cons next more => simp [eq_comm]

end LocaleCatalog.Glob
