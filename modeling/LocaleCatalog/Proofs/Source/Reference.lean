import Mathlib.Data.List.TakeWhile
import LocaleCatalog.Config.Basic
import LocaleCatalog.Source.Key

/-!
# Keys by a grammar

`Source.Emits name text p keys` says which keys a text emits from a place on, in terms of the whole
text and of places in it: where the next call opens (`FirstCall`), and whether a closed literal
follows it (`Closed`), made of units that a quote does not end (`Units`). Nothing is read there
character by character, and nothing is carried from one place to the next.

* `Source.findCall_spec`: the search finds the first call, although it passes over a token inside a
  word as a whole; for two tokens never overlap;
* `Source.literal_eq_some_iff`: a literal is read just if there is one;
* `Source.emits_calls`: from every place on the calls give the keys that are emitted;
* `Source.keysOf_eq_emitted`: the keys of a text are those that it emits from its start on, each
  once, where it first occurs; and it emits no others.
-/

namespace LocaleCatalog.Source

/-! ## 1. The grammar -/

/-- At a place opens a call: its name and a parenthesis stand there, and in the whole text no letter
    or digit of ASCII and no underscore stands before it. -/
def OpensAt (name text : List Char) (i : Nat) : Prop :=
  name ++ ['('] <+: text.drop i ∧
    ∀ c, (text.take i).getLast? = some c → c.isAlphanum = false ∧ c ≠ '_'

/-- The first call at or behind a place. -/
def FirstCall (name text : List Char) (p i : Nat) : Prop :=
  p ≤ i ∧ OpensAt name text i ∧ ∀ j, p ≤ j → j < i → ¬ OpensAt name text j

/-- A literal consists of escaped characters and of characters that are neither a backslash nor its
    quote. -/
inductive Units (quote : Char) : List Char → Prop where
  | nil : Units quote []
  | escaped (c : Char) {body : List Char} (h : Units quote body) : Units quote ('\\' :: c :: body)
  | plain {c : Char} {body : List Char} (hslash : c ≠ '\\') (hquote : c ≠ quote)
      (h : Units quote body) : Units quote (c :: body)

/-- Behind blanks the text has a literal that is closed, and the rest follows its closing quote. -/
def Closed (text body rest : List Char) : Prop :=
  ∃ blanks quote, (∀ b ∈ blanks, Text.isBlank b = true) ∧ quote ∈ ['\'', '"', '`'] ∧
    Units quote body ∧ text = blanks ++ quote :: (body ++ quote :: rest)

/-- The keys that a text emits from a place on. -/
inductive Emits (name text : List Char) : Nat → List (List Char) → Prop where
  | stop {p : Nat} (hnone : ∀ i, p ≤ i → ¬ OpensAt name text i) : Emits name text p []
  /-- The search goes on behind the literal, whether it is a key or not. -/
  | closed {p i : Nat} {body rest : List Char} {keys : List (List Char)}
      (hfirst : FirstCall name text p i)
      (hclosed : Closed (text.drop (i + name.length + 1)) body rest)
      (hmore : Emits name text (text.length - rest.length) keys) :
      Emits name text p (if IsKey body then body :: keys else keys)
  /-- Without a closed literal the search goes on behind the parenthesis. -/
  | other {p i : Nat} {keys : List (List Char)} (hfirst : FirstCall name text p i)
      (hnone : ∀ body rest, ¬ Closed (text.drop (i + name.length + 1)) body rest)
      (hmore : Emits name text (i + name.length + 1) keys) : Emits name text p keys

/-! ## 2. Calls -/

variable {name text : List Char}

/-- No token begins inside another one, for the parenthesis is no part of a name. -/
theorem not_prefix_drop (hname : '(' ∉ name) (h : name ++ ['('] <+: text) {k : Nat} (hpos : 0 < k)
    (hk : k ≤ name.length) : ¬ name ++ ['('] <+: text.drop k := by
  rintro hover
  -- the parenthesis of the first token would stand in the name of the second
  have hopen : text[name.length]? = some '(' := by
    rw [List.prefix_iff_getElem?.1 h name.length (by simp)]
    simp
  have hinside : name.length - k < name.length := by omega
  have hsame := List.prefix_iff_getElem?.1 hover (name.length - k)
    (by rw [List.length_append]; omega)
  rw [List.getElem?_drop, Nat.add_sub_cancel' hk, hopen, List.getElem_append_left hinside] at hsame
  exact hname (Option.some_inj.1 hsame ▸ List.getElem_mem hinside)

/-- The place behind a token, and what stands before it. -/
theorem eq_of_prefix_drop {i : Nat} (h : name ++ ['('] <+: text.drop i) :
    text = (text.take i ++ name ++ ['(']) ++ text.drop (i + name.length + 1) ∧
      (text.take i ++ name ++ ['(']).length = i + name.length + 1 := by
  have hle : i ≤ text.length := by
    by_contra hlt
    rw [List.drop_eq_nil_of_le (by omega)] at h
    have hlength := h.length_le
    simp at hlength
  obtain ⟨behind, hbehind⟩ := h
  have hdrop : text.drop (i + name.length + 1) = behind := by
    rw [Nat.add_assoc, ← List.drop_drop, ← hbehind, List.drop_append_of_le_length (by simp)]
    simp
  constructor
  · rw [hdrop, List.append_assoc (text.take i), List.append_assoc, hbehind, List.take_append_drop]
  · rw [List.length_append, List.length_append, List.length_take, min_eq_left hle,
      List.length_singleton]

/-- A call found from a later place on is the first one if none opens in between. -/
theorem FirstCall.of_le {p p' i : Nat} (h : FirstCall name text p' i) (hle : p ≤ p')
    (hnone : ∀ j, p ≤ j → j < p' → ¬ OpensAt name text j) : FirstCall name text p i := by
  obtain ⟨hp, hopen, hfirst⟩ := h
  refine ⟨hle.trans hp, hopen, fun j hj hlt => ?_⟩
  by_cases hj' : p' ≤ j
  · exact hfirst j hj' hlt
  · exact hnone j hj (by omega)

theorem FirstCall.unique {p i i' : Nat} (h : FirstCall name text p i)
    (h' : FirstCall name text p i') : i = i' := by
  rcases Nat.lt_trichotomy i i' with hlt | heq | hlt
  · exact absurd h.2.1 (h'.2.2 i h.1 hlt)
  · exact heq
  · exact absurd h'.2.1 (h.2.2 i' h'.1 hlt)

theorem startsWord_getLast? {before : List Char} : startsWord before.getLast? = true ↔
    ∀ c, before.getLast? = some c → c.isAlphanum = false ∧ c ≠ '_' := by
  cases before.getLast? with
  | none => exact iff_of_true rfl fun c hc => by cases hc
  | some c => simp [startsWord]

/-- What the search for a call gives, from a place on. -/
def Found (name text : List Char) (p : Nat) : Option (List Char) → Prop
  | none => ∀ i, p ≤ i → ¬ OpensAt name text i
  | some behind => ∃ i, FirstCall name text p i ∧ behind = text.drop (i + name.length + 1)

theorem Found.of_le {p p' : Nat} {found : Option (List Char)} (h : Found name text p' found)
    (hle : p ≤ p') (hnone : ∀ j, p ≤ j → j < p' → ¬ OpensAt name text j) :
    Found name text p found := by
  cases found with
  | none =>
    intro i hi
    by_cases hi' : p' ≤ i
    · exact h i hi'
    · exact hnone i hi (by omega)
  | some behind =>
    obtain ⟨i, hfirst, hbehind⟩ := h
    exact ⟨i, hfirst.of_le hle hnone, hbehind⟩

/-- Whether a call opens where the text is cut in two. -/
theorem opensAt_length_iff {before current : List Char} (htext : text = before ++ current) :
    OpensAt name text before.length ↔
      name ++ ['('] <+: current ∧ startsWord before.getLast? = true := by
  rw [startsWord_getLast?, OpensAt, htext, List.drop_left, List.take_left]

/-- The search finds the first call behind what was read before. -/
theorem findCall_spec {token : CallToken} (hname : '(' ∉ token.name) {before current : List Char}
    (htext : text = before ++ current) {last : Option Char} (hlast : before.getLast? = last) :
    Found token.name text before.length ((findCall token last current).map Subtype.val) := by
  induction last, current using findCall.induct token generalizing before with
  | case1 last current htoken shorter hstart =>
    rw [findCall, dif_pos htoken, if_pos hstart]
    have hopen := (opensAt_length_iff htext).2 ⟨htoken, hlast ▸ hstart⟩
    refine ⟨before.length, ⟨le_refl _, hopen, fun j hj hlt => by omega⟩, ?_⟩
    show current.drop token.chars.length = _
    rw [htext, Nat.add_assoc, ← List.drop_drop, List.drop_left]
    simp [CallToken.chars]
  | case2 last current htoken shorter hinside ih =>
    rw [findCall, dif_pos htoken, if_neg hinside, Option.map_map]
    have hsplit := List.prefix_iff_eq_append.1 htoken
    have hmore := @ih (before ++ token.chars)
      (by rw [htext, List.append_assoc, hsplit]) (by simp [CallToken.chars])
    refine hmore.of_le (by simp) fun j hj hlt hopen => ?_
    rcases Nat.eq_or_lt_of_le hj with rfl | hlater
    · exact hinside (hlast ▸ ((opensAt_length_iff htext).1 hopen).2)
    · -- the token here would begin inside the one that was passed over
      rw [List.length_append, CallToken.chars, List.length_append, List.length_singleton] at hlt
      refine not_prefix_drop hname htoken (k := j - before.length) (by omega) (by omega) ?_
      have hover := hopen.1
      rwa [htext, List.drop_append, List.drop_eq_nil_of_le hj, List.nil_append] at hover
  | case3 last hnone =>
    rw [findCall, dif_neg hnone]
    intro i hi hopen
    have hlength := hopen.1.length_le
    rw [htext, List.append_nil, List.drop_eq_nil_of_le hi] at hlength
    simp at hlength
  | case4 last c current hnone ih =>
    rw [findCall, dif_neg hnone, Option.map_map]
    have hmore := @ih (before ++ [c]) (by rw [htext, List.append_assoc]; rfl) (by simp)
    refine hmore.of_le (by simp) fun j hj hlt hopen => ?_
    rw [List.length_append, List.length_singleton] at hlt
    obtain rfl : j = before.length := by omega
    exact hnone ((opensAt_length_iff htext).1 hopen).1

/-! ## 3. Literals -/

/-- A literal is read just if its units and its quote stand there. -/
theorem literal_eq_some_iff {quote : Char} (hquote : quote ≠ '\\') {current body rest : List Char} :
    literal quote current = some (body, rest) ↔
      Units quote body ∧ current = body ++ quote :: rest := by
  constructor
  · intro h
    fun_induction literal quote current generalizing body rest with
    | case1 => cases h
    | case2 => cases h
    | case3 c behind ih =>
      obtain ⟨⟨found, left⟩, hfound, heq⟩ := Option.map_eq_some_iff.1 h
      cases heq
      obtain ⟨hunits, rfl⟩ := ih hfound
      exact ⟨.escaped c hunits, rfl⟩
    | case4 =>
      cases h
      exact ⟨.nil, rfl⟩
    | case5 c current hslash hother ih =>
      obtain ⟨⟨found, left⟩, hfound, heq⟩ := Option.map_eq_some_iff.1 h
      cases heq
      obtain ⟨hunits, rfl⟩ := ih hfound
      exact ⟨.plain hslash hother hunits, rfl⟩
  · rintro ⟨hunits, rfl⟩
    induction hunits with
    | nil =>
      rw [List.nil_append, literal.eq_def]
      dsimp only
      rw [if_neg hquote, if_pos rfl]
    | @escaped c body _ ih =>
      rw [List.cons_append, List.cons_append, literal.eq_def]
      dsimp only
      rw [if_pos rfl, ih]
      rfl
    | @plain c body hslash hother _ ih =>
      rw [List.cons_append, literal.eq_def]
      dsimp only
      rw [if_neg hslash, if_neg hother, ih]
      rfl

theorem isQuote_iff {c : Char} : isQuote c = true ↔ c ∈ ['\'', '"', '`'] := by
  simp [isQuote, or_assoc]

theorem ne_backslash_of_isQuote {c : Char} (h : isQuote c = true) : c ≠ '\\' := by
  rintro rfl
  revert h
  decide

theorem not_isBlank_of_isQuote {c : Char} (h : isQuote c = true) : ¬ Text.isBlank c = true := by
  have hmem := isQuote_iff.1 h
  simp only [List.mem_cons, List.not_mem_nil, or_false] at hmem
  rcases hmem with rfl | rfl | rfl <;> decide

/-- There is a closed literal just if the first character that is no blank is a quote, and a literal
    is read behind it. -/
theorem closed_iff {current body rest : List Char} : Closed current body rest ↔
    ∃ quote behind, current.dropWhile Text.isBlank = quote :: behind ∧ isQuote quote = true ∧
      literal quote behind = some (body, rest) := by
  constructor
  · rintro ⟨blanks, quote, hblanks, hquote, hunits, rfl⟩
    have hquote' := isQuote_iff.2 hquote
    refine ⟨quote, body ++ quote :: rest, ?_, hquote',
      (literal_eq_some_iff (ne_backslash_of_isQuote hquote')).2 ⟨hunits, rfl⟩⟩
    rw [List.dropWhile_append_of_pos hblanks,
      List.dropWhile_cons_of_neg (not_isBlank_of_isQuote hquote')]
  · rintro ⟨quote, behind, hdrop, hquote, hliteral⟩
    obtain ⟨hunits, rfl⟩ := (literal_eq_some_iff (ne_backslash_of_isQuote hquote)).1 hliteral
    refine ⟨current.takeWhile Text.isBlank, quote, fun b hb => List.mem_takeWhile_imp hb,
      isQuote_iff.1 hquote, hunits, ?_⟩
    rw [← hdrop, List.takeWhile_append_dropWhile]

/-- A text has one closed literal at most. -/
theorem Closed.unique {current body rest body' rest' : List Char} (h : Closed current body rest)
    (h' : Closed current body' rest') : body = body' ∧ rest = rest' := by
  obtain ⟨quote, behind, hdrop, -, hliteral⟩ := closed_iff.1 h
  obtain ⟨quote', behind', hdrop', -, hliteral'⟩ := closed_iff.1 h'
  rw [hdrop] at hdrop'
  cases hdrop'
  rw [hliteral] at hliteral'
  cases hliteral'
  exact ⟨rfl, rfl⟩

/-- What the argument of a call says about the text behind its parenthesis. -/
def Argument.Fits (current : List Char) : Argument current → Prop
  | .missing => ∀ c ∈ current, Text.isBlank c = true
  | .other => ∀ body rest, ¬ Closed current body rest
  | .literal quote body rest _ =>
    Closed current body rest ∧ ∃ before, current = before ++ quote :: rest

theorem Argument.fits_ofText (current : List Char) : (Argument.ofText current).Fits := by
  unfold Argument.ofText
  split
  · rename_i hnil
    exact List.dropWhile_eq_nil_iff.1 hnil
  · rename_i quote behind hdrop
    split
    · rename_i hquote
      split
      · rename_i hnone
        intro body rest hclosed
        obtain ⟨quote', behind', hdrop', -, hliteral⟩ := closed_iff.1 hclosed
        rw [hdrop] at hdrop'
        cases hdrop'
        rw [hnone] at hliteral
        cases hliteral
      · rename_i body rest hliteral
        have hclosed := closed_iff.2 ⟨quote, behind, hdrop, hquote, hliteral⟩
        refine ⟨hclosed, current.takeWhile Text.isBlank ++ quote :: body, ?_⟩
        have hbehind := ((literal_eq_some_iff (ne_backslash_of_isQuote hquote)).1 hliteral).2
        rw [List.append_assoc, List.cons_append, ← hbehind, ← hdrop,
          List.takeWhile_append_dropWhile]
    · rename_i hquote
      intro body rest hclosed
      obtain ⟨quote', behind', hdrop', hquote', -⟩ := closed_iff.1 hclosed
      rw [hdrop] at hdrop'
      cases hdrop'
      exact hquote hquote'

/-! ## 4. All keys -/

/-- No call opens among blanks. -/
theorem not_opensAt_of_blanks {p : Nat} (hblanks : ∀ c ∈ text.drop p, Text.isBlank c = true) :
    ∀ i, p ≤ i → ¬ OpensAt name text i := by
  intro i hi hopen
  have hmem : '(' ∈ text.drop i := hopen.1.subset (by simp)
  rw [← Nat.add_sub_cancel' hi, ← List.drop_drop] at hmem
  exact absurd (hblanks _ (List.mem_of_mem_drop hmem)) (by decide)

/-- There is no closed literal among blanks. -/
theorem not_closed_of_blanks {current : List Char} (hblanks : ∀ c ∈ current, Text.isBlank c = true)
    (body rest : List Char) : ¬ Closed current body rest := by
  intro hclosed
  obtain ⟨quote, behind, hdrop, -, -⟩ := closed_iff.1 hclosed
  rw [List.dropWhile_eq_nil_iff.2 hblanks] at hdrop
  cases hdrop

/-- Where the search goes on behind a call, and what stands before that place. -/
theorem exists_of_findCall {token : CallToken} (hname : '(' ∉ token.name)
    {before current behind : List Char} (htext : text = before ++ current) {last : Option Char}
    (hlast : before.getLast? = last) {shorter : behind.length < current.length}
    (h : findCall token last current = some ⟨behind, shorter⟩) :
    ∃ i opened, FirstCall token.name text before.length i ∧
      behind = text.drop (i + token.name.length + 1) ∧ text = opened ++ behind ∧
      opened.length = i + token.name.length + 1 ∧ opened.getLast? = some '(' := by
  have hfound := findCall_spec hname htext hlast
  rw [h] at hfound
  obtain ⟨i, hfirst, hbehind⟩ := hfound
  obtain ⟨hsplit, hlength⟩ := eq_of_prefix_drop hfirst.2.1.1
  change behind = _ at hbehind
  rw [← hbehind] at hsplit
  exact ⟨i, _, hfirst, hbehind, hsplit, hlength, List.getLast?_concat⟩

/-- A call with a literal gives a key if the literal is one. -/
theorem filterMap_key?_cons (behind body : List Char) (more : List Call) :
    ((⟨behind, some body⟩ : Call) :: more).filterMap Call.key? =
      if IsKey body then body :: more.filterMap Call.key? else more.filterMap Call.key? := by
  rw [List.filterMap_cons]
  unfold Call.key?
  rw [Option.filter_some]
  by_cases hkey : IsKey body
  · rw [if_pos hkey, if_pos (decide_eq_true hkey)]
  · rw [if_neg hkey, if_neg (by simpa using hkey)]

/-- From every place on the calls give the keys that are emitted. -/
theorem emits_calls {token : CallToken} (hname : '(' ∉ token.name) {before current : List Char}
    (htext : text = before ++ current) {last : Option Char} (hlast : before.getLast? = last) :
    Emits token.name text before.length ((calls token last current).filterMap Call.key?) := by
  induction last, current using calls.induct token generalizing before with
  | case1 last current hfind =>
    rw [calls, hfind]
    have hfound := findCall_spec hname htext hlast
    rw [hfind] at hfound
    exact .stop hfound
  | case2 last current behind shorter hfind hargument =>
    rw [calls, hfind]
    dsimp only
    rw [hargument]
    obtain ⟨i, opened, hfirst, hbehind, -, -, -⟩ := exists_of_findCall hname htext hlast hfind
    have hblanks := Argument.fits_ofText behind
    rw [hargument] at hblanks
    change ∀ c ∈ behind, _ at hblanks
    rw [hbehind] at hblanks
    exact .other hfirst (not_closed_of_blanks hblanks) (.stop (not_opensAt_of_blanks hblanks))
  | case3 last current behind shorter hfind hargument ih =>
    rw [calls, hfind]
    dsimp only
    rw [hargument]
    obtain ⟨i, opened, hfirst, hbehind, hopened, hlength, hlast'⟩ :=
      exists_of_findCall hname htext hlast hfind
    have hnone := Argument.fits_ofText behind
    rw [hargument] at hnone
    change ∀ body rest, ¬ Closed behind body rest at hnone
    rw [hbehind] at hnone
    have hmore := ih hopened hlast'
    rw [hlength] at hmore
    exact .other hfirst hnone hmore
  | case4 last current behind shorter hfind quote body rest shorter' hargument _ ih =>
    rw [calls, hfind]
    dsimp only
    rw [hargument]
    obtain ⟨i, opened, hfirst, hbehind, hopened, -, -⟩ :=
      exists_of_findCall hname htext hlast hfind
    have hfits := Argument.fits_ofText behind
    rw [hargument] at hfits
    obtain ⟨hclosed, inside, hinside⟩ := hfits
    have hread : text = (opened ++ inside ++ [quote]) ++ rest := by
      rw [hopened, hinside]
      simp
    have hmore := ih hread List.getLast?_concat
    have hplace : (opened ++ inside ++ [quote]).length = text.length - rest.length := by
      have hlength := congrArg List.length hread
      rw [List.length_append] at hlength
      omega
    rw [hplace] at hmore
    rw [hbehind] at hclosed
    dsimp only
    rw [filterMap_key?_cons]
    exact .closed hfirst hclosed hmore

/-- A text emits one list of keys from a place on. -/
theorem Emits.unique {p : Nat} {keys keys' : List (List Char)} (h : Emits name text p keys)
    (h' : Emits name text p keys') : keys = keys' := by
  induction h generalizing keys' with
  | stop hnone =>
    cases h' with
    | stop => rfl
    | closed hfirst => exact absurd hfirst.2.1 (hnone _ hfirst.1)
    | other hfirst => exact absurd hfirst.2.1 (hnone _ hfirst.1)
  | closed hfirst hclosed _ ih =>
    cases h' with
    | stop hnone => exact absurd hfirst.2.1 (hnone _ hfirst.1)
    | closed hfirst' hclosed' hmore' =>
      obtain rfl := hfirst.unique hfirst'
      obtain ⟨rfl, rfl⟩ := hclosed.unique hclosed'
      rw [ih hmore']
    | other hfirst' hnone' =>
      obtain rfl := hfirst.unique hfirst'
      exact absurd hclosed (hnone' _ _)
  | other hfirst hnone _ ih =>
    cases h' with
    | stop hnone' => exact absurd hfirst.2.1 (hnone' _ hfirst.1)
    | closed hfirst' hclosed' =>
      obtain rfl := hfirst.unique hfirst'
      exact absurd hclosed' (hnone _ _)
    | other hfirst' _ hmore' =>
      obtain rfl := hfirst.unique hfirst'
      exact ih hmore'

theorem isCallChar_of_isCallName {name : String} (h : Config.isCallName name = true) :
    ∀ c ∈ name.toList, Config.isCallChar c = true := by
  unfold Config.isCallName at h
  split at h
  · cases h
  · rename_i first rest hname
    rw [Bool.and_eq_true] at h
    rw [hname, List.forall_mem_cons]
    exact ⟨by simp [Config.isCallChar, h.1], List.all_eq_true.1 h.2⟩

/-- The parenthesis cannot be part of a call name. -/
theorem not_mem_of_isCallName {name : String} (h : Config.isCallName name = true) :
    '(' ∉ name.toList :=
  fun hmem => absurd (isCallChar_of_isCallName h _ hmem) (by decide +kernel)

/-- The keys of a text are those that the text emits from its start on, each once, where it first
    occurs; and it emits no other list. -/
theorem keysOf_eq_emitted {name : String} (hname : Config.isCallName name = true) (text : String) :
    ∃ keys, Emits name.toList text.toList 0 keys ∧
      (∀ keys', Emits name.toList text.toList 0 keys' → keys' = keys) ∧
      keysOf name text = (keys.map String.ofList).eraseDups := by
  have hemits := @emits_calls text.toList ⟨name.toList⟩ (not_mem_of_isCallName hname) [] text.toList
    rfl none rfl
  exact ⟨_, hemits, fun _ hother => hother.unique hemits, rfl⟩

/-- A call inside a word, a key with an escape, a literal that is filled in, and one that is never
    closed but has a call in it. -/
def sampleText : String :=
  "attr('x') tr('it\\'s') tr(\"$\x7bn\x7d\") tr( \"a tr('b') tr('it\\'s')"

theorem keysOf_sample : keysOf "tr" sampleText = ["it\\'s", "b"] ∧
    ∃ keys, Emits "tr".toList sampleText.toList 0 keys ∧
      (∀ keys', Emits "tr".toList sampleText.toList 0 keys' → keys' = keys) ∧
      keysOf "tr" sampleText = (keys.map String.ofList).eraseDups :=
  ⟨by decide +kernel, keysOf_eq_emitted (by decide +kernel) _⟩

end LocaleCatalog.Source
