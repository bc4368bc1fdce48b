import LocaleCatalog.Proofs.Source.Progress
import LocaleCatalog.Proofs.Source.Reference
import LocaleCatalog.Proofs.Source.Calls

/-!
# What the cursor finds

A cursor reads a text by byte offsets and in one pass, with literals that it may have to give up.
`Source.calls` lists the calls of the same text by what follows each of them. On the way of the
cursor the places that it has noted and those of the calls ahead make up all calls of the text, and
so do the keys (`Source.Cursor.Agrees`).

* `Source.nextCall?_of_findToken`: the search by tokens and the search for the next call;
* `Source.Unclosed.Marked`: what the two marks of a literal say about it;
* `Source.Cursor.Reading`: how far the argument of an open call has been read;
* `Source.Cursor.agrees_of_reaches`: the cursor agrees with the calls of the text all the way;
* `Source.Cursor.exists_sweeps`: the reading of a text ends, no cut on the way is impossible, calls
  open at strictly rising places, and these and the keys are those of the text.
-/

namespace LocaleCatalog.Source

/-! ## 1. Tokens -/

variable {token : CallToken} {text : List Char}

theorem nextCall?_of_findToken_eq_none (h : findToken token text = none) (before : Option Char) :
    nextCall? token before text = none := by
  fun_induction findToken token text generalizing before with
  | case1 => exact nextCall?_nil
  | case2 => cases h
  | case3 c text htoken ih =>
    rw [nextCall?_cons htoken]
    exact ih (Option.map_eq_none_iff.1 h) _

/-- Where the first token stands a call opens, unless it stands inside a word. -/
theorem nextCall?_of_findToken {gap behind : List Char}
    (h : findToken token (gap ++ (token.chars ++ behind)) = some (bytes gap)) (before : Option Char) :
    nextCall? token before (gap ++ (token.chars ++ behind)) =
      if startsWord (gap.getLast?.or before) then some behind
      else nextCall? token (some '(') behind := by
  induction gap generalizing before with
  | nil =>
    rw [List.nil_append, nextCall?_here (List.prefix_append _ _), List.drop_left]
    rfl
  | cons c gap ih =>
    rw [List.cons_append, findToken] at h
    split at h
    · -- a token here would be found with nothing before it
      have hpos := c.utf8Size_pos
      have hnone : 0 = bytes (c :: gap) := Option.some_inj.1 h
      rw [bytes_cons] at hnone
      omega
    · rename_i htoken
      obtain ⟨offset, hfind, heq⟩ := Option.map_eq_some_iff.1 h
      rw [bytes_cons, Nat.add_left_cancel_iff] at heq
      subst heq
      have hlast : (c :: gap).getLast?.or before = gap.getLast?.or (some c) := by
        rw [List.getLast?_cons]
        cases gap.getLast? <;> rfl
      rw [List.cons_append, nextCall?_cons htoken, hlast]
      exact ih hfind _

theorem getLast?_chars (token : CallToken) (front : List Char) :
    (front ++ token.chars).getLast? = some '(' := by
  rw [CallToken.chars, ← List.append_assoc]
  exact List.getLast?_concat

/-! ## 2. Arguments -/

/-- Units are read over. -/
theorem Units.literal_append {quote : Char} {body : List Char}
    (h : Units quote body) (more : List Char) :
    Source.literal quote (body ++ more) =
      (Source.literal quote more).map fun found => (body ++ found.1, found.2) := by
  induction h with
  | nil => simp
  | escaped c _ ih =>
    rw [List.cons_append, List.cons_append, literal.eq_def]
    dsimp only
    rw [if_pos rfl, ih, Option.map_map]
    rfl
  | plain hslash hother _ ih =>
    rw [List.cons_append, literal.eq_def]
    dsimp only
    rw [if_neg hslash, if_neg hother, ih, Option.map_map]
    rfl

theorem Units.append {quote : Char} {body more : List Char} (h : Units quote body)
    (hmore : Units quote more) : Units quote (body ++ more) := by
  induction h with
  | nil => exact hmore
  | escaped c _ ih => exact .escaped c ih
  | plain hslash hquote _ ih => exact .plain hslash hquote ih

/-- A literal that is never closed is none. -/
theorem Argument.ofText_of_unclosed {c : Char} {more : List Char}
    (hdrop : text.dropWhile Text.isBlank = c :: more) (hliteral : Source.literal c more = none) :
    Argument.ofText text = .other := by
  unfold Argument.ofText
  split
  · rename_i hnil
    rw [hdrop] at hnil
    cases hnil
  · rename_i hcons
    rw [hdrop] at hcons
    cases hcons
    split
    · split
      · rfl
      · rename_i hsome
        rw [hliteral] at hsome
        cases hsome
    · rfl

theorem Argument.ofText_of_blanks (hblanks : ∀ c ∈ text, Text.isBlank c = true) :
    Argument.ofText text = .missing := by
  unfold Argument.ofText
  split
  · rfl
  · rename_i hcons
    rw [List.dropWhile_eq_nil_iff.2 hblanks] at hcons
    cases hcons

/-- The call that opens in front of a text, and those behind it. -/
def callsFrom (token : CallToken) (rest : List Char) : List Call :=
  match Argument.ofText rest with
  | .missing => [⟨rest, none⟩]
  | .other => ⟨rest, none⟩ :: calls token (some '(') rest
  | .literal quote body behind _ => ⟨rest, some body⟩ :: calls token (some quote) behind

theorem calls_eq_callsFrom {before : Option Char} {rest : List Char}
    (h : nextCall? token before text = some rest) :
    calls token before text = callsFrom token rest := by
  rw [calls_eq, h]
  rfl

theorem exists_callsFrom (token : CallToken) (rest : List Char) :
    ∃ body more, callsFrom token rest = ⟨rest, body⟩ :: more := by
  unfold callsFrom
  split <;> exact ⟨_, _, rfl⟩

/-! ## 3. Literals -/

namespace Unclosed

variable {unclosed : Unclosed}

/-- The marks say whether the literal ends in a dollar sign, and whether it can be a key. -/
structure Marked (unclosed : Unclosed) : Prop where
  afterDollar_iff : unclosed.afterDollar = true ↔ unclosed.body.getLast? = some '$'
  rejected_iff : unclosed.rejected = true ↔
    '\n' ∈ unclosed.body ∨ '\r' ∈ unclosed.body ∨ placeholder <:+: unclosed.body

theorem marked_begin (quote : Char) (resume : Nat) : (begin quote resume).Marked where
  afterDollar_iff := by simp [begin]
  rejected_iff := by simp [begin, placeholder]

/-- One more character opens a placeholder if it is a brace behind a dollar sign. -/
theorem placeholder_concat_iff {body : List Char} {c : Char} :
    placeholder <:+: body ++ [c] ↔
      placeholder <:+: body ∨ (c = '{' ∧ body.getLast? = some '$') := by
  rw [List.infix_concat_iff, or_comm]
  refine or_congr_right ?_
  have hsplit : placeholder = ['$'] ++ ['{'] := rfl
  rw [hsplit]
  constructor
  · rintro ⟨front, hfront⟩
    rw [← List.append_assoc] at hfront
    obtain ⟨rfl, heq⟩ := List.append_inj' hfront rfl
    exact ⟨(List.singleton_inj.1 heq).symm, List.getLast?_concat⟩
  · rintro ⟨rfl, hlast⟩
    obtain ⟨front, rfl⟩ := List.getLast?_eq_some_iff.1 hlast
    exact ⟨front, by rw [List.append_assoc]⟩

theorem Marked.push (h : unclosed.Marked) (c : Char) : (unclosed.push c).Marked where
  afterDollar_iff := by simp [Unclosed.push]
  rejected_iff := by
    simp only [Unclosed.push, Bool.or_eq_true, Bool.and_eq_true, decide_eq_true_eq, h.rejected_iff,
      h.afterDollar_iff, placeholder_concat_iff, List.mem_append, List.mem_singleton]
    grind

/-- The key of a literal is the key of its call. -/
theorem Marked.key?_eq (h : unclosed.Marked) (behind : List Char) :
    unclosed.key? = (Call.key? ⟨behind, some unclosed.body⟩).map String.ofList := by
  have hrefused : (unclosed.rejected || unclosed.body.isEmpty) = true ↔ ¬ IsKey unclosed.body := by
    rw [Bool.or_eq_true, h.rejected_iff, List.isEmpty_iff, IsKey]
    grind
  unfold Unclosed.key? Call.key?
  rw [Option.filter_some]
  by_cases hkey : IsKey unclosed.body
  · rw [if_neg (hrefused.not.2 (not_not_intro hkey)), if_pos (decide_eq_true hkey)]
    rfl
  · rw [if_pos (hrefused.2 hkey), if_neg (by simpa using hkey)]
    rfl

end Unclosed

namespace Cursor

/-- How far the argument of an open call has been read: `rest` stands behind the parenthesis, and
    `behind` has not been read. -/
inductive Reading (rest : List Char) : Phase → List Char → Prop where
  | argument {blanks behind : List Char} {resume : Nat}
      (hblanks : ∀ c ∈ blanks, Text.isBlank c = true) (hrest : rest = blanks ++ behind) :
      Reading rest (.argument resume) behind
  | literal {blanks behind : List Char} {unclosed : Unclosed}
      (hblanks : ∀ c ∈ blanks, Text.isBlank c = true) (hquote : isQuote unclosed.quote = true)
      (hunits : Units unclosed.quote unclosed.body) (hmarked : unclosed.Marked)
      (hrest : rest = blanks ++ unclosed.quote :: (unclosed.body ++ behind)) :
      Reading rest (.literal unclosed) behind
  | escape {blanks body behind : List Char} {unclosed : Unclosed}
      (hblanks : ∀ c ∈ blanks, Text.isBlank c = true) (hquote : isQuote unclosed.quote = true)
      (hunits : Units unclosed.quote body) (hbody : unclosed.body = body ++ ['\\'])
      (hmarked : unclosed.Marked)
      (hrest : rest = blanks ++ unclosed.quote :: (unclosed.body ++ behind)) :
      Reading rest (.escape unclosed) behind

section Reading

variable {rest behind : List Char} {c : Char} {unclosed : Unclosed} {resume : Nat}

theorem Reading.blank (h : Reading rest (.argument resume) (c :: behind))
    (hblank : Text.isBlank c = true) : Reading rest (.argument resume) behind := by
  cases h with
  | @argument blanks _ _ hblanks hrest =>
    have hmore : ∀ b ∈ blanks ++ [c], Text.isBlank b = true := by
      intro b hb
      rcases List.mem_append.1 hb with hb | hb
      · exact hblanks b hb
      · exact List.mem_singleton.1 hb ▸ hblank
    exact .argument hmore (by rw [hrest]; simp)

theorem Reading.quote (h : Reading rest (.argument resume) (c :: behind))
    (hquote : isQuote c = true) : Reading rest (.literal (.begin c resume)) behind := by
  cases h with
  | argument hblanks hrest =>
    exact .literal hblanks hquote .nil (Unclosed.marked_begin c resume) hrest

theorem Reading.slash (h : Reading rest (.literal unclosed) ('\\' :: behind)) :
    Reading rest (.escape (unclosed.push '\\')) behind := by
  cases h with
  | literal hblanks hquote hunits hmarked hrest =>
    exact .escape hblanks hquote hunits rfl (hmarked.push _) (by rw [hrest]; simp [Unclosed.push])

theorem Reading.plain (h : Reading rest (.literal unclosed) (c :: behind)) (hslash : c ≠ '\\')
    (hother : c ≠ unclosed.quote) : Reading rest (.literal (unclosed.push c)) behind := by
  cases h with
  | literal hblanks hquote hunits hmarked hrest =>
    exact .literal hblanks hquote (hunits.append (.plain hslash hother .nil)) (hmarked.push c)
      (by rw [hrest]; simp [Unclosed.push])

theorem Reading.escaped (h : Reading rest (.escape unclosed) (c :: behind)) :
    Reading rest (.literal (unclosed.push c)) behind := by
  cases h with
  | escape hblanks hquote hunits hbody hmarked hrest =>
    refine .literal hblanks hquote ?_ (hmarked.push c) (by rw [hrest]; simp [Unclosed.push])
    show Units unclosed.quote (unclosed.body ++ [c])
    rw [hbody, List.append_assoc]
    exact hunits.append (.escaped c .nil)

/-! ### Where the argument ends -/

theorem callsFrom_of_other (h : Argument.ofText rest = .other) :
    callsFrom token rest = ⟨rest, none⟩ :: calls token (some '(') rest := by
  unfold callsFrom
  rw [h]

theorem dropWhile_blanks {blanks more : List Char} (hblanks : ∀ c ∈ blanks, Text.isBlank c = true)
    (hblank : ¬ Text.isBlank c = true) (hrest : rest = blanks ++ c :: more) :
    rest.dropWhile Text.isBlank = c :: more := by
  rw [hrest, List.dropWhile_append_of_pos hblanks, List.dropWhile_cons_of_neg hblank]

theorem Reading.missing (h : Reading rest (.argument resume) []) :
    callsFrom token rest = [⟨rest, none⟩] := by
  cases h with
  | argument hblanks hrest =>
    rw [List.append_nil] at hrest
    unfold callsFrom
    rw [Argument.ofText_of_blanks (hrest ▸ hblanks)]

theorem Reading.other (h : Reading rest (.argument resume) (c :: behind))
    (hblank : Text.isBlank c = false) (hquote : isQuote c = false) :
    callsFrom token rest = ⟨rest, none⟩ :: calls token (some '(') rest := by
  cases h with
  | argument hblanks hrest =>
    have hdrop := dropWhile_blanks hblanks (by simp [hblank]) hrest
    exact callsFrom_of_other (Argument.ofText_of_not_isQuote hdrop hquote)

theorem Reading.closes (h : Reading rest (.literal unclosed) (unclosed.quote :: behind)) :
    unclosed.Marked ∧ callsFrom token rest =
      ⟨rest, some unclosed.body⟩ :: calls token (some unclosed.quote) behind := by
  cases h with
  | literal hblanks hquote hunits hmarked hrest =>
    refine ⟨hmarked, ?_⟩
    have hliteral := (literal_eq_some_iff (ne_backslash_of_isQuote hquote)).2
      ⟨hunits, (rfl : unclosed.body ++ unclosed.quote :: behind = _)⟩
    have hdrop := dropWhile_blanks hblanks (not_isBlank_of_isQuote hquote) hrest
    obtain ⟨_, hargument⟩ := Argument.exists_ofText_of_literal hdrop hquote hliteral
    unfold callsFrom
    rw [hargument]

theorem Reading.neverClosed (h : Reading rest (.literal unclosed) []) :
    callsFrom token rest = ⟨rest, none⟩ :: calls token (some '(') rest := by
  cases h with
  | literal hblanks hquote hunits _ hrest =>
    have hdrop := dropWhile_blanks hblanks (not_isBlank_of_isQuote hquote) hrest
    refine callsFrom_of_other (Argument.ofText_of_unclosed hdrop ?_)
    rw [hunits.literal_append]
    rfl

theorem Reading.cutOff (h : Reading rest (.escape unclosed) []) :
    callsFrom token rest = ⟨rest, none⟩ :: calls token (some '(') rest := by
  cases h with
  | escape hblanks hquote hunits hbody _ hrest =>
    have hdrop := dropWhile_blanks hblanks (not_isBlank_of_isQuote hquote) hrest
    refine callsFrom_of_other (Argument.ofText_of_unclosed hdrop ?_)
    rw [hbody, List.append_nil, hunits.literal_append]
    rfl

end Reading

/-! ## 4. The calls ahead -/

/-- The calls ahead of a cursor between `before` and `behind`: those whose literals it has not
    judged, and those that it has not opened. -/
inductive Ahead (token : CallToken) (text before behind : List Char) :
    Phase → List Call → List Call → Prop where
  | call : Ahead token text before behind .call (calls token before.getLast? behind)
      (calls token before.getLast? behind)
  | argument {front rest : List Char} {phase : Phase} {call : Call} {more : List Call}
      (htext : text = front ++ rest) (hlast : front.getLast? = some '(')
      (hresume : phase.resume? = some (bytes front)) (hread : Reading rest phase behind)
      (hcalls : callsFrom token rest = call :: more) :
      Ahead token text before behind phase (call :: more) more

theorem Ahead.eq_calls {before behind : List Char} {unjudged unopened : List Call}
    (h : Ahead token text before behind .call unjudged unopened) :
    unjudged = calls token before.getLast? behind ∧ unopened = calls token before.getLast? behind := by
  cases h with
  | call => exact ⟨rfl, rfl⟩
  | argument _ _ hresume => cases hresume

/-- While a call is open, its argument is being read, and it is the only one not judged. -/
theorem Ahead.exists_argument {before behind : List Char} {phase : Phase}
    {unjudged unopened : List Call} (h : Ahead token text before behind phase unjudged unopened)
    (hopen : phase ≠ .call) :
    ∃ front rest call, text = front ++ rest ∧ front.getLast? = some '(' ∧
      phase.resume? = some (bytes front) ∧ Reading rest phase behind ∧
      callsFrom token rest = call :: unopened ∧ unjudged = call :: unopened := by
  cases h with
  | call => exact absurd rfl hopen
  | argument htext hlast hresume hread hcalls =>
    exact ⟨_, _, _, htext, hlast, hresume, hread, hcalls, rfl⟩

def keysIn (calls : List Call) : List String :=
  (calls.filterMap Call.key?).map String.ofList

/-- What the cursor has noted and the calls ahead of it make up all calls of the text. -/
structure Agrees (token : CallToken) (text : List Char) (cursor : Cursor)
    (before behind : List Char) (unjudged unopened : List Call) (found : List String) : Prop where
  text_eq : text = before ++ behind
  offset_eq : bytes before = cursor.offset
  ahead : Ahead token text before behind cursor.phase unjudged unopened
  opened_eq : cursor.opened ++ unopened.map (Call.offset text) =
    (calls token none text).map (Call.offset text)
  keys_eq : cursor.keys = found.eraseDups
  found_eq : found ++ keysIn unjudged = keysIn (calls token none text)

/-- A key is kept where it first occurs. -/
theorem note_eraseDups (found : List String) (key? : Option String) :
    note found.eraseDups key? = (found ++ key?.toList).eraseDups := by
  cases key? with
  | none => simp [note]
  | some key =>
    show (if key ∈ found.eraseDups then _ else _) = (found ++ [key]).eraseDups
    split
    · rename_i hmem
      rw [eraseDups_concat_of_mem (List.mem_eraseDups.1 hmem)]
    · rename_i hnew
      rw [eraseDups_concat_of_not_mem fun hmem => hnew (List.mem_eraseDups.2 hmem)]

theorem keysIn_cons (call : Call) (more : List Call) :
    keysIn (call :: more) = (call.key?.map String.ofList).toList ++ keysIn more := by
  unfold keysIn
  cases hkey : call.key? with
  | none => rw [List.filterMap_cons_none hkey]; rfl
  | some key => rw [List.filterMap_cons_some hkey]; rfl

theorem agrees_start (token : CallToken) (text : List Char) :
    Agrees token text start [] text (calls token none text) (calls token none text) [] :=
  ⟨rfl, rfl, .call, rfl, rfl, rfl⟩

/-- A place cuts a text in one way. -/
theorem eq_of_bytes_eq {before behind before' behind' : List Char} (h : text = before ++ behind)
    (h' : text = before' ++ behind') (hbytes : bytes before = bytes before') :
    before = before' ∧ behind = behind' := by
  have hsplit := split?_eq_some_iff.2 ⟨h, hbytes⟩
  rw [split?_eq_some_iff.2 ⟨h', rfl⟩] at hsplit
  cases hsplit
  exact ⟨rfl, rfl⟩

theorem offset_of_eq {front rest : List Char} {body : Option (List Char)}
    (htext : text = front ++ rest) : (⟨rest, body⟩ : Call).offset text = bytes front := by
  show bytes text - bytes rest = bytes front
  rw [htext, bytes_append, Nat.add_sub_cancel]

section Moves

variable {cursor : Cursor} {before behind : List Char} {unjudged unopened : List Call}
  {found : List String} (h : Agrees token text cursor before behind unjudged unopened found)

include h

/-- A token inside a word changes nothing about the calls ahead. -/
theorem Agrees.inWord {gap rest : List Char} (hphase : cursor.phase = .call)
    (hbehind : behind = gap ++ (token.chars ++ rest))
    (hfind : findToken token (gap ++ (token.chars ++ rest)) = some (bytes gap))
    (hword : startsWord (before ++ gap).getLast? = false) :
    Agrees token text
      ⟨bytes (before ++ gap ++ token.chars), .call, cursor.opened, cursor.keys⟩
      (before ++ gap ++ token.chars) rest unjudged unopened found := by
  obtain ⟨rfl, rfl⟩ := (hphase ▸ h.ahead).eq_calls
  have hsame : calls token before.getLast? behind =
      calls token (before ++ gap ++ token.chars).getLast? rest := by
    refine calls_congr ?_
    rw [hbehind, nextCall?_of_findToken hfind, ← List.getLast?_append, hword, getLast?_chars]
    rfl
  exact ⟨by rw [h.text_eq, hbehind]; simp, rfl, hsame ▸ .call, h.opened_eq, h.keys_eq, h.found_eq⟩

/-- A call that opens is the first one ahead. -/
theorem Agrees.opens {gap rest : List Char} (hphase : cursor.phase = .call)
    (hbehind : behind = gap ++ (token.chars ++ rest))
    (hfind : findToken token (gap ++ (token.chars ++ rest)) = some (bytes gap))
    (hword : startsWord (before ++ gap).getLast? = true) :
    ∃ unopened, Agrees token text
      ⟨bytes (before ++ gap ++ token.chars), .argument (bytes (before ++ gap ++ token.chars)),
        cursor.opened ++ [bytes (before ++ gap ++ token.chars)], cursor.keys⟩
      (before ++ gap ++ token.chars) rest unjudged unopened found := by
  obtain ⟨body, more, hcalls⟩ := exists_callsFrom token rest
  have hfirst : calls token before.getLast? behind = ⟨rest, body⟩ :: more := by
    rw [← hcalls]
    refine calls_eq_callsFrom ?_
    rw [hbehind, nextCall?_of_findToken hfind, ← List.getLast?_append, hword]
    rfl
  have htext : text = before ++ gap ++ token.chars ++ rest := by
    rw [h.text_eq, hbehind]
    simp
  obtain ⟨hunjudged, hunopened⟩ := (hphase ▸ h.ahead).eq_calls
  rw [hfirst] at hunjudged hunopened
  subst hunjudged hunopened
  refine ⟨more, htext, rfl, ?_, ?_, h.keys_eq, h.found_eq⟩
  · exact .argument htext (getLast?_chars token _) rfl (.argument (List.forall_mem_nil _) rfl) hcalls
  · rw [← h.opened_eq, List.map_cons, offset_of_eq htext, List.append_assoc]
    rfl

/-- A character of an argument changes nothing about the calls ahead. -/
theorem Agrees.read {c : Char} {rest : List Char} {phase : Phase} (hbehind : behind = c :: rest)
    (hopen : cursor.phase ≠ .call) (hresume : phase.resume? = cursor.phase.resume?)
    (hread : ∀ argument, Reading argument cursor.phase (c :: rest) → Reading argument phase rest) :
    Agrees token text ⟨bytes (before ++ [c]), phase, cursor.opened, cursor.keys⟩ (before ++ [c]) rest
      unjudged unopened found := by
  subst hbehind
  obtain ⟨front, argument, call, htext, hlast, hfront, hreading, hcalls, rfl⟩ :=
    h.ahead.exists_argument hopen
  exact ⟨by rw [h.text_eq]; simp, rfl,
    .argument htext hlast (hresume.trans hfront) (hread argument hreading) hcalls,
    h.opened_eq, h.keys_eq, h.found_eq⟩

/-- A call without a literal gives no key, and the calls behind it are ahead. -/
theorem Agrees.back {resume : Nat} (hresume : cursor.phase.resume? = some resume)
    (hother : ∀ argument, Reading argument cursor.phase behind →
      callsFrom token argument = ⟨argument, none⟩ :: calls token (some '(') argument) :
    ∃ before behind, Agrees token text ⟨resume, .call, cursor.opened, cursor.keys⟩ before behind
      unopened unopened found := by
  have hopen : cursor.phase ≠ .call := fun heq => by rw [heq] at hresume; cases hresume
  obtain ⟨front, argument, call, htext, hlast, hfront, hreading, hcalls, rfl⟩ :=
    h.ahead.exists_argument hopen
  rw [hother argument hreading] at hcalls
  obtain ⟨rfl, rfl⟩ := List.cons.inj hcalls
  rw [hresume] at hfront
  exact ⟨front, argument, htext, (Option.some_inj.1 hfront).symm, hlast ▸ .call, h.opened_eq,
    h.keys_eq, h.found_eq⟩

/-- A literal that is closed is judged, and its key is noted. -/
theorem Agrees.closes {unclosed : Unclosed} {rest : List Char}
    (hphase : cursor.phase = .literal unclosed) (hbehind : behind = unclosed.quote :: rest) :
    ∃ found, Agrees token text
      ⟨bytes (before ++ [unclosed.quote]), .call, cursor.opened, note cursor.keys unclosed.key?⟩
      (before ++ [unclosed.quote]) rest unopened unopened found := by
  subst hbehind
  obtain ⟨front, argument, call, htext, hlast, hfront, hreading, hcalls, rfl⟩ :=
    h.ahead.exists_argument (by rw [hphase]; nofun)
  rw [hphase] at hreading
  obtain ⟨hmarked, hclosed⟩ := @Reading.closes token _ _ _ hreading
  rw [hclosed] at hcalls
  obtain ⟨rfl, rfl⟩ := List.cons.inj hcalls
  refine ⟨found ++ unclosed.key?.toList, by rw [h.text_eq]; simp, rfl, ?_, h.opened_eq, ?_, ?_⟩
  · rw [← List.getLast?_concat (l := before)]
    exact .call
  · show note cursor.keys unclosed.key? = _
    rw [h.keys_eq, note_eraseDups]
  · rw [← h.found_eq, keysIn_cons, ← hmarked.key?_eq argument, List.append_assoc]

/-- A turn leaves a cursor that agrees with the calls. -/
theorem Agrees.of_turns {next : Cursor} (hturn : Turns token text cursor (some next)) :
    ∃ before behind unjudged unopened found,
      Agrees token text next before behind unjudged unopened found := by
  have htext := h.text_eq
  have hoffset := h.offset_eq
  cases hturn with
  | inWord hplace hfind hword =>
    obtain ⟨rfl, hbehind⟩ := eq_of_bytes_eq htext hplace hoffset
    exact ⟨_, _, _, _, _, h.inWord rfl hbehind hfind hword⟩
  | opens hplace hfind hword =>
    obtain ⟨rfl, hbehind⟩ := eq_of_bytes_eq htext hplace hoffset
    obtain ⟨_, hnext⟩ := h.opens rfl hbehind hfind hword
    exact ⟨_, _, _, _, _, hnext⟩
  | blank hplace hblank =>
    obtain ⟨rfl, hbehind⟩ := eq_of_bytes_eq htext hplace hoffset
    exact ⟨_, _, _, _, _, h.read hbehind nofun rfl fun _ hread => hread.blank hblank⟩
  | quote hplace hquote =>
    obtain ⟨rfl, hbehind⟩ := eq_of_bytes_eq htext hplace hoffset
    exact ⟨_, _, _, _, _, h.read hbehind nofun rfl fun _ hread => hread.quote hquote⟩
  | other hplace hblank hquote =>
    obtain ⟨rfl, rfl⟩ := eq_of_bytes_eq htext hplace hoffset
    obtain ⟨_, _, hnext⟩ := h.back rfl fun _ hread => hread.other hblank hquote
    exact ⟨_, _, _, _, _, hnext⟩
  | slash hplace =>
    obtain ⟨rfl, hbehind⟩ := eq_of_bytes_eq htext hplace hoffset
    exact ⟨_, _, _, _, _, h.read hbehind nofun rfl fun _ hread => hread.slash⟩
  | closes hplace =>
    obtain ⟨rfl, hbehind⟩ := eq_of_bytes_eq htext hplace hoffset
    obtain ⟨_, hnext⟩ := h.closes rfl hbehind
    exact ⟨_, _, _, _, _, hnext⟩
  | plain hplace hslash hquote =>
    obtain ⟨rfl, hbehind⟩ := eq_of_bytes_eq htext hplace hoffset
    exact ⟨_, _, _, _, _, h.read hbehind nofun rfl fun _ hread => hread.plain hslash hquote⟩
  | escaped hplace =>
    obtain ⟨rfl, hbehind⟩ := eq_of_bytes_eq htext hplace hoffset
    exact ⟨_, _, _, _, _, h.read hbehind nofun rfl fun _ hread => hread.escaped⟩
  | neverClosed =>
    obtain ⟨rfl, rfl⟩ := eq_of_bytes_eq htext (List.append_nil text).symm hoffset
    obtain ⟨_, _, hnext⟩ := h.back rfl fun _ hread => hread.neverClosed
    exact ⟨_, _, _, _, _, hnext⟩
  | cutOff =>
    obtain ⟨rfl, rfl⟩ := eq_of_bytes_eq htext (List.append_nil text).symm hoffset
    obtain ⟨_, _, hnext⟩ := h.back rfl fun _ hread => hread.cutOff
    exact ⟨_, _, _, _, _, hnext⟩

/-- At the end nothing is ahead: the cursor has noted all calls and all keys. -/
theorem Agrees.of_ended (hturn : Turns token text cursor none) :
    cursor.opened = (calls token none text).map (Call.offset text) ∧
      cursor.keys = (keysIn (calls token none text)).eraseDups := by
  have hnone : unopened = [] ∧ keysIn unjudged = [] := by
    have htext := h.text_eq
    have hoffset := h.offset_eq
    have hahead := h.ahead
    cases hturn with
    | noToken hplace hfind =>
      obtain ⟨rfl, rfl⟩ := eq_of_bytes_eq htext hplace hoffset
      obtain ⟨rfl, rfl⟩ := hahead.eq_calls
      rw [calls_eq, nextCall?_of_findToken_eq_none hfind]
      exact ⟨rfl, rfl⟩
    | noArgument =>
      obtain ⟨rfl, rfl⟩ := eq_of_bytes_eq htext (List.append_nil text).symm hoffset
      obtain ⟨_, argument, _, _, _, _, hreading, hcalls, rfl⟩ := hahead.exists_argument nofun
      rw [hreading.missing] at hcalls
      obtain ⟨rfl, rfl⟩ := List.cons.inj hcalls
      exact ⟨rfl, rfl⟩
  obtain ⟨rfl, hkeys⟩ := hnone
  refine ⟨?_, ?_⟩
  · rw [← h.opened_eq, List.map_nil, List.append_nil]
  · rw [h.keys_eq, ← h.found_eq, hkeys, List.append_nil]

end Moves

/-- The cursor agrees with the calls of the text all the way. -/
theorem agrees_of_reaches {turns : Nat} {cursor : Cursor} (h : Reaches token text turns cursor) :
    ∃ before behind unjudged unopened found,
      Agrees token text cursor before behind unjudged unopened found := by
  induction h with
  | start => exact ⟨_, _, _, _, _, agrees_start token text⟩
  | turn hreach hturn ih =>
    obtain ⟨_, _, _, _, _, hagrees⟩ := ih
    exact hagrees.of_turns ((sound_of_reaches hreach).1.turns hturn)

/-! ## 5. A sweep -/

/-- A sweep over a text for the calls of a name: from the start of the text until the reading
    ends. -/
structure Sweeps (name text : String) (turns : Nat) (last : Cursor) : Prop where
  reaches : Reaches ⟨name.toList⟩ text.toList turns last
  ended : last.turn ⟨name.toList⟩ text.toList = .ok none
  /-- No cursor on the way has taken more turns than the length of the text allows. -/
  bounded : ∀ turns cursor, Reaches ⟨name.toList⟩ text.toList turns cursor →
    turns ≤ 2 * text.utf8ByteSize * (text.utf8ByteSize + 2)
  /-- The text is cut within its length and at character boundaries only, -/
  isValid : ∀ turns cursor, Reaches ⟨name.toList⟩ text.toList turns cursor →
    ∀ offset, CutsAt ⟨name.toList⟩ text.toList cursor offset →
      offset ≤ text.utf8ByteSize ∧ (⟨offset⟩ : String.Pos.Raw).IsValid text
  /-- so that no turn comes to an error. -/
  possible : ∀ turns cursor, Reaches ⟨name.toList⟩ text.toList turns cursor →
    ∃ outcome, cursor.turn ⟨name.toList⟩ text.toList = .ok outcome
  /-- The calls open at strictly rising places, so none is opened twice. -/
  rising : last.opened.Pairwise (· < ·)
  opened_eq : last.opened =
    (calls ⟨name.toList⟩ none text.toList).map (Call.offset text.toList)
  keys_eq : last.keys = keysOf name text

/-- Every text is swept for every name, even if it is empty or no name at all. -/
theorem exists_sweeps (name text : String) : ∃ turns last, Sweeps name text turns last := by
  obtain ⟨turns, last, hreach, hended⟩ := exists_ended (@Reaches.start ⟨name.toList⟩ text.toList)
  obtain ⟨hsound, -⟩ := sound_of_reaches hreach
  obtain ⟨_, _, _, _, _, hagrees⟩ := agrees_of_reaches hreach
  obtain ⟨hopened, hkeys⟩ := hagrees.of_ended (hsound.turns hended)
  refine ⟨turns, last, hreach, hended, fun turns cursor h => ?_, fun turns cursor h offset hcut => ?_,
    fun turns cursor h => ?_, hsound.rising, hopened, hkeys⟩
  · have hleft := (sound_of_reaches h).2
    rw [left_start, bytes_toList] at hleft
    omega
  · have hplace := hcut.isPlace (sound_of_reaches h).1.isPlace
    exact ⟨hplace.le.trans_eq (bytes_toList text), isPlace_iff.1 hplace⟩
  · exact exists_turn_iff.2 fun offset hcut => hcut.isPlace (sound_of_reaches h).1.isPlace

/-- A literal that is never closed hides no call: the second one opens behind the first. -/
example : (calls ⟨"tr".toList⟩ none "tr('a tr(\"b\")".toList).map
      (Call.offset "tr('a tr(\"b\")".toList) = [3, 9] ∧
    keysOf "tr" "tr('a tr(\"b\")" = ["b"] := by
  decide +kernel

end Cursor

end LocaleCatalog.Source
