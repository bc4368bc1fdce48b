import LocaleCatalog.Proofs.Distinct
import LocaleCatalog.Source.Key

/-!
# Reading by byte offsets

A text in memory is a sequence of bytes, and it can be cut only between two characters. A `Cursor`
reads it turn by turn: it holds a byte offset, and what it looks for there. A turn cuts the text at
offsets that it has computed, and there is no next cursor if one of these cuts is impossible.
Nothing is known beforehand about the name of the calls; it may be empty.

* `Source.cut_eq_ok_iff`, `Source.isPlace_iff`: where a text can be cut;
* `Source.Cursor.turn`, `Source.Cursor.CutsAt`: one turn, and where it cuts the text;
* `Source.Cursor.Turns`, `Source.Cursor.exists_turns`: all that a turn can do. At a place between
  two characters no cut is impossible;
* `Source.Cursor.exists_turn_iff`: a turn goes through just if all its cuts are possible.
-/

namespace LocaleCatalog.Source

/-! ## 1. Cuts -/

/-- The length of a text in bytes. -/
def bytes (text : List Char) : Nat :=
  (String.ofList text).utf8ByteSize

@[simp] theorem bytes_nil : bytes [] = 0 := rfl

@[simp] theorem bytes_append (first second : List Char) :
    bytes (first ++ second) = bytes first + bytes second := by
  rw [bytes, String.ofList_append, String.utf8ByteSize_append, bytes, bytes]

@[simp] theorem bytes_cons (c : Char) (text : List Char) :
    bytes (c :: text) = c.utf8Size + bytes text := by
  rw [bytes, String.ofList_cons, String.utf8ByteSize_append, String.utf8ByteSize_singleton, bytes]

theorem bytes_concat (text : List Char) (c : Char) :
    bytes (text ++ [c]) = bytes text + c.utf8Size := by
  simp

theorem bytes_toList (text : String) : bytes text.toList = text.utf8ByteSize := by
  rw [bytes, String.ofList_toList]

/-- The two parts of a text before and behind a byte offset. -/
def split? : List Char → Nat → Option (List Char × List Char)
  | text, 0 => some ([], text)
  | [], _ + 1 => none
  | c :: text, offset + 1 =>
    if c.utf8Size ≤ offset + 1 then
      (split? text (offset + 1 - c.utf8Size)).map fun parts => (c :: parts.1, parts.2)
    else none

/-- Cuts a text in two. It cannot be cut behind its end nor inside a character; the error is the
    offset. -/
def cut (text : List Char) (offset : Nat) : Except Nat (List Char × List Char) :=
  match split? text offset with
  | none => .error offset
  | some parts => .ok parts

theorem split?_eq_some_iff {text before behind : List Char} {offset : Nat} :
    split? text offset = some (before, behind) ↔ text = before ++ behind ∧ bytes before = offset := by
  constructor
  · intro h
    fun_induction split? text offset generalizing before behind with
    | case1 =>
      cases h
      exact ⟨rfl, rfl⟩
    | case2 => cases h
    | case3 c text offset hle ih =>
      obtain ⟨⟨first, second⟩, hparts, heq⟩ := Option.map_eq_some_iff.1 h
      cases heq
      obtain ⟨rfl, hbytes⟩ := ih hparts
      refine ⟨rfl, ?_⟩
      rw [bytes_cons, hbytes]
      omega
    | case4 => cases h
  · rintro ⟨rfl, rfl⟩
    induction before with
    | nil =>
      rw [bytes_nil, split?.eq_def]
      rfl
    | cons c before ih =>
      have hpos := c.utf8Size_pos
      obtain ⟨offset, hoffset⟩ : ∃ offset, bytes (c :: before) = offset + 1 :=
        ⟨c.utf8Size - 1 + bytes before, by rw [bytes_cons]; omega⟩
      have hrest : offset + 1 - c.utf8Size = bytes before := by
        rw [← hoffset, bytes_cons]
        omega
      rw [hoffset, List.cons_append, split?, if_pos (by rw [← hoffset, bytes_cons]; omega), hrest, ih]
      rfl

theorem cut_eq_ok_iff {text before behind : List Char} {offset : Nat} :
    cut text offset = .ok (before, behind) ↔ text = before ++ behind ∧ bytes before = offset := by
  rw [← split?_eq_some_iff]
  unfold cut
  cases split? text offset <;> simp

/-- A place between two characters of the text, at its start or at its end. -/
def IsPlace (text : List Char) (offset : Nat) : Prop :=
  ∃ before behind, text = before ++ behind ∧ bytes before = offset

theorem IsPlace.le {text : List Char} {offset : Nat} (h : IsPlace text offset) :
    offset ≤ bytes text := by
  obtain ⟨before, behind, rfl, rfl⟩ := h
  simp

theorem isPlace_zero (text : List Char) : IsPlace text 0 :=
  ⟨[], text, rfl, rfl⟩

/-- The places of a text are its character boundaries. -/
theorem isPlace_iff {text : String} {offset : Nat} :
    IsPlace text.toList offset ↔ (⟨offset⟩ : String.Pos.Raw).IsValid text := by
  rw [String.Pos.Raw.isValid_iff_exists_append]
  constructor
  · rintro ⟨before, behind, htext, rfl⟩
    refine ⟨String.ofList before, String.ofList behind, ?_, ?_⟩
    · rw [← String.ofList_append, ← htext, String.ofList_toList]
    · rw [String.Pos.Raw.ext_iff, String.byteIdx_rawEndPos, ← bytes_toList, String.toList_ofList]
  · rintro ⟨before, behind, rfl, heq⟩
    refine ⟨before.toList, behind.toList, String.toList_append, ?_⟩
    rw [bytes_toList, ← String.byteIdx_rawEndPos, ← heq]

/-- Only at its places a text can be cut. -/
theorem exists_cut_iff {text : List Char} {offset : Nat} :
    (∃ parts, cut text offset = .ok parts) ↔ IsPlace text offset := by
  constructor
  · rintro ⟨⟨before, behind⟩, h⟩
    exact ⟨before, behind, cut_eq_ok_iff.1 h⟩
  · rintro ⟨before, behind, h⟩
    exact ⟨(before, behind), cut_eq_ok_iff.2 h⟩

/-! ## 2. Tokens -/

variable {token : CallToken}

/-- How many bytes stand before the first token. -/
def findToken (token : CallToken) : List Char → Option Nat
  | [] => none
  | c :: text =>
    if token.chars <+: c :: text then some 0 else (findToken token text).map (c.utf8Size + ·)

/-- A token that is found stands there. -/
theorem exists_of_findToken {text : List Char} {offset : Nat}
    (h : findToken token text = some offset) :
    ∃ gap behind, text = gap ++ (token.chars ++ behind) ∧ bytes gap = offset := by
  fun_induction findToken token text generalizing offset with
  | case1 => cases h
  | case2 c text htoken =>
    cases h
    obtain ⟨behind, hbehind⟩ := htoken
    exact ⟨[], behind, hbehind.symm, rfl⟩
  | case3 c text htoken ih =>
    obtain ⟨offset, hfind, rfl⟩ := Option.map_eq_some_iff.1 h
    obtain ⟨gap, behind, rfl, rfl⟩ := ih hfind
    exact ⟨c :: gap, behind, rfl, bytes_cons c gap⟩

/-! ## 3. The cursor -/

/-- A literal of which the closing quote has not been read. -/
structure Unclosed where
  quote : Char
  /-- Where the search goes on if the literal is never closed. -/
  resume : Nat
  body : List Char
  afterDollar : Bool
  rejected : Bool

def Unclosed.begin (quote : Char) (resume : Nat) : Unclosed :=
  ⟨quote, resume, [], false, false⟩

def Unclosed.push (unclosed : Unclosed) (c : Char) : Unclosed :=
  { unclosed with
    body := unclosed.body ++ [c]
    afterDollar := c = '$'
    rejected := unclosed.rejected || c = '\n' || c = '\r' || (c = '{' && unclosed.afterDollar) }

def Unclosed.key? (unclosed : Unclosed) : Option String :=
  if unclosed.rejected || unclosed.body.isEmpty then none else some (String.ofList unclosed.body)

/-- What a cursor looks for. -/
inductive Phase where
  | call
  /-- The quote of the argument, behind blanks. -/
  | argument (resume : Nat)
  | literal (unclosed : Unclosed)
  /-- The character behind a backslash in a literal. -/
  | escape (unclosed : Unclosed)

/-- The place behind the parenthesis of the call that is open. -/
def Phase.resume? : Phase → Option Nat
  | .call => none
  | .argument resume => some resume
  | .literal unclosed => some unclosed.resume
  | .escape unclosed => some unclosed.resume

structure Cursor where
  offset : Nat
  phase : Phase
  /-- The places behind the parentheses of the calls that were found. -/
  opened : List Nat
  keys : List String

namespace Cursor

/-- At the start of a text. -/
def start : Cursor :=
  ⟨0, .call, [], []⟩

/-- Keeps a key, unless it was found before. -/
def note (keys : List String) : Option String → List String
  | none => keys
  | some key => if key ∈ keys then keys else keys ++ [key]

/-- Looks for a call. A token inside a word is passed over, in a turn of its own. -/
def seek (token : CallToken) (text : List Char) (cursor : Cursor) (behind : List Char) :
    Except Nat (Option Cursor) :=
  match findToken token behind with
  | none => return none
  | some gap => do
    let (before, _) ← cut text (cursor.offset + gap)
    let next := cursor.offset + gap + bytes token.chars
    if startsWord before.getLast? then
      return some { cursor with
        offset := next, phase := .argument next, opened := cursor.opened ++ [next] }
    else return some { cursor with offset := next }

/-- Looks for the quote of the argument. The reading ends where only blanks are left. -/
def readArgument (cursor : Cursor) (resume : Nat) : List Char → Option Cursor
  | [] => none
  | c :: _ =>
    let next := cursor.offset + c.utf8Size
    if Text.isBlank c then some { cursor with offset := next }
    else if isQuote c then some { cursor with offset := next, phase := .literal (.begin c resume) }
    else some { cursor with offset := resume, phase := .call }

/-- Reads a character of a literal. If there is none the literal is never closed. -/
def readLiteral (cursor : Cursor) (unclosed : Unclosed) : List Char → Cursor
  | [] => { cursor with offset := unclosed.resume, phase := .call }
  | c :: _ =>
    let next := cursor.offset + c.utf8Size
    if c = '\\' then { cursor with offset := next, phase := .escape (unclosed.push c) }
    else if c = unclosed.quote then
      { cursor with offset := next, phase := .call, keys := note cursor.keys unclosed.key? }
    else { cursor with offset := next, phase := .literal (unclosed.push c) }

/-- Reads the character behind a backslash. -/
def readEscaped (cursor : Cursor) (unclosed : Unclosed) : List Char → Cursor
  | [] => { cursor with offset := unclosed.resume, phase := .call }
  | c :: _ =>
    { cursor with
      offset := cursor.offset + c.utf8Size, phase := .literal (unclosed.push c) }

/-- One turn: the next cursor, `none` where the reading ends, and an error where the text cannot be
    cut. -/
def turn (token : CallToken) (text : List Char) (cursor : Cursor) : Except Nat (Option Cursor) := do
  let (_, behind) ← cut text cursor.offset
  match cursor.phase with
  | .call => cursor.seek token text behind
  | .argument resume => return cursor.readArgument resume behind
  | .literal unclosed => return some (cursor.readLiteral unclosed behind)
  | .escape unclosed => return some (cursor.readEscaped unclosed behind)

/-- Where a turn cuts the text: at the cursor, and in front of a token that it finds. -/
inductive CutsAt (token : CallToken) (text : List Char) (cursor : Cursor) : Nat → Prop where
  | cursor : CutsAt token text cursor cursor.offset
  | token {before behind : List Char} {gap : Nat} (hphase : cursor.phase = .call)
      (hcut : cut text cursor.offset = .ok (before, behind))
      (hfind : findToken token behind = some gap) : CutsAt token text cursor (cursor.offset + gap)

theorem CutsAt.isPlace {text : List Char} {cursor : Cursor} {offset : Nat}
    (h : CutsAt token text cursor offset) (hplace : IsPlace text cursor.offset) :
    IsPlace text offset := by
  cases h with
  | cursor => exact hplace
  | token _ hcut hfind =>
    obtain ⟨htext, hbefore⟩ := cut_eq_ok_iff.1 hcut
    obtain ⟨gap, rest, rfl, rfl⟩ := exists_of_findToken hfind
    exact ⟨_ ++ gap, token.chars ++ rest, by rw [htext, List.append_assoc],
      by rw [bytes_append, hbefore]⟩

/-! ## 4. What a turn can do -/

/-- The turns of a cursor at a place between two characters: `before` has been passed. -/
inductive Turns (token : CallToken) (text : List Char) : Cursor → Option Cursor → Prop where
  | noToken {before behind : List Char} {opened : List Nat} {keys : List String}
      (htext : text = before ++ behind) (hnone : findToken token behind = none) :
      Turns token text ⟨bytes before, .call, opened, keys⟩ none
  /-- A token inside a word is passed over. -/
  | inWord {before gap behind : List Char} {opened : List Nat} {keys : List String}
      (htext : text = before ++ (gap ++ (token.chars ++ behind)))
      (hfind : findToken token (gap ++ (token.chars ++ behind)) = some (bytes gap))
      (hword : startsWord (before ++ gap).getLast? = false) :
      Turns token text ⟨bytes before, .call, opened, keys⟩
        (some ⟨bytes (before ++ gap ++ token.chars), .call, opened, keys⟩)
  | opens {before gap behind : List Char} {opened : List Nat} {keys : List String}
      (htext : text = before ++ (gap ++ (token.chars ++ behind)))
      (hfind : findToken token (gap ++ (token.chars ++ behind)) = some (bytes gap))
      (hword : startsWord (before ++ gap).getLast? = true) :
      Turns token text ⟨bytes before, .call, opened, keys⟩
        (some ⟨bytes (before ++ gap ++ token.chars),
          .argument (bytes (before ++ gap ++ token.chars)),
          opened ++ [bytes (before ++ gap ++ token.chars)], keys⟩)
  | noArgument {resume : Nat} {opened : List Nat} {keys : List String} :
      Turns token text ⟨bytes text, .argument resume, opened, keys⟩ none
  | blank {before behind : List Char} {c : Char} {resume : Nat} {opened : List Nat}
      {keys : List String} (htext : text = before ++ c :: behind) (hblank : Text.isBlank c = true) :
      Turns token text ⟨bytes before, .argument resume, opened, keys⟩
        (some ⟨bytes (before ++ [c]), .argument resume, opened, keys⟩)
  | quote {before behind : List Char} {c : Char} {resume : Nat} {opened : List Nat}
      {keys : List String} (htext : text = before ++ c :: behind) (hquote : isQuote c = true) :
      Turns token text ⟨bytes before, .argument resume, opened, keys⟩
        (some ⟨bytes (before ++ [c]), .literal (.begin c resume), opened, keys⟩)
  /-- The argument is no literal: back to the parenthesis. -/
  | other {before behind : List Char} {c : Char} {resume : Nat} {opened : List Nat}
      {keys : List String} (htext : text = before ++ c :: behind) (hblank : Text.isBlank c = false)
      (hquote : isQuote c = false) :
      Turns token text ⟨bytes before, .argument resume, opened, keys⟩
        (some ⟨resume, .call, opened, keys⟩)
  | slash {before behind : List Char} {unclosed : Unclosed} {opened : List Nat} {keys : List String}
      (htext : text = before ++ '\\' :: behind) :
      Turns token text ⟨bytes before, .literal unclosed, opened, keys⟩
        (some ⟨bytes (before ++ ['\\']), .escape (unclosed.push '\\'), opened, keys⟩)
  | closes {before behind : List Char} {unclosed : Unclosed} {opened : List Nat} {keys : List String}
      (htext : text = before ++ unclosed.quote :: behind) (hslash : unclosed.quote ≠ '\\') :
      Turns token text ⟨bytes before, .literal unclosed, opened, keys⟩
        (some ⟨bytes (before ++ [unclosed.quote]), .call, opened, note keys unclosed.key?⟩)
  | plain {before behind : List Char} {c : Char} {unclosed : Unclosed} {opened : List Nat}
      {keys : List String} (htext : text = before ++ c :: behind) (hslash : c ≠ '\\')
      (hquote : c ≠ unclosed.quote) :
      Turns token text ⟨bytes before, .literal unclosed, opened, keys⟩
        (some ⟨bytes (before ++ [c]), .literal (unclosed.push c), opened, keys⟩)
  | escaped {before behind : List Char} {c : Char} {unclosed : Unclosed} {opened : List Nat}
      {keys : List String} (htext : text = before ++ c :: behind) :
      Turns token text ⟨bytes before, .escape unclosed, opened, keys⟩
        (some ⟨bytes (before ++ [c]), .literal (unclosed.push c), opened, keys⟩)
  /-- The literal is never closed: back to the parenthesis. -/
  | neverClosed {unclosed : Unclosed} {opened : List Nat} {keys : List String} :
      Turns token text ⟨bytes text, .literal unclosed, opened, keys⟩
        (some ⟨unclosed.resume, .call, opened, keys⟩)
  | cutOff {unclosed : Unclosed} {opened : List Nat} {keys : List String} :
      Turns token text ⟨bytes text, .escape unclosed, opened, keys⟩
        (some ⟨unclosed.resume, .call, opened, keys⟩)

section Readers

variable {text before behind : List Char} (htext : text = before ++ behind) {opened : List Nat}
  {keys : List String}

include htext

theorem exists_turns_seek (token : CallToken) :
    ∃ next, seek token text ⟨bytes before, .call, opened, keys⟩ behind = .ok next ∧
      Turns token text ⟨bytes before, .call, opened, keys⟩ next := by
  unfold seek
  cases hfind : findToken token behind with
  | none => exact ⟨none, rfl, .noToken htext hfind⟩
  | some offset =>
    obtain ⟨gap, rest, rfl, rfl⟩ := exists_of_findToken hfind
    have hcut : cut text (bytes before + bytes gap) = .ok (before ++ gap, token.chars ++ rest) :=
      cut_eq_ok_iff.2 ⟨by rw [htext, List.append_assoc], bytes_append _ _⟩
    have hnext : bytes before + bytes gap + bytes token.chars =
        bytes (before ++ gap ++ token.chars) := by rw [bytes_append, bytes_append]
    dsimp only
    rw [hcut, hnext]
    simp only [bind, Except.bind, pure, Except.pure]
    split
    · rename_i hword
      exact ⟨_, rfl, .opens htext hfind hword⟩
    · rename_i hword
      exact ⟨_, rfl, .inWord htext hfind (Bool.not_eq_true _ ▸ hword)⟩

theorem turns_readArgument (token : CallToken) (resume : Nat) :
    Turns token text ⟨bytes before, .argument resume, opened, keys⟩
      (readArgument ⟨bytes before, .argument resume, opened, keys⟩ resume behind) := by
  unfold readArgument
  split
  · rw [List.append_nil] at htext
    exact htext ▸ .noArgument
  · rename_i c rest
    dsimp only
    rw [← bytes_concat]
    split
    · rename_i hblank
      exact .blank htext hblank
    · rename_i hblank
      split
      · rename_i hquote
        exact .quote htext hquote
      · rename_i hquote
        exact .other htext (by simpa using hblank) (by simpa using hquote)

theorem turns_readLiteral (token : CallToken) (unclosed : Unclosed) :
    Turns token text ⟨bytes before, .literal unclosed, opened, keys⟩
      (readLiteral ⟨bytes before, .literal unclosed, opened, keys⟩ unclosed behind) := by
  unfold readLiteral
  split
  · rw [List.append_nil] at htext
    exact htext ▸ .neverClosed
  · rename_i c rest
    dsimp only
    rw [← bytes_concat]
    split
    · rename_i hslash
      subst hslash
      exact .slash htext
    · rename_i hslash
      split
      · rename_i hquote
        subst hquote
        exact .closes htext hslash
      · rename_i hquote
        exact .plain htext hslash hquote

theorem turns_readEscaped (token : CallToken) (unclosed : Unclosed) :
    Turns token text ⟨bytes before, .escape unclosed, opened, keys⟩
      (readEscaped ⟨bytes before, .escape unclosed, opened, keys⟩ unclosed behind) := by
  unfold readEscaped
  split
  · rw [List.append_nil] at htext
    exact htext ▸ .cutOff
  · rename_i c rest
    dsimp only
    rw [← bytes_concat]
    exact .escaped htext

end Readers

/-- At a place between two characters no cut is impossible. -/
theorem exists_turns (token : CallToken) {text : List Char} {cursor : Cursor}
    (h : IsPlace text cursor.offset) :
    ∃ next, cursor.turn token text = .ok next ∧ Turns token text cursor next := by
  obtain ⟨before, behind, htext, hbefore⟩ := h
  obtain ⟨offset, phase, opened, keys⟩ := cursor
  change bytes before = offset at hbefore
  subst hbefore
  have hcut : cut text (bytes before) = .ok (before, behind) := cut_eq_ok_iff.2 ⟨htext, rfl⟩
  unfold turn
  dsimp only
  rw [hcut]
  cases phase with
  | call => exact exists_turns_seek htext token
  | argument resume => exact ⟨_, rfl, turns_readArgument htext token resume⟩
  | literal unclosed => exact ⟨_, rfl, turns_readLiteral htext token unclosed⟩
  | escape unclosed => exact ⟨_, rfl, turns_readEscaped htext token unclosed⟩

/-- A turn goes through just if it cuts the text at places only. -/
theorem exists_turn_iff {text : List Char} {cursor : Cursor} :
    (∃ outcome, cursor.turn token text = .ok outcome) ↔
      ∀ offset, CutsAt token text cursor offset → IsPlace text offset := by
  constructor
  · intro h
    obtain ⟨outcome, hturn⟩ := h
    have hplace : IsPlace text cursor.offset := by
      rw [← exists_cut_iff]
      unfold turn at hturn
      cases hcut : cut text cursor.offset with
      | ok parts => exact ⟨parts, rfl⟩
      | error offset =>
        rw [hcut] at hturn
        cases hturn
    exact fun offset hcuts => hcuts.isPlace hplace
  · intro h
    obtain ⟨outcome, hturn, -⟩ := exists_turns token (h _ .cursor)
    exact ⟨outcome, hturn⟩

end Cursor

end LocaleCatalog.Source
