import Mathlib.Tactic.Ring
import LocaleCatalog.Proofs.Source.Cursor

/-!
# Progress of the cursor

The offset of a cursor goes back whenever the argument of a call is no literal, or one that is never
closed. It goes back to the place behind the call that was opened last (`Source.Cursor.latest`) and
never before it, and no call opens there again: the search goes on behind the parenthesis. So what
is left of a text (`Source.Cursor.left`) counts the bytes behind that place first, then whether a
call is open, then the bytes behind the cursor.

* `Source.Cursor.Sound`: the cursor stands between two characters, and calls open at rising places;
* `Source.Cursor.Sound.of_turns`: a turn keeps this, and less is left behind it;
* `Source.Cursor.sound_of_reaches`, `Source.Cursor.exists_ended`: so does a run of turns from the
  start, and it ends.
-/

namespace LocaleCatalog.Source.Cursor

variable {token : CallToken} {text : List Char} {cursor next : Cursor}

/-! ## 1. What a cursor keeps, and what is left -/

/-- The place behind the call that was opened last; the start of the text if there is none. -/
def latest (cursor : Cursor) : Nat :=
  cursor.opened.getLast?.getD 0

structure Sound (text : List Char) (cursor : Cursor) : Prop where
  isPlace : IsPlace text cursor.offset
  isPlace_latest : IsPlace text cursor.latest
  latest_le : cursor.latest ≤ cursor.offset
  /-- The cursor can only go back to the call that was opened last. -/
  resume_eq : ∀ resume, cursor.phase.resume? = some resume → resume = cursor.latest
  rising : cursor.opened.Pairwise (· < ·)
  le_latest : ∀ offset ∈ cursor.opened, offset ≤ cursor.latest

theorem sound_start (text : List Char) : Sound text start where
  isPlace := isPlace_zero text
  isPlace_latest := isPlace_zero text
  latest_le := le_refl _
  resume_eq := nofun
  rising := .nil
  le_latest := nofun

/-- What is left to be read. While a call is open the bytes behind it may have to be read again. -/
def left (text : List Char) (cursor : Cursor) : Nat :=
  (bytes text - cursor.latest) * (2 * bytes text + 3) +
    (if cursor.phase.resume?.isSome then bytes text + 1 else 0) + (bytes text - cursor.offset)

theorem left_start (text : List Char) :
    start.left text = 2 * bytes text * (bytes text + 2) := by
  show (bytes text - 0) * (2 * bytes text + 3) + 0 + (bytes text - 0) = _
  rw [Nat.sub_zero]
  ring

/-! ## 2. One turn -/

/-- The cursor moves on, and no call opens. -/
theorem Sound.forward (h : Sound text cursor) {offset : Nat} {phase : Phase} {keys : List String}
    (hplace : IsPlace text offset) (hlt : cursor.offset < offset)
    (hresume : ∀ resume, phase.resume? = some resume → cursor.phase.resume? = some resume) :
    Sound text ⟨offset, phase, cursor.opened, keys⟩ ∧
      left text ⟨offset, phase, cursor.opened, keys⟩ < left text cursor := by
  refine ⟨⟨hplace, h.isPlace_latest, h.latest_le.trans hlt.le,
    fun resume hopen => h.resume_eq resume (hresume resume hopen), h.rising, h.le_latest⟩, ?_⟩
  have hend := hplace.le
  -- a call that is open now was open before
  have hopen : (if phase.resume?.isSome then bytes text + 1 else 0) ≤
      if cursor.phase.resume?.isSome then bytes text + 1 else 0 := by
    split
    · rename_i hsome
      obtain ⟨resume, heq⟩ := Option.isSome_iff_exists.1 hsome
      rw [hresume resume heq]
      rfl
    · exact Nat.zero_le _
  unfold left latest
  dsimp only
  omega

/-- The cursor goes back to the call that is open, and it is not open any more. -/
theorem Sound.back (h : Sound text cursor) {resume : Nat}
    (hresume : cursor.phase.resume? = some resume) :
    Sound text ⟨resume, .call, cursor.opened, cursor.keys⟩ ∧
      left text ⟨resume, .call, cursor.opened, cursor.keys⟩ < left text cursor := by
  have heq := h.resume_eq resume hresume
  subst heq
  refine ⟨⟨h.isPlace_latest, h.isPlace_latest, le_refl _, nofun, h.rising, h.le_latest⟩, ?_⟩
  have hend := h.isPlace.le
  unfold left
  rw [if_neg (by simp [Phase.resume?]), if_pos (by rw [hresume]; rfl)]
  -- it may go back over all bytes, which the open call has paid for
  have hback : bytes text - cursor.latest < bytes text + 1 := by omega
  show (bytes text - cursor.latest) * _ + 0 + (bytes text - cursor.latest) < _
  omega

/-- The cursor opens a call further on. -/
theorem Sound.advance (h : Sound text cursor) {offset : Nat} (hplace : IsPlace text offset)
    (hlt : cursor.offset < offset) :
    Sound text ⟨offset, .argument offset, cursor.opened ++ [offset], cursor.keys⟩ ∧
      left text ⟨offset, .argument offset, cursor.opened ++ [offset], cursor.keys⟩ <
        left text cursor := by
  have hlatest : cursor.latest < offset := h.latest_le.trans_lt hlt
  have hnew : latest ⟨offset, .argument offset, cursor.opened ++ [offset], cursor.keys⟩ = offset := by
    simp [latest]
  have hbefore (other : Nat) (hother : other ∈ cursor.opened) : other < offset :=
    (h.le_latest other hother).trans_lt hlatest
  constructor
  · refine ⟨hplace, hnew.symm ▸ hplace, hnew.le, fun resume hopen => ?_, ?_, fun other hother => ?_⟩
    · rw [hnew]
      exact (Option.some_inj.1 hopen).symm
    · refine List.pairwise_append.2 ⟨h.rising, List.pairwise_singleton _ _, fun other hother => ?_⟩
      rw [List.forall_mem_singleton]
      exact hbefore other hother
    · rw [hnew]
      rcases List.mem_append.1 hother with hother | hother
      · exact (hbefore other hother).le
      · exact (List.mem_singleton.1 hother).le
  · have hend := hplace.le
    -- one byte less behind the latest call is worth more than all that follows
    have hless : (bytes text - offset) * (2 * bytes text + 3) + (2 * bytes text + 3) ≤
        (bytes text - cursor.latest) * (2 * bytes text + 3) := by
      rw [← Nat.succ_mul]
      exact Nat.mul_le_mul_right _ (by omega)
    unfold left
    rw [hnew, if_pos (by rfl)]
    dsimp only
    omega

/-- Behind a character the text can be cut. -/
theorem isPlace_behind {before behind : List Char} {c : Char} (htext : text = before ++ c :: behind) :
    IsPlace text (bytes (before ++ [c])) ∧ bytes before < bytes (before ++ [c]) := by
  refine ⟨⟨before ++ [c], behind, by rw [htext]; simp, rfl⟩, ?_⟩
  rw [bytes_concat]
  exact Nat.lt_add_of_pos_right c.utf8Size_pos

/-- Behind a token the text can be cut, and the token is not empty, whatever its name is. -/
theorem isPlace_token {before gap behind : List Char}
    (htext : text = before ++ (gap ++ (token.chars ++ behind))) :
    IsPlace text (bytes (before ++ gap ++ token.chars)) ∧
      bytes before < bytes (before ++ gap ++ token.chars) := by
  refine ⟨⟨before ++ gap ++ token.chars, behind, by rw [htext]; simp, rfl⟩, ?_⟩
  have hpos : 0 < bytes token.chars := by
    rw [CallToken.chars, bytes_concat]
    exact Nat.add_pos_right _ (Char.utf8Size_pos _)
  rw [bytes_append, bytes_append]
  omega

/-- A turn leaves a sound cursor, and less to be read. -/
theorem Sound.of_turns (h : Sound text cursor) (hturn : Turns token text cursor (some next)) :
    Sound text next ∧ next.left text < cursor.left text := by
  cases hturn with
  | inWord htext =>
    obtain ⟨hplace, hlt⟩ := isPlace_token htext
    exact h.forward hplace hlt fun _ hopen => hopen
  | opens htext =>
    obtain ⟨hplace, hlt⟩ := isPlace_token htext
    exact h.advance hplace hlt
  | blank htext =>
    obtain ⟨hplace, hlt⟩ := isPlace_behind htext
    exact h.forward hplace hlt fun _ hopen => hopen
  | quote htext =>
    obtain ⟨hplace, hlt⟩ := isPlace_behind htext
    exact h.forward hplace hlt fun _ hopen => hopen
  | other => exact h.back rfl
  | slash htext =>
    obtain ⟨hplace, hlt⟩ := isPlace_behind htext
    exact h.forward hplace hlt fun _ hopen => hopen
  | closes htext =>
    obtain ⟨hplace, hlt⟩ := isPlace_behind htext
    exact h.forward hplace hlt nofun
  | plain htext =>
    obtain ⟨hplace, hlt⟩ := isPlace_behind htext
    exact h.forward hplace hlt fun _ hopen => hopen
  | escaped htext =>
    obtain ⟨hplace, hlt⟩ := isPlace_behind htext
    exact h.forward hplace hlt fun _ hopen => hopen
  | neverClosed => exact h.back rfl
  | cutOff => exact h.back rfl

/-! ## 3. Runs -/

/-- The cursor is there after a number of turns from the start. -/
inductive Reaches (token : CallToken) (text : List Char) : Nat → Cursor → Prop where
  | start : Reaches token text 0 .start
  | turn {turns : Nat} {cursor next : Cursor} (h : Reaches token text turns cursor)
      (hturn : cursor.turn token text = .ok (some next)) : Reaches token text (turns + 1) next

/-- A sound cursor does what a turn can do. -/
theorem Sound.turns (h : Sound text cursor) {outcome : Option Cursor}
    (hturn : cursor.turn token text = .ok outcome) : Turns token text cursor outcome := by
  obtain ⟨next, hnext, hturns⟩ := exists_turns token h.isPlace
  rw [hturn] at hnext
  cases hnext
  exact hturns

/-- Every cursor on the way is sound, and each turn has used up some of what was left. -/
theorem sound_of_reaches {turns : Nat} (h : Reaches token text turns cursor) :
    Sound text cursor ∧ turns + cursor.left text ≤ start.left text := by
  induction h with
  | start => exact ⟨sound_start text, by rw [Nat.zero_add]⟩
  | turn _ hturn ih =>
    obtain ⟨hsound, hleft⟩ := ih
    obtain ⟨hnext, hless⟩ := hsound.of_turns (hsound.turns hturn)
    exact ⟨hnext, by omega⟩

/-- From every cursor on the way the reading goes on to its end. -/
theorem exists_ended {turns : Nat} (h : Reaches token text turns cursor) :
    ∃ turns last, Reaches token text turns last ∧ last.turn token text = .ok none := by
  induction hleft : cursor.left text using Nat.strong_induction_on generalizing turns cursor with
  | h left ih =>
    have hsound := (sound_of_reaches h).1
    obtain ⟨outcome, hturn, hturns⟩ := exists_turns token hsound.isPlace
    cases outcome with
    | none => exact ⟨turns, cursor, h, hturn⟩
    | some next => exact ih _ (hleft ▸ (hsound.of_turns hturns).2) (h.turn hturn) rfl

end LocaleCatalog.Source.Cursor
