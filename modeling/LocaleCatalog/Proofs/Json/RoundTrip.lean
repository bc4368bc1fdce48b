import Mathlib.Data.List.TakeWhile
import LocaleCatalog.Json.Structure
import LocaleCatalog.Json.Writer

/-!
# What is written reads back

`Reads reader input value rest` says that a reader takes a value from the start of its input and
leaves the rest. The main statements follow the writer from the inside out:

* `reads_quotedChars`: the characters of a text, escapes included;
* `reads_text`: a text in its quotes;
* `reads_object`: an object at any level of nesting, once its values read back;
* `reads_list`: a list of texts at any level of nesting.

The rest is arbitrary throughout, so that each statement can be used inside the next.
-/

namespace LocaleCatalog.Json

/-- The reader takes a value from the start of the input, and leaves the rest. -/
def Reads {α : Type} (reader : Reader α) (input : List Char) (value : α) (rest : List Char) :
    Prop :=
  ∃ shorter, reader input = .ok ⟨value, rest, shorter⟩

theorem Reads.map {α β : Type} {reader : Reader α} {input rest : List Char} {value : α}
    (h : Reads reader input value rest) (f : α → β) :
    Reads (fun input => (reader input).map (·.map f)) input (f value) rest := by
  obtain ⟨shorter, h⟩ := h
  refine ⟨shorter, ?_⟩
  show (reader input).map _ = _
  rw [h]
  rfl

/-! ## 1. Characters -/

theorem hexDigit?_hexDigit {n : Nat} (h : n < 16) : hexDigit? (hexDigit n) = some n := by
  revert n
  decide

/-- The ways in which a character is written: as it is, by a letter, or by its number. -/
theorem writeChar_cases (c : Char) :
    (writeChar c = [c] ∧ c ≠ '"' ∧ c ≠ '\\' ∧ 0x20 ≤ c.toNat) ∨
    (∃ letter, writeChar c = ['\\', letter] ∧ letter ≠ 'u' ∧ escapeLetter? letter = some c) ∨
    (c.toNat < 0x20 ∧ writeChar c =
      ['\\', 'u', '0', '0', hexDigit (c.toNat / 16), hexDigit (c.toNat % 16)]) := by
  unfold writeChar
  split
  case h_8 hquote hslash _ _ _ _ _ =>
    split
    · exact .inr (.inr ⟨‹_›, rfl⟩)
    · exact .inl ⟨rfl, hquote, hslash, by omega⟩
  all_goals exact .inr (.inl ⟨_, rfl, by decide, rfl⟩)

theorem reads_escape_letter {letter c : Char} (hletter : letter ≠ 'u')
    (hescape : escapeLetter? letter = some c) (rest : List Char) :
    Reads escape (letter :: rest) c rest := by
  refine ⟨Nat.lt_succ_self _, ?_⟩
  rw [escape, if_neg hletter, hescape]
  rfl

/-- A control character is read back from its number. -/
theorem reads_escape_number {c : Char} (hc : c.toNat < 0x20) (rest : List Char) :
    Reads escape ('u' :: '0' :: '0' :: hexDigit (c.toNat / 16) :: hexDigit (c.toNat % 16) :: rest)
      c rest := by
  have hhigh := hexDigit?_hexDigit (show c.toNat / 16 < 16 by omega)
  have hlow := hexDigit?_hexDigit (show c.toNat % 16 < 16 by omega)
  have hzero : hexDigit? '0' = some 0 := by decide
  have hunit : ((0 * 16 + 0) * 16 + c.toNat / 16) * 16 + c.toNat % 16 = c.toNat := by omega
  have hnotLow : isLowSurrogate c.toNat = false := by
    simp [isLowSurrogate]
    omega
  have hnotHigh : isHighSurrogate c.toNat = false := by
    simp [isHighSurrogate]
    omega
  refine ⟨by simp only [List.length_cons]; omega, ?_⟩
  rw [escape, if_pos rfl, unicodeEscape, hexUnit, hzero, hhigh, hlow]
  simp only [hunit]
  show Except.map _ (if isLowSurrogate c.toNat = true then _
    else if isHighSurrogate c.toNat = true then _ else _) = _
  rw [if_neg (by rw [hnotLow]; decide), if_neg (by rw [hnotHigh]; decide)]
  show Except.ok (Parsed.behind 'u' _) = _
  simp only [Parsed.behind, Parsed.map, Parsed.one, Char.ofNat_toNat]

/-- The first character of a text, as it was written, and then the others. -/
theorem reads_quotedChars_cons {c : Char} {cs input rest : List Char}
    (hmore : Reads quotedChars input cs rest) :
    Reads quotedChars (writeChar c ++ input) (c :: cs) rest := by
  obtain ⟨shorter, hmore⟩ := hmore
  have hescaped {escaped : List Char} (h : Reads escape (escaped ++ input) c input) :
      Reads quotedChars ('\\' :: (escaped ++ input)) (c :: cs) rest := by
    obtain ⟨hshort, h⟩ := h
    refine ⟨Nat.lt_succ_of_lt (Nat.lt_trans shorter hshort), ?_⟩
    rw [quotedChars, if_neg (by decide), if_pos rfl, h]
    show (quotedChars input >>= _) = _
    rw [hmore]
    rfl
  rcases writeChar_cases c with ⟨hwrite, hquote, hslash, hprintable⟩ |
    ⟨letter, hwrite, hletter, hescape⟩ | ⟨hcontrol, hwrite⟩
  · rw [hwrite]
    refine ⟨Nat.lt_succ_of_lt shorter, ?_⟩
    show quotedChars (c :: input) = _
    rw [quotedChars, if_neg hquote, if_neg hslash, if_neg (by omega), hmore]
    rfl
  · rw [hwrite]
    exact hescaped (reads_escape_letter hletter hescape input)
  · rw [hwrite]
    exact hescaped (reads_escape_number hcontrol input)

theorem reads_quotedChars (cs rest : List Char) :
    Reads quotedChars (writeChars cs ++ '"' :: rest) cs rest := by
  induction cs with
  | nil =>
    refine ⟨Nat.lt_succ_self _, ?_⟩
    show quotedChars ('"' :: rest) = _
    rw [quotedChars, if_pos rfl]
    rfl
  | cons c cs ih =>
    have hsplit : writeChars (c :: cs) ++ '"' :: rest =
        writeChar c ++ (writeChars cs ++ '"' :: rest) := by
      rw [writeChars, List.flatMap_cons, List.append_assoc]
      rfl
    rw [hsplit]
    exact reads_quotedChars_cons ih

/-! ## 2. Tokens -/

/-- A token stands behind blanks. -/
theorem token?_behind_blanks {blanks : List Char} (hblanks : ∀ b ∈ blanks, isSpace b = true)
    {c : Char} (hc : isSpace c = false) (rest : List Char) :
    ∃ shorter, token? (blanks ++ c :: rest) = some ⟨c, rest, shorter⟩ := by
  induction blanks with
  | nil =>
    refine ⟨Nat.lt_succ_self _, ?_⟩
    show token? (c :: rest) = _
    rw [token?, hc]
    rfl
  | cons b blanks ih =>
    obtain ⟨shorter, h⟩ := ih fun b hb => hblanks b (List.mem_cons_of_mem _ hb)
    refine ⟨Nat.lt_succ_of_lt shorter, ?_⟩
    show token? (b :: (blanks ++ c :: rest)) = _
    rw [token?, if_pos (hblanks b List.mem_cons_self), h]
    rfl

/-- There is no token among blanks. -/
theorem token?_blanks {blanks : List Char} (hblanks : ∀ b ∈ blanks, isSpace b = true) :
    token? blanks = none := by
  rw [token?_eq_none_iff, skipSpace, List.dropWhile_eq_nil_iff]
  exact hblanks

/-- A document is a value with nothing but blanks behind it. -/
theorem document_of_reads {α : Type} {reader : Reader α} {source : String} {value : α}
    {rest : List Char} (h : Reads reader source.toList value rest)
    (hrest : ∀ b ∈ rest, isSpace b = true) : document reader source = .ok value := by
  obtain ⟨_, h⟩ := h
  unfold document
  rw [h]
  dsimp only
  rw [token?_blanks hrest]

theorem isSpace_newline (level : Nat) : ∀ b ∈ newline level, isSpace b = true := by
  intro b hb
  rcases List.mem_cons.1 hb with rfl | hb
  · decide
  · rw [List.eq_of_mem_replicate hb]
    decide

theorem isSpace_space : ∀ b ∈ [' '], isSpace b = true := by
  intro b hb
  rw [List.mem_singleton.1 hb]
  decide

variable {α : Type} {blanks : List Char}

theorem reads_startingWith {opening : Char} {wanted : Shape} {body : Reader α}
    {input rest : List Char} {value : α} (hblanks : ∀ b ∈ blanks, isSpace b = true)
    (hopening : isSpace opening = false) (h : Reads body input value rest) :
    Reads (startingWith opening wanted body) (blanks ++ opening :: input) value rest := by
  obtain ⟨hshort, htoken⟩ := token?_behind_blanks hblanks hopening input
  obtain ⟨shorter, h⟩ := h
  refine ⟨Nat.lt_trans shorter hshort, ?_⟩
  unfold startingWith
  rw [htoken]
  dsimp only
  rw [if_pos rfl, h]
  rfl

/-- A text that was written reads back. -/
theorem reads_text (hblanks : ∀ b ∈ blanks, isSpace b = true) (s : String) (rest : List Char) :
    Reads text (blanks ++ (writeText s ++ rest)) s rest := by
  have hsplit : writeText s ++ rest = '"' :: (writeChars s.toList ++ '"' :: rest) := by
    simp [writeText]
  have hbody := (reads_quotedChars s.toList rest).map String.ofList
  rw [String.ofList_toList] at hbody
  rw [hsplit]
  exact reads_startingWith hblanks (by decide) hbody

/-! ## 3. Objects -/

/-- A member as it is written, from behind the opening quote of its key on. -/
def writtenMember (write : α → List Char) (entry : String × α) : List Char :=
  writeChars entry.1.toList ++ '"' :: ':' :: ' ' :: write entry.2

theorem writeMember_eq (write : α → List Char) (entry : String × α) :
    writeMember (entry.1, write entry.2) = '"' :: writtenMember write entry := by
  simp [writeMember, writeText, writtenMember]

/-- The members behind the first one, each behind its comma. -/
def writtenMembers (level : Nat) (write : α → List Char) (entries : List (String × α)) :
    List Char :=
  entries.flatMap fun entry => ',' :: (newline level ++ '"' :: writtenMember write entry)

/-- Things on a line each: the first one, and the others behind their commas. -/
theorem intercalate_lines (level : Nat) (write : α → List Char) (item : α) (items : List α) :
    List.intercalate [','] ((item :: items).map fun item => newline level ++ write item) =
      newline level ++ (write item ++
        items.flatMap fun item => ',' :: (newline level ++ write item)) := by
  induction items generalizing item with
  | nil => simp
  | cons next items ih =>
    rw [List.map_cons, List.map_cons, List.intercalate_cons_cons]
    have hmore := ih next
    rw [List.map_cons] at hmore
    rw [hmore]
    simp

theorem intercalate_members (level : Nat) (write : α → List Char) (entry : String × α)
    (entries : List (String × α)) :
    List.intercalate [','] ((entry :: entries).map fun entry =>
        newline level ++ writeMember (entry.1, write entry.2)) =
      newline level ++ '"' :: (writtenMember write entry ++ writtenMembers level write entries) := by
  simp only [writeMember_eq, writtenMembers]
  exact intercalate_lines level (fun entry => '"' :: writtenMember write entry) entry entries

variable {value : Reader α} {write : α → List Char}

theorem reads_colon (rest : List Char) : Reads colon (':' :: rest) () rest :=
  ⟨Nat.lt_succ_self _, rfl⟩

theorem reads_member (hvalue : ∀ a rest, Reads value (' ' :: (write a ++ rest)) a rest)
    (entry : String × α) (rest : List Char) :
    Reads (member value) (writtenMember write entry ++ rest) entry rest := by
  have hsplit : writtenMember write entry ++ rest =
      writeChars entry.1.toList ++ '"' :: (':' :: ' ' :: (write entry.2 ++ rest)) := by
    simp [writtenMember]
  obtain ⟨hkey, hread⟩ :=
    reads_quotedChars entry.1.toList (':' :: ' ' :: (write entry.2 ++ rest))
  obtain ⟨hmark, hcolon⟩ := reads_colon (' ' :: (write entry.2 ++ rest))
  obtain ⟨hshort, hfound⟩ := hvalue entry.2 rest
  rw [hsplit]
  refine ⟨?_, ?_⟩
  · exact Nat.lt_trans hshort (Nat.lt_trans hmark hkey)
  · unfold member
    rw [hread]
    simp only [bind, Except.bind]
    rw [hcolon]
    dsimp only
    rw [hfound]
    show Except.ok _ = Except.ok _
    simp only [Parsed.followedBy, Parsed.map, String.ofList_toList]

/-- Behind a member stands either the next one or the end. -/
theorem reads_behindMember_comma (level : Nat) (rest : List Char) :
    Reads behindMember (',' :: (newline level ++ '"' :: rest)) true rest := by
  obtain ⟨shorter, htoken⟩ := token?_behind_blanks (isSpace_newline level) (by decide) rest
    (c := '"')
  refine ⟨Nat.lt_succ_of_lt shorter, ?_⟩
  show (behindComma (newline level ++ '"' :: rest)).map _ = _
  unfold behindComma
  rw [htoken]
  rfl

theorem reads_behindMember_end (level : Nat) (rest : List Char) :
    Reads behindMember (newline level ++ '}' :: rest) false rest := by
  obtain ⟨shorter, htoken⟩ := token?_behind_blanks (isSpace_newline level) (by decide) rest
    (c := '}')
  refine ⟨shorter, ?_⟩
  unfold behindMember
  rw [htoken]
  rfl

theorem reads_members (hvalue : ∀ a rest, Reads value (' ' :: (write a ++ rest)) a rest)
    (level : Nat) (entry : String × α) (entries : List (String × α)) (rest : List Char) :
    Reads (members value) (writtenMember write entry ++
        (writtenMembers (level + 1) write entries ++ (newline level ++ '}' :: rest)))
      (entry :: entries) rest := by
  induction entries generalizing entry with
  | nil =>
    obtain ⟨hfirst, hmember⟩ := reads_member hvalue entry (newline level ++ '}' :: rest)
    obtain ⟨hnext, hend⟩ := reads_behindMember_end level rest
    refine ⟨Nat.lt_trans hnext hfirst, ?_⟩
    show members value (writtenMember write entry ++ (newline level ++ '}' :: rest)) = _
    rw [members, hmember]
    show (behindMember (newline level ++ '}' :: rest) >>= _) = _
    rw [hend]
    rfl
  | cons next entries ih =>
    obtain ⟨hmore, hmembers⟩ := ih next
    have hsplit : writtenMembers (level + 1) write (next :: entries) ++
          (newline level ++ '}' :: rest) =
        ',' :: (newline (level + 1) ++ '"' :: (writtenMember write next ++
          (writtenMembers (level + 1) write entries ++ (newline level ++ '}' :: rest)))) := by
      simp [writtenMembers]
    rw [hsplit]
    obtain ⟨hcomma, hbehind⟩ := reads_behindMember_comma (level + 1) (writtenMember write next ++
      (writtenMembers (level + 1) write entries ++ (newline level ++ '}' :: rest)))
    obtain ⟨hfirst, hmember⟩ := reads_member hvalue entry _
    refine ⟨Nat.lt_trans hmore (Nat.lt_trans hcomma hfirst), ?_⟩
    rw [members, hmember]
    show (behindMember _ >>= _) = _
    rw [hbehind]
    show (members value _ >>= _) = _
    rw [hmembers]
    rfl

/-- An object with members begins with its brace and the quote of its first key. -/
theorem writeObject_cons (write : α → List Char) (level : Nat) (entry : String × α)
    (entries : List (String × α)) (rest : List Char) :
    writeObject level ((entry :: entries).map fun entry => (entry.1, write entry.2)) ++ rest =
      '{' :: (newline (level + 1) ++ '"' :: (writtenMember write entry ++
        (writtenMembers (level + 1) write entries ++ (newline level ++ '}' :: rest)))) := by
  have hlines := intercalate_members (level + 1) write entry entries
  unfold writeObject writeBetween
  rw [if_neg (by simp), List.map_map, List.map_map]
  simp only [Function.comp_def, List.cons_append]
  rw [hlines]
  simp

/-- Behind the quote of its first key an object is read as its members. -/
theorem objectBody_eq_members (hblanks : ∀ b ∈ blanks, isSpace b = true) (input : List Char) :
    ∃ start, objectBody value (blanks ++ '"' :: input) =
      (members value input).map (Parsed.followedBy ⟨true, input, start⟩) := by
  obtain ⟨start, htoken⟩ := token?_behind_blanks hblanks (by decide) (c := '"') input
  refine ⟨start, ?_⟩
  unfold objectBody behindBrace
  rw [htoken]
  show (members value input >>= _) = _
  cases members value input <;> rfl

/-- An object that was written reads back, if its values do. -/
theorem reads_object (hvalue : ∀ a rest, Reads value (' ' :: (write a ++ rest)) a rest)
    (hblanks : ∀ b ∈ blanks, isSpace b = true) (level : Nat) (entries : List (String × α))
    (rest : List Char) :
    Reads (object value) (blanks ++
        (writeObject level (entries.map fun entry => (entry.1, write entry.2)) ++ rest))
      entries rest := by
  cases entries with
  | nil =>
    have hbody : Reads (objectBody value) ('}' :: rest) [] rest := ⟨Nat.lt_succ_self _, rfl⟩
    exact reads_startingWith hblanks (by decide) hbody
  | cons entry entries =>
    obtain ⟨hmembers, hread⟩ := reads_members hvalue level entry entries rest
    obtain ⟨hbrace, hbody⟩ := objectBody_eq_members (isSpace_newline (level + 1))
      (writtenMember write entry ++
        (writtenMembers (level + 1) write entries ++ (newline level ++ '}' :: rest)))
    rw [writeObject_cons]
    refine reads_startingWith hblanks (by decide) ⟨Nat.lt_trans hmembers hbrace, ?_⟩
    rw [hbody, hread]
    rfl

/-! ## 4. Lists -/

/-- The items behind the first one, each behind its comma. -/
def writtenItems (level : Nat) (texts : List String) : List Char :=
  texts.flatMap fun item => ',' :: (newline level ++ writeText item)

/-- On a line of its own a text begins with its quote. -/
theorem token?_writtenText (level : Nat) (item : String) (rest : List Char) :
    ∃ behind shorter, token? (newline level ++ (writeText item ++ rest)) =
      some ⟨'"', behind, shorter⟩ := by
  obtain ⟨shorter, htoken⟩ := token?_behind_blanks (isSpace_newline level) (by decide) (c := '"')
    (writeChars item.toList ++ ['"'] ++ rest)
  exact ⟨_, shorter, htoken⟩

/-- Behind an item stands either the comma before the next one or the end. -/
theorem reads_behindItem_comma (level : Nat) (item : String) (rest : List Char) :
    Reads behindItem (',' :: (newline level ++ (writeText item ++ rest))) true
      (newline level ++ (writeText item ++ rest)) := by
  obtain ⟨behind, shorter, htoken⟩ := token?_writtenText level item rest
  refine ⟨Nat.lt_succ_self _, ?_⟩
  have hcomma : token? (',' :: (newline level ++ (writeText item ++ rest))) =
      some (.one ',' ',' (newline level ++ (writeText item ++ rest))) := rfl
  unfold behindItem
  rw [hcomma]
  dsimp only [Parsed.one]
  rw [if_neg (by decide), if_pos rfl, htoken]
  rfl

theorem reads_behindItem_end (level : Nat) (rest : List Char) :
    Reads behindItem (newline level ++ ']' :: rest) false rest := by
  obtain ⟨shorter, htoken⟩ := token?_behind_blanks (isSpace_newline level) (by decide) rest
    (c := ']')
  refine ⟨shorter, ?_⟩
  unfold behindItem
  rw [htoken]
  rfl

theorem reads_items (level : Nat) (item : String) (more : List String) (rest : List Char) :
    Reads (items text) (newline (level + 1) ++ (writeText item ++
        (writtenItems (level + 1) more ++ (newline level ++ ']' :: rest))))
      (item :: more) rest := by
  induction more generalizing item with
  | nil =>
    obtain ⟨hfirst, hitem⟩ := reads_text (isSpace_newline (level + 1)) item
      (newline level ++ ']' :: rest)
    obtain ⟨hnext, hend⟩ := reads_behindItem_end level rest
    refine ⟨Nat.lt_trans hnext hfirst, ?_⟩
    show items text (newline (level + 1) ++ (writeText item ++ (newline level ++ ']' :: rest))) = _
    rw [items, hitem]
    show (behindItem (newline level ++ ']' :: rest) >>= _) = _
    rw [hend]
    rfl
  | cons next more ih =>
    obtain ⟨hmore, hitems⟩ := ih next
    have hsplit : writtenItems (level + 1) (next :: more) ++ (newline level ++ ']' :: rest) =
        ',' :: (newline (level + 1) ++ (writeText next ++
          (writtenItems (level + 1) more ++ (newline level ++ ']' :: rest)))) := by
      simp [writtenItems]
    rw [hsplit]
    obtain ⟨hcomma, hbehind⟩ := reads_behindItem_comma (level + 1) next
      (writtenItems (level + 1) more ++ (newline level ++ ']' :: rest))
    obtain ⟨hfirst, hitem⟩ := reads_text (isSpace_newline (level + 1)) item
      (',' :: (newline (level + 1) ++ (writeText next ++
        (writtenItems (level + 1) more ++ (newline level ++ ']' :: rest)))))
    refine ⟨Nat.lt_trans hmore (Nat.lt_trans hcomma hfirst), ?_⟩
    rw [items, hitem]
    show (behindItem _ >>= _) = _
    rw [hbehind]
    show (items text _ >>= _) = _
    rw [hitems]
    rfl

/-- A list with items begins with its bracket and its first item. -/
theorem writeList_cons (level : Nat) (item : String) (more : List String) (rest : List Char) :
    writeList level (item :: more) ++ rest =
      '[' :: (newline (level + 1) ++ (writeText item ++
        (writtenItems (level + 1) more ++ (newline level ++ ']' :: rest)))) := by
  unfold writeList writeBetween
  rw [if_neg (by simp), List.map_map]
  simp only [Function.comp_def, List.cons_append]
  rw [intercalate_lines]
  simp [writtenItems]

/-- A list of texts that was written reads back. -/
theorem reads_list (hblanks : ∀ b ∈ blanks, isSpace b = true) (level : Nat) (texts : List String)
    (rest : List Char) :
    Reads (list text) (blanks ++ (writeList level texts ++ rest)) texts rest := by
  cases texts with
  | nil =>
    refine reads_startingWith hblanks (by decide) ?_
    exact ⟨Nat.lt_succ_self _, rfl⟩
  | cons item more =>
    obtain ⟨hitems, hread⟩ := reads_items level item more rest
    obtain ⟨behind, shorter, htoken⟩ := token?_writtenText (level + 1) item
      (writtenItems (level + 1) more ++ (newline level ++ ']' :: rest))
    rw [writeList_cons]
    refine reads_startingWith hblanks (by decide) ⟨hitems, ?_⟩
    dsimp only
    unfold emptyEnd?
    rw [htoken]
    show items text _ = _
    exact hread

end LocaleCatalog.Json
