import LocaleCatalog.Proofs.Source.Calls
import LocaleCatalog.Proofs.Source.Reference

/-!
# Written calls and their keys

A `WrittenCall` is a call as a program may write it: blanks, a quote, and a key between two of these
quotes. The key may hold other quotes, escaped quotes, and text that looks like a call itself. One
line each, such calls make a text.

* `Source.calls_pass`, `Source.calls_open`: the calls of a text are read off its first characters,
  whatever follows;
* `Source.WrittenCall.exists_ofText`: a written argument is read as it stands, and so is a written
  line (`Source.WrittenCall.exists_calls_line`);
* `Source.keys_written`: the calls of the text give the keys that were written;
* `Source.keysOf_written`: the keys of the text are these keys, each once, where it first occurs.
-/

namespace LocaleCatalog.Source

/-! ## 1. Calls off the first characters -/

variable {before : Option Char} {text : List Char}

/-- A character that begins no token is passed. -/
theorem calls_pass {token : CallToken} {c : Char} (h : ¬ token.chars <+: c :: text) :
    calls token before (c :: text) = calls token (some c) text :=
  calls_congr (nextCall?_cons h)

/-- Where a word may start, a token opens a call, and a closed literal is the literal of that call.
    The other calls stand behind its closing quote. -/
theorem calls_open (token : CallToken) {quote : Char} {body rest : List Char}
    {shorter : rest.length < text.length} (h : startsWord before = true)
    (hargument : Argument.ofText text = .literal quote body rest shorter) :
    calls token before (token.chars ++ text) =
      ⟨text, some body⟩ :: calls token (some quote) rest := by
  refine calls_of_literal ?_ hargument
  rw [nextCall?_here (List.prefix_append _ _), if_pos h, List.drop_left]

/-- A token of a valid name starts neither with a parenthesis nor with a line end. -/
theorem not_prefix_of_isCallName {name : String} (h : Config.isCallName name = true) {c : Char}
    (hc : Config.isCallStart c = false) : ¬ (⟨name.toList⟩ : CallToken).chars <+: c :: text := by
  unfold Config.isCallName at h
  split at h
  · cases h
  · rename_i first rest hname
    rw [Bool.and_eq_true] at h
    intro hon
    rw [CallToken.chars, hname, List.cons_append, List.cons_prefix_cons] at hon
    rw [hon.1, hc] at h
    exact Bool.false_ne_true h.1

/-! ## 2. Written calls -/

/-- What is read as a literal consists of units. -/
theorem units_of_literal {quote : Char} {key : List Char} (hquote : quote ≠ '\\')
    (h : literal quote (key ++ [quote]) = some (key, [])) : Units quote key :=
  ((literal_eq_some_iff hquote).1 h).1

theorem units_of_not_mem {quote : Char} {body : List Char} (hquote : quote ∉ body)
    (hslash : '\\' ∉ body) : Units quote body := by
  induction body with
  | nil => exact .nil
  | cons c body ih =>
    rw [List.mem_cons, not_or] at hquote hslash
    exact .plain (Ne.symm hslash.1) (Ne.symm hquote.1) (ih hquote.2 hslash.2)

/-- A call as it is written: the blanks behind its parenthesis, its quote, and its key. -/
structure WrittenCall where
  blanks : List Char
  quote : Char
  key : List Char
  isBlank : ∀ c ∈ blanks, Text.isBlank c = true
  isQuote : quote ∈ ['\'', '"', '`']
  units : Units quote key
  isKey : IsKey key

namespace WrittenCall

/-- What stands behind the parenthesis of the call, up to its closing quote. -/
def argument (call : WrittenCall) : List Char :=
  call.blanks ++ call.quote :: (call.key ++ [call.quote])

/-- The call, alone on a line. -/
def line (name : List Char) (call : WrittenCall) : List Char :=
  name ++ '(' :: (call.argument ++ [')', '\n'])

/-- A written argument is read as it stands, whatever follows. -/
theorem exists_ofText (call : WrittenCall) (rest : List Char) : ∃ shorter,
    Argument.ofText (call.argument ++ rest) = .literal call.quote call.key rest shorter := by
  have hquote := isQuote_iff.2 call.isQuote
  have hdrop : (call.argument ++ rest).dropWhile Text.isBlank =
      call.quote :: (call.key ++ call.quote :: rest) := by
    rw [argument, List.append_assoc, List.dropWhile_append_of_pos call.isBlank, List.cons_append,
      List.dropWhile_cons_of_neg (not_isBlank_of_isQuote hquote)]
    simp
  have hliteral : literal call.quote (call.key ++ call.quote :: rest) = some (call.key, rest) :=
    (literal_eq_some_iff (ne_backslash_of_isQuote hquote)).2 ⟨call.units, rfl⟩
  exact Argument.exists_ofText_of_literal hdrop hquote hliteral

/-- A key between double quotes, right behind the parenthesis. -/
def quoted (key : List Char) (hkey : IsKey key) (hquote : '"' ∉ key)
    (hslash : '\\' ∉ key) : WrittenCall where
  blanks := []
  quote := '"'
  key
  isBlank := List.forall_mem_nil _
  isQuote := List.mem_cons_of_mem _ List.mem_cons_self
  units := units_of_not_mem hquote hslash
  isKey := hkey

end WrittenCall

/-- A written line is read as its one call, and what follows it from behind its line end on. -/
theorem WrittenCall.exists_calls_line {name : String} (hname : Config.isCallName name = true)
    (call : WrittenCall) {before : Option Char} (h : startsWord before = true) (more : List Char) :
    ∃ behind, calls ⟨name.toList⟩ before (call.line name.toList ++ more) =
      ⟨behind, some call.key⟩ :: calls ⟨name.toList⟩ (some '\n') more := by
  have hline : call.line name.toList ++ more =
      (⟨name.toList⟩ : CallToken).chars ++ (call.argument ++ ')' :: '\n' :: more) := by
    simp [line, CallToken.chars]
  obtain ⟨shorter, hargument⟩ := call.exists_ofText (')' :: '\n' :: more)
  refine ⟨call.argument ++ ')' :: '\n' :: more, ?_⟩
  rw [hline, calls_open _ h hargument,
    calls_pass (not_prefix_of_isCallName hname (by decide +kernel)),
    calls_pass (not_prefix_of_isCallName hname (by decide +kernel))]

/-- Calls that are written one line each give their keys, in their order. Each of them starts a text,
    or stands behind the line end of the call before it. -/
theorem keys_written {name : String} (hname : Config.isCallName name = true)
    (written : List WrittenCall) {before : Option Char} (h : startsWord before = true) :
    (calls ⟨name.toList⟩ before (written.flatMap (·.line name.toList))).filterMap Call.key? =
      written.map (·.key) := by
  induction written generalizing before with
  | nil =>
    have hnone : findCall ⟨name.toList⟩ before [] = none := by
      rw [findCall, dif_neg (by simp [CallToken.chars])]
    rw [List.flatMap_nil, calls, hnone]
    rfl
  | cons call more ih =>
    obtain ⟨behind, hcalls⟩ :=
      call.exists_calls_line hname h (more.flatMap (·.line name.toList))
    rw [List.flatMap_cons, hcalls, filterMap_key?_cons, if_pos call.isKey, ih rfl, List.map_cons]

/-- A text that is made of written calls has the keys that were written, each once, where it first
    occurs. -/
theorem keysOf_written {name : String} (hname : Config.isCallName name = true)
    (written : List WrittenCall) :
    keysOf name (String.ofList (written.flatMap (·.line name.toList))) =
      (written.map fun call => String.ofList call.key).eraseDups := by
  rw [keysOf, String.toList_ofList, keys_written hname written rfl, List.map_map]
  rfl

/-- A call in a key, a key that ends in an escaped backslash, and the first key once more, between
    other quotes. -/
def sampleCalls : List WrittenCall := [
  { blanks := ['\n', '\u3000'], quote := '"', key := "tr('x')".toList
    isBlank := List.all_eq_true.1 (by decide), isQuote := by decide, isKey := by decide +kernel
    units := units_of_literal (by decide) (by decide +kernel) },
  { blanks := [], quote := '\'', key := "it\\'s \\\\".toList
    isBlank := List.all_eq_true.1 (by decide), isQuote := by decide, isKey := by decide +kernel
    units := units_of_literal (by decide) (by decide +kernel) },
  { blanks := [' '], quote := '`', key := "tr('x')".toList
    isBlank := List.all_eq_true.1 (by decide), isQuote := by decide, isKey := by decide +kernel
    units := units_of_literal (by decide) (by decide +kernel) }]

theorem keysOf_written_sample : Config.isCallName "tr" = true ∧
    keysOf "tr" (String.ofList (sampleCalls.flatMap (·.line "tr".toList))) =
      ["tr('x')", "it\\'s \\\\"] := by
  have hname : Config.isCallName "tr" = true := by decide +kernel
  refine ⟨hname, (keysOf_written hname sampleCalls).trans ?_⟩
  decide +kernel

end LocaleCatalog.Source
