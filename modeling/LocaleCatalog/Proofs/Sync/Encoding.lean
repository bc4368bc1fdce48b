import LocaleCatalog.Proofs.Command.Keys
import LocaleCatalog.Proofs.Source.Composition
import LocaleCatalog.Proofs.Source.Written
import LocaleCatalog.Proofs.Text.Lossy

/-!
# Keys of files in any encoding

A source file may hold bytes that are no text at all. A call that is written in ASCII on a line of
its own is found among them all the same, if the text before it is closed.

* `Source.mem_keysOf_around_line`: the keys of a text, a written line and another text are those of
  the three;
* `Text.decodeLossy_around_line`: bytes, an ASCII line and other bytes are decoded one by one;
* `Sync.keysOfFiles_around_call`: both together, for files.
-/

namespace LocaleCatalog

/-! ## 1. Texts -/

namespace Source

variable {name key : String}

theorem mem_keysOf_iff {text : List Char} : key ∈ keysOf name (String.ofList text) ↔
    key.toList ∈ (calls ⟨name.toList⟩ none text).filterMap Call.key? := by
  unfold keysOf
  rw [List.mem_eraseDups, List.mem_map, String.toList_ofList]
  constructor
  · intro h
    obtain ⟨body, hbody, rfl⟩ := h
    rwa [String.toList_ofList]
  · exact fun h => ⟨key.toList, h, String.ofList_toList⟩

/-- Behind a closed text, a line with one call adds its key, and what follows the line is read as if
    it stood alone. -/
theorem mem_keysOf_around_line (hname : Config.isCallName name = true) {first : List Char}
    (hclosed : IsClosed name (String.ofList first)) (call : WrittenCall) (second : List Char) :
    key ∈ keysOf name (String.ofList (first ++ '\n' :: (call.line name.toList ++ second))) ↔
      key ∈ keysOf name (String.ofList first) ∨ key.toList = call.key ∨
        key ∈ keysOf name (String.ofList second) := by
  unfold IsClosed at hclosed
  rw [String.toList_ofList] at hclosed
  obtain ⟨behind, hline⟩ := @call.exists_calls_line _ hname (some '\n') rfl second
  -- a line end and the start of a text are alike for the calls behind them
  have hstart := @calls_eq_of_startsWord ⟨name.toList⟩ (some '\n') none rfl second
  have hfirst : ((calls ⟨name.toList⟩ none first).map
      (·.append ('\n' :: (call.line name.toList ++ second)))).filterMap Call.key? =
        (calls ⟨name.toList⟩ none first).filterMap Call.key? := by
    rw [List.filterMap_map]
    rfl
  rw [mem_keysOf_iff, mem_keysOf_iff, mem_keysOf_iff,
    calls_append (not_mem_chars_of_isCallName hname) hclosed, List.filterMap_append, hfirst, hline,
    filterMap_key?_cons, if_pos call.isKey, hstart, List.mem_append, List.mem_cons]

end Source

/-! ## 2. Bytes -/

namespace Text

/-- The text has no characters but those of ASCII. -/
def IsAscii (text : String) : Prop :=
  ∀ c ∈ text.toList, c.val < 0x80

instance (text : String) : Decidable (IsAscii text) :=
  List.decidableBAll _ _

/-- Bytes before and behind ASCII lines do not touch them, and the lines do not touch the bytes. -/
theorem decodeLossy_around_line (first second : ByteArray) {line : String} (h : IsAscii line) :
    decodeLossy (first ++ ("\n" ++ line ++ "\n").toUTF8 ++ second).toList =
      decodeLossy first.toList ++ '\n' :: (line.toList ++ '\n' :: decodeLossy second.toList) := by
  have hbytes : (first ++ ("\n" ++ line ++ "\n").toUTF8 ++ second).toList =
      first.toList ++ 0x0A :: (line.toList.flatMap String.utf8EncodeChar ++
        0x0A :: second.toList) := by
    have hend : String.utf8EncodeChar '\n' = [0x0A] := by decide
    rw [toList_append, toList_append, toList_toUTF8]
    simp [hend]
  have hnewline : Char.ofNat (0x0A : UInt8).toNat = '\n' := by decide
  rw [hbytes, decodeLossy_append (by decide), decodeLossy_encoded h, decodeLossy_cons (by decide),
    hnewline]

end Text

/-! ## 3. Files -/

namespace Sync

variable {name key : String} {workspace first second : Workspace} {path before behind : Path}

/-- The keys of one file are those of its bytes. -/
theorem keysOfFiles_singleton {bytes : ByteArray} (h : workspace.readBytes path = .ok bytes) :
    ∃ keys, keysOfFiles workspace name [path] = .ok keys ∧
      ∀ key, key ∈ keys ↔ key ∈ keysOfBytes name bytes := by
  refine ⟨(∅ : KeySet).insertMany (keysOfBytes name bytes), ?_, fun key => ?_⟩
  · unfold keysOfFiles
    rw [List.foldlM_cons, h]
    rfl
  · simp [Std.ExtTreeSet.mem_insertMany_list]

/-- Whatever bytes stand before and behind it, a line in ASCII with one call adds its key to those of
    the bytes, if the bytes before it are closed. -/
theorem keysOfFiles_around_call (hname : Config.isCallName name = true)
    (hascii : Text.IsAscii name ∧ Text.IsAscii key) (hkey : Source.IsKey key.toList)
    (hplain : '"' ∉ key.toList ∧ '\\' ∉ key.toList) {x y : ByteArray}
    (hclosed : Source.IsClosed name (String.ofList (Text.decodeLossy x.toList)))
    (hread : workspace.readBytes path =
      .ok (x ++ ("\n" ++ (name ++ "(\"" ++ key ++ "\")") ++ "\n").toUTF8 ++ y))
    (hx : first.readBytes before = .ok x) (hy : second.readBytes behind = .ok y) :
    ∃ keysX keysY, keysOfFiles first name [before] = .ok keysX ∧
      keysOfFiles second name [behind] = .ok keysY ∧
      keysOfFiles workspace name [path] = .ok (keysX ∪ {key} ∪ keysY) := by
  have hopening : Text.IsAscii "(\"" := by decide
  have hclosing : Text.IsAscii "\")" := by decide
  have hline : Text.IsAscii (name ++ "(\"" ++ key ++ "\")") := by
    intro c hc
    simp only [String.toList_append, List.mem_append] at hc
    rcases hc with ((hc | hc) | hc) | hc
    · exact hascii.1 c hc
    · exact hopening c hc
    · exact hascii.2 c hc
    · exact hclosing c hc
  have hwritten : (name ++ "(\"" ++ key ++ "\")").toList ++
      '\n' :: Text.decodeLossy y.toList =
        (Source.WrittenCall.quoted key.toList hkey hplain.1 hplain.2).line name.toList ++
          Text.decodeLossy y.toList := by
    simp [Source.WrittenCall.line, Source.WrittenCall.argument, Source.WrittenCall.quoted]
  obtain ⟨keysX, hkeysX, hmemX⟩ := @keysOfFiles_singleton name _ _ _ hx
  obtain ⟨keysY, hkeysY, hmemY⟩ := @keysOfFiles_singleton name _ _ _ hy
  obtain ⟨keys, hkeys, hmem⟩ := @keysOfFiles_singleton name _ _ _ hread
  refine ⟨keysX, keysY, hkeysX, hkeysY, hkeys.trans (congrArg Except.ok ?_)⟩
  refine Std.ExtTreeSet.ext_mem fun other => ?_
  have hsame : key = other ↔ other.toList = key.toList := by
    rw [String.toList_inj, eq_comm]
  rw [hmem, keysOfBytes, Text.decodeLossy_around_line x y hline, hwritten,
    Source.mem_keysOf_around_line hname hclosed, Std.ExtTreeSet.mem_union_iff,
    Std.ExtTreeSet.mem_union_iff, hmemX, hmemY, or_assoc]
  refine or_congr_right (or_congr_left ?_)
  rw [Std.ExtTreeSet.singleton_eq_insert, Std.ExtTreeSet.mem_insert, Std.compare_eq_iff_eq, hsame]
  simp [Source.WrittenCall.quoted]

/-- What stands before a line: a call, and bytes of an older encoding, the last of which begin a
    longer sequence of UTF-8. -/
def cutOff : ByteArray :=
  "tr('a') ".toUTF8 ++ ⟨#[0xE9, 0x20, 0xF0, 0x9F]⟩

/-- What stands behind the line: bytes that could go on with the sequence, a call, and a literal that
    is never closed. -/
def goingOn : ByteArray :=
  ⟨#[0x98, 0x80]⟩ ++ "tr('b') tr('cut".toUTF8

/-- Both in files of their own, and with a line between them in a third. -/
def legacyFiles : Workspace where
  tree := ⟨.ofList [
    (["before"], Entry.file cutOff),
    (["behind"], Entry.file goingOn),
    (["whole"], Entry.file
      (cutOff ++ ("\n" ++ ("tr" ++ "(\"" ++ "it's" ++ "\")") ++ "\n").toUTF8 ++ goingOn))], fun _ => none⟩
  current := []

theorem keysOfFiles_legacy : Source.IsClosed "tr" (String.ofList (Text.decodeLossy cutOff.toList)) ∧
    ∃ keysX keysY, keysOfFiles legacyFiles "tr" [⟨"before"⟩] = .ok keysX ∧
      keysOfFiles legacyFiles "tr" [⟨"behind"⟩] = .ok keysY ∧
      keysX.toList = ["a"] ∧ keysY.toList = ["b"] ∧
      keysOfFiles legacyFiles "tr" [⟨"whole"⟩] = .ok (keysX ∪ {"it's"} ∪ keysY) := by
  have hread (name : String) (bytes : ByteArray)
      (hlocate : legacyFiles.locate ⟨name⟩ = .ok [name])
      (hfile : legacyFiles.tree.find? [name] = some (.file bytes)) :
      legacyFiles.readBytes ⟨name⟩ = .ok bytes :=
    Workspace.readBytes_eq_ok.2 ⟨[name], hlocate, hfile⟩
  have hclosed : Source.IsClosed "tr" (String.ofList (Text.decodeLossy cutOff.toList)) := by
    decide +kernel
  have hwhole := hread "whole" _ (by decide +kernel) (by
    show _ = some (Entry.file
      (cutOff ++ ("\n" ++ ("tr" ++ "(\"" ++ "it's" ++ "\")") ++ "\n").toUTF8 ++ goingOn))
    decide +kernel)
  have hbefore := hread "before" cutOff (by decide +kernel) (by decide +kernel)
  have hbehind := hread "behind" goingOn (by decide +kernel) (by decide +kernel)
  obtain ⟨keysX, keysY, hkeysX, hkeysY, hkeys⟩ := keysOfFiles_around_call (by decide +kernel)
    ⟨by decide, by decide⟩ (by decide +kernel) ⟨by decide, by decide⟩ hclosed hwhole hbefore hbehind
  have hsample : (keysOfFiles legacyFiles "tr" [⟨"before"⟩]).toOption.any (·.toList = ["a"]) &&
      (keysOfFiles legacyFiles "tr" [⟨"behind"⟩]).toOption.any (·.toList = ["b"]) := by
    decide +kernel
  simp only [hkeysX, hkeysY, Except.toOption, Option.any_some, Bool.and_eq_true,
    decide_eq_true_eq] at hsample
  exact ⟨hclosed, keysX, keysY, hkeysX, hkeysY, hsample.1, hsample.2, hkeys⟩

end Sync

end LocaleCatalog
