import Std.Data.ExtTreeMap
import Std.Data.ExtTreeSet
import LocaleCatalog.Json.Structure
import LocaleCatalog.Json.Writer
import LocaleCatalog.Text.Blank

/-!
# Messages, batches and key sets

* `Messages` maps the keys of one locale to their texts, `Batch` maps locales to the messages that
  are still to be translated, and a `KeySet` is the set of keys that the sources use. All three are
  ordered by code point, and two of them with the same contents are equal;
* each of the first two has one written form, with sorted keys (`Messages.write`, `Batch.write`),
  and one reader. Where a text names a key twice, the last value counts.
-/

namespace LocaleCatalog

/-! ## 1. Types -/

/-- Texts by key. -/
abbrev Messages : Type := Std.ExtTreeMap String String

/-- Messages by locale. -/
abbrev Batch : Type := Std.ExtTreeMap String Messages

/-- The keys that the sources use. -/
abbrev KeySet : Type := Std.ExtTreeSet String

/-- The text of a key, or the empty text where there is none. -/
def Messages.textOf (messages : Messages) (key : String) : String :=
  messages[key]?.getD ""

/-- The keys whose text is blank, in their order. -/
def Messages.blankKeys (messages : Messages) : List String :=
  (messages.toList.filter fun entry => Text.Blank entry.2).map (·.1)

/-- The number of entries, over all locales. -/
def Batch.entryCount (batch : Batch) : Nat :=
  batch.foldl (fun count _ entries => count + entries.size) 0

/-! ## 2. Written form -/

/-- Messages as a JSON object at a level of nesting. -/
def Messages.writeAt (level : Nat) (messages : Messages) : List Char :=
  Json.writeObject level (messages.toList.map fun entry => (entry.1, Json.writeText entry.2))

/-- A batch as a JSON object of objects. -/
def Batch.writeChars (batch : Batch) : List Char :=
  Json.writeObject 0 (batch.toList.map fun entry => (entry.1, entry.2.writeAt 1))

/-- The contents of a store file. -/
def Messages.write (messages : Messages) : String :=
  String.ofList (messages.writeAt 0 ++ ['\n'])

/-- The contents of a batch file. -/
def Batch.write (batch : Batch) : String :=
  String.ofList (batch.writeChars ++ ['\n'])

/-! ## 3. Reading -/

/-- Messages in the order of a text; a later entry replaces an earlier one. -/
def Messages.ofEntries (entries : List (String × String)) : Messages :=
  entries.foldl (fun messages entry => messages.insert entry.1 entry.2) ∅

/-- A batch in the order of a text; a later locale replaces an earlier one as a whole. -/
def Batch.ofEntries (entries : List (String × Messages)) : Batch :=
  entries.foldl (fun batch entry => batch.insert entry.1 entry.2) ∅

/-- Reads an object of texts. -/
def Messages.reader : Json.Reader Messages := fun input =>
  (Json.object Json.text input).map (·.map Messages.ofEntries)

/-- Reads an object of objects of texts. -/
def Batch.reader : Json.Reader Batch := fun input =>
  (Json.object Messages.reader input).map (·.map Batch.ofEntries)

end LocaleCatalog
