import LocaleCatalog.Catalog.Messages
import LocaleCatalog.Proofs.Json.RoundTrip

/-!
# Messages and batches as maps, and their written form

* what is found in a map that was made entry by entry: `getElem?_insertEach` where each key has a
  text of its own, `getElem?_insertAll` where the entries come from another map;
* `Messages.document_write` and `Batch.document_write`: a file that was written reads back as what
  was written;
* `Messages.not_blank_write` and `Batch.not_blank_write`: what was written does not pass for an
  empty file.
-/

namespace LocaleCatalog

/-! ## 1. Maps made entry by entry -/

section Entries

variable {β : Type}

theorem mem_iff_exists_getElem? {map : Std.ExtTreeMap String β} {key : String} :
    key ∈ map ↔ ∃ value, map[key]? = some value := by
  rw [Std.ExtTreeMap.mem_iff_isSome_getElem?, Option.isSome_iff_exists]

/-- Each key is put in with a text of its own. -/
theorem getElem?_insertEach (keys : List String) (f : String → β)
    (start : Std.ExtTreeMap String β) (key : String) :
    ((keys.map fun key => (key, f key)).foldl
        (fun map entry => map.insert entry.1 entry.2) start)[key]? =
      if key ∈ keys then some (f key) else start[key]? := by
  induction keys generalizing start with
  | nil => simp
  | cons first keys ih =>
    rw [List.map_cons, List.foldl_cons, ih, Std.ExtTreeMap.getElem?_insert]
    by_cases hmem : key ∈ keys
    · rw [if_pos hmem, if_pos (List.mem_cons_of_mem _ hmem)]
    · rw [if_neg hmem]
      by_cases heq : first = key
      · subst heq
        rw [if_pos Std.ReflCmp.compare_self, if_pos List.mem_cons_self]
      · rw [if_neg fun h => heq (Std.LawfulEqOrd.eq_of_compare h),
          if_neg fun h => (List.mem_cons.1 h).elim (fun h => heq h.symm) hmem]

/-- The entries of a map that pass a test are put in. -/
theorem getElem?_insertAll (entries start : Std.ExtTreeMap String β) (test : String × β → Bool)
    (key : String) :
    ((entries.toList.filter test).foldl
        (fun map entry => map.insert entry.1 entry.2) start)[key]? =
      (entries[key]?.filter fun value => test (key, value)).or start[key]? := by
  rw [← Std.ExtTreeMap.insertMany_list_eq_foldl]
  have hdistinct : (entries.toList.filter test).Pairwise fun a b => ¬ compare a.1 b.1 = .eq :=
    Std.ExtTreeMap.distinct_keys_toList.filter _
  have hmissing (hnone : ∀ value, (key, value) ∉ entries.toList.filter test) :
      (start.insertMany (entries.toList.filter test))[key]? = start[key]? := by
    refine Std.ExtTreeMap.getElem?_insertMany_list_of_contains_eq_false ?_
    rw [List.contains_eq_mem, decide_eq_false_iff_not, List.mem_map]
    rintro ⟨⟨_, value⟩, hmem, rfl⟩
    exact hnone value hmem
  cases hentry : entries[key]? with
  | none =>
    refine hmissing fun value hmem => ?_
    have hfound := Std.ExtTreeMap.mem_toList_iff_getElem?_eq_some.1 (List.mem_filter.1 hmem).1
    rw [hentry] at hfound
    cases hfound
  | some value =>
    have hmem := Std.ExtTreeMap.mem_toList_iff_getElem?_eq_some.2 hentry
    by_cases htest : test (key, value) = true
    · rw [Option.filter_some, if_pos htest]
      exact Std.ExtTreeMap.getElem?_insertMany_list_of_mem Std.ReflCmp.compare_self hdistinct
        (List.mem_filter.2 ⟨hmem, htest⟩)
    · rw [Option.filter_some, if_neg htest]
      refine hmissing fun other hother => htest ?_
      obtain ⟨hin, hpass⟩ := List.mem_filter.1 hother
      have hfound := Std.ExtTreeMap.mem_toList_iff_getElem?_eq_some.1 hin
      rw [hentry] at hfound
      cases hfound
      exact hpass

/-- The entries of a map stand in the order of their keys. -/
theorem ordered_toList (map : Std.ExtTreeMap String β) :
    (map.toList.map (·.1)).Pairwise (· < ·) := by
  rw [Std.ExtTreeMap.map_fst_toList_eq_keys]
  refine Std.ExtTreeMap.ordered_keys.imp fun hless => ?_
  exact compareOfLessAndEq_eq_lt.1 hless

/-- A map is made again from its own entries. -/
theorem insertAll_toList (entries : Std.ExtTreeMap String β) :
    entries.toList.foldl (fun map entry => map.insert entry.1 entry.2) ∅ = entries := by
  refine Std.ExtTreeMap.ext_getElem? fun key => ?_
  have hall : entries.toList = entries.toList.filter fun _ => true :=
    (List.filter_eq_self.2 fun _ _ => rfl).symm
  rw [hall, getElem?_insertAll]
  cases entries[key]? <;> simp

end Entries

namespace Messages

theorem getElem?_ofEntries (keys : List String) (f : String → String) (key : String) :
    (ofEntries (keys.map fun key => (key, f key)))[key]? =
      if key ∈ keys then some (f key) else none := by
  unfold ofEntries
  rw [getElem?_insertEach]
  simp

theorem ofEntries_toList (messages : Messages) : ofEntries messages.toList = messages :=
  insertAll_toList messages

theorem mem_blankKeys {messages : Messages} {key : String} :
    key ∈ messages.blankKeys ↔ ∃ text, messages[key]? = some text ∧ Text.Blank text := by
  unfold blankKeys
  simp only [List.mem_map, List.mem_filter, decide_eq_true_eq]
  constructor
  · rintro ⟨⟨_, text⟩, ⟨hmem, hblank⟩, rfl⟩
    exact ⟨text, Std.ExtTreeMap.mem_toList_iff_getElem?_eq_some.1 hmem, hblank⟩
  · rintro ⟨text, hfound, hblank⟩
    exact ⟨(key, text), ⟨Std.ExtTreeMap.mem_toList_iff_getElem?_eq_some.2 hfound, hblank⟩, rfl⟩

end Messages

namespace Batch

theorem getElem?_ofEntries (locales : List String) (f : String → Messages) (locale : String) :
    (ofEntries (locales.map fun locale => (locale, f locale)))[locale]? =
      if locale ∈ locales then some (f locale) else none := by
  unfold ofEntries
  rw [getElem?_insertEach]
  simp

theorem ofEntries_toList (batch : Batch) : ofEntries batch.toList = batch :=
  insertAll_toList batch

end Batch

/-! ## 2. Written form -/

open Json (Reads isSpace)

/-- The members of the object that messages are written as. -/
theorem Messages.reads_members {blanks : List Char} (hblanks : ∀ b ∈ blanks, isSpace b = true)
    (level : Nat) (messages : Messages) (rest : List Char) :
    Reads (Json.object Json.text) (blanks ++ (messages.writeAt level ++ rest))
      messages.toList rest :=
  Json.reads_object (Json.reads_text Json.isSpace_space) hblanks level messages.toList rest

theorem Messages.reads_writeAt {blanks : List Char} (hblanks : ∀ b ∈ blanks, isSpace b = true)
    (level : Nat) (messages : Messages) (rest : List Char) :
    Reads Messages.reader (blanks ++ (messages.writeAt level ++ rest)) messages rest := by
  have hobject := (Messages.reads_members hblanks level messages rest).map Messages.ofEntries
  rw [Messages.ofEntries_toList] at hobject
  exact hobject

theorem Batch.reads_writeChars (batch : Batch) (rest : List Char) :
    Reads Batch.reader (batch.writeChars ++ rest) batch rest := by
  have hmessages (messages : Messages) (rest : List Char) :
      Reads Messages.reader (' ' :: (messages.writeAt 1 ++ rest)) messages rest :=
    Messages.reads_writeAt Json.isSpace_space 1 messages rest
  have hobject := (Json.reads_object hmessages (List.forall_mem_nil _) 0 batch.toList rest).map
    Batch.ofEntries
  rw [Batch.ofEntries_toList] at hobject
  exact hobject

/-- The members of the objects of a batch, in order. -/
def Batch.members (batch : Batch) : List (String × List (String × String)) :=
  batch.toList.map fun entry => (entry.1, entry.2.toList)

/-- The members of the objects that a batch is written as. -/
theorem Batch.reads_members (batch : Batch) (rest : List Char) :
    Reads (Json.object (Json.object Json.text)) (batch.writeChars ++ rest) batch.members rest := by
  have hinner (inner : List (String × String)) (rest : List Char) :
      Reads (Json.object Json.text) (' ' :: (Json.writeObject 1
        (inner.map fun entry => (entry.1, Json.writeText entry.2)) ++ rest)) inner rest :=
    Json.reads_object (Json.reads_text Json.isSpace_space) Json.isSpace_space 1 inner rest
  have hobject := Json.reads_object hinner (List.forall_mem_nil _) 0 batch.members rest
  unfold members at hobject
  rw [List.map_map] at hobject
  exact hobject

/-- What was written lists the entries in their order. -/
theorem Messages.document_members (messages : Messages) :
    Json.document (Json.object Json.text) messages.write = .ok messages.toList := by
  refine Json.document_of_reads ?_ (Json.isSpace_newline 0)
  unfold write
  rw [String.toList_ofList]
  exact reads_members (List.forall_mem_nil _) 0 messages ['\n']

theorem Batch.document_members (batch : Batch) :
    Json.document (Json.object (Json.object Json.text)) batch.write = .ok batch.members := by
  refine Json.document_of_reads ?_ (Json.isSpace_newline 0)
  unfold write
  rw [String.toList_ofList]
  exact batch.reads_members ['\n']

/-- What was written as messages reads back as these messages. -/
theorem Messages.document_write (messages : Messages) :
    Json.document Messages.reader messages.write = .ok messages := by
  refine Json.document_of_reads ?_ (Json.isSpace_newline 0)
  unfold write
  rw [String.toList_ofList]
  exact reads_writeAt (List.forall_mem_nil _) 0 messages ['\n']

/-- What was written as a batch reads back as this batch. -/
theorem Batch.document_write (batch : Batch) :
    Json.document Batch.reader batch.write = .ok batch := by
  refine Json.document_of_reads ?_ (Json.isSpace_newline 0)
  unfold write
  rw [String.toList_ofList]
  exact batch.reads_writeChars ['\n']

theorem not_blank_writeObject (level : Nat) (members : List (String × List Char)) :
    ¬ Text.Blank (String.ofList (Json.writeObject level members ++ ['\n'])) := by
  intro h
  refine absurd (h '{' ?_) (by decide)
  unfold Json.writeObject Json.writeBetween
  rw [String.toList_ofList]
  split <;> simp

theorem Messages.not_blank_write (messages : Messages) : ¬ Text.Blank messages.write :=
  not_blank_writeObject _ _

theorem Batch.not_blank_write (batch : Batch) : ¬ Text.Blank batch.write :=
  not_blank_writeObject _ _

end LocaleCatalog
