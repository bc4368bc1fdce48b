import Mathlib.Data.List.Basic
import Mathlib.Data.List.Induction

/-!
# Lists without repetitions

`List.eraseDups` lists every item once. Locales are listed so, and the keys of a text.

* `eraseDups_of_nodup`, `eraseDups_filter`: where nothing is repeated nothing is dropped, and
  dropping goes along with leaving items out;
* `eraseDups_concat_of_not_mem`, `eraseDups_concat_of_mem`: one more item goes to the end, unless it
  was listed before;
* `pairwise_idxOf_eraseDups`: each item stands where it first occurs.
-/

namespace LocaleCatalog

/-- A list without repetitions has none to drop. -/
theorem eraseDups_of_nodup {items : List String} (h : items.Nodup) : items.eraseDups = items := by
  induction items with
  | nil => rfl
  | cons item items ih =>
    obtain ⟨hnew, hnodup⟩ := List.nodup_cons.1 h
    have hall : (items.filter fun other => !other == item) = items :=
      List.filter_eq_self.2 fun other hother => by
        simpa using fun heq : other = item => hnew (heq ▸ hother)
    rw [List.eraseDups_cons, hall, ih hnodup]

section Lawful

variable {α : Type} [BEq α] [LawfulBEq α]

/-- Leaving some items out and dropping repetitions may be done in either order. -/
theorem eraseDups_filter (test : α → Bool) (items : List α) :
    (items.filter test).eraseDups = items.eraseDups.filter test := by
  match items with
  | [] => rfl
  | item :: items =>
    have hrest := eraseDups_filter test (items.filter fun other => !other == item)
    rw [List.filter_filter] at hrest
    rw [List.eraseDups_cons]
    cases htest : test item with
    | true =>
      rw [List.filter_cons_of_pos htest, List.filter_cons_of_pos htest, List.eraseDups_cons, ← hrest,
        List.filter_filter]
      simp only [Bool.and_comm]
    | false =>
      have hsame : (items.filter fun other => test other && !other == item) = items.filter test := by
        refine List.filter_congr fun other _ => ?_
        cases heq : other == item with
        | true => simp [eq_of_beq heq, htest]
        | false => simp
      rw [List.filter_cons_of_neg (by simp [htest]), List.filter_cons_of_neg (by simp [htest]),
        ← hrest, hsame]
termination_by items.length
decreasing_by
  exact Nat.lt_succ_of_le (List.length_filter_le _ _)

/-- An item that was not listed before goes to the end. -/
theorem eraseDups_concat_of_not_mem {items : List α} {item : α} (h : item ∉ items) :
    (items ++ [item]).eraseDups = items.eraseDups ++ [item] := by
  have hnew : [item].removeAll items = [item] := by simpa [List.removeAll] using h
  rw [List.eraseDups_append, hnew]
  rfl

/-- An item that was listed before changes nothing. -/
theorem eraseDups_concat_of_mem {items : List α} {item : α} (h : item ∈ items) :
    (items ++ [item]).eraseDups = items.eraseDups := by
  have hold : [item].removeAll items = [] := by simpa [List.removeAll] using h
  rw [List.eraseDups_append, hold]
  simp

/-- Of two items the one that occurs first comes first. -/
theorem pairwise_idxOf_eraseDups (items : List α) :
    items.eraseDups.Pairwise fun first second => items.idxOf first < items.idxOf second := by
  induction items using List.reverseRecOn with
  | nil => simp
  | append_singleton items item ih =>
    have hsame (other : α) (hother : other ∈ items) :
        (items ++ [item]).idxOf other = items.idxOf other := List.idxOf_append_of_mem hother
    have hkept : items.eraseDups.Pairwise fun first second =>
        (items ++ [item]).idxOf first < (items ++ [item]).idxOf second :=
      ih.imp_of_mem fun hfirst hsecond hlt => by
        rwa [hsame _ (List.mem_eraseDups.1 hfirst), hsame _ (List.mem_eraseDups.1 hsecond)]
    by_cases hmem : item ∈ items
    · rwa [eraseDups_concat_of_mem hmem]
    · rw [eraseDups_concat_of_not_mem hmem]
      refine List.pairwise_append.2 ⟨hkept, List.pairwise_singleton _ _, fun other hother => ?_⟩
      have hbefore := List.mem_eraseDups.1 hother
      have hplace : (items ++ [item]).idxOf item = items.length := by
        rw [List.idxOf_append_of_notMem hmem]
        simp
      rw [List.forall_mem_singleton, hsame other hbefore, hplace]
      exact List.idxOf_lt_length_of_mem hbefore

end Lawful

end LocaleCatalog
