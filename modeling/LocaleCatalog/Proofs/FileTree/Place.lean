import LocaleCatalog.FileTree.Access

/-!
# The place of a path that never goes up

A path without `..` names one place, whatever stands in the tree (`Path.placeFrom`): its steps,
seen from the root or from the current directory. The tree decides only whether the place can be
reached.

* `Path.spelling_spec`: a path is spelled from its steps, with a start that holds none;
* `Path.steps_of_mem_ancestors`: the steps of an ancestor are the first steps of the path;
* `Path.placeFrom_of_mem_ancestors`, `Path.placeFrom_ne_of_mem_ancestors`: the ancestors of a path
  lie on the way to its place, and before it;
* `Path.segments_of_mem_ancestors`: the pieces of an ancestor are the first pieces of the path.
-/

namespace LocaleCatalog

/-! ## 1. Steps and places -/

namespace Path

/-- The pieces of a path that lead anywhere. -/
def steps (path : Path) : List String :=
  path.segments.filter fun segment => !isSilent segment

/-- The path never goes up. -/
def IsPlain (path : Path) : Prop :=
  Component.up ∉ path.components

instance (path : Path) : Decidable path.IsPlain :=
  inferInstanceAs (Decidable (Component.up ∉ path.components))

/-- The place that a plain path names, seen from a directory. -/
def placeFrom (current : Location) (path : Path) : Location :=
  (if path.isAbsolute then [] else current) ++ path.steps

theorem component?_eq_up_iff {segment : String} : component? segment = some .up ↔ segment = ".." := by
  unfold component?
  split
  · rename_i h
    constructor
    · intro h'
      cases h'
    · rintro rfl
      revert h
      decide
  · split <;> simp_all

theorem isPlain_iff {path : Path} : path.IsPlain ↔ ".." ∉ path.steps := by
  have hup : Component.up ∈ path.segments.filterMap component? ↔ ".." ∈ path.segments := by
    simp only [List.mem_filterMap, component?_eq_up_iff, exists_eq_right]
  have hsteps : ".." ∈ path.steps ↔ ".." ∈ path.segments := by
    simp only [steps, List.mem_filter, and_iff_left_iff_imp]
    intro _
    decide
  rw [IsPlain, hsteps, ← hup, components]
  split
  · simp
  · split <;> simp

theorem not_mem_segments_of_isPlain {path : Path} (h : path.IsPlain) : ".." ∉ path.segments := by
  intro hmem
  rw [isPlain_iff, steps, List.mem_filter] at h
  exact h ⟨hmem, by decide⟩

/-! ## 2. Spelling -/

theorem pieces_eq_splitOn (cs : List Char) : pieces cs = cs.splitOn '/' := by
  induction cs with
  | nil => rfl
  | cons c cs ih =>
    rw [pieces, ih, List.splitOn_cons_eq_if_modifyHead]
    by_cases h : c = '/'
    · simp [h]
    · cases hsplit : cs.splitOn '/' with
      | nil => exact absurd hsplit (List.splitOn_ne_nil _ _)
      | cons piece more => simp [h]

theorem pieces_ne_nil (cs : List Char) : pieces cs ≠ [] := by
  rw [pieces_eq_splitOn]
  exact List.splitOn_ne_nil _ _

/-- No piece holds a slash. -/
theorem not_mem_of_mem_pieces {cs piece : List Char} (h : piece ∈ pieces cs) : '/' ∉ piece := by
  induction cs generalizing piece with
  | nil => simp_all [pieces]
  | cons c cs ih =>
    unfold pieces at h
    split at h
    · rcases List.mem_cons.1 h with rfl | h
      · simp
      · exact ih h
    · rename_i hc
      split at h
      · rename_i head more heq
        rw [heq] at ih
        rcases List.mem_cons.1 h with rfl | h
        · simp [ih List.mem_cons_self, Ne.symm hc]
        · exact ih (List.mem_cons_of_mem _ h)
      · simp_all [Ne.symm hc]

/-- A start without a slash becomes part of the first piece. -/
theorem pieces_append {start : List Char} (h : '/' ∉ start) (cs : List Char) :
    pieces (start ++ cs) = (pieces cs).modifyHead (start ++ ·) := by
  induction start with
  | nil =>
    rw [List.nil_append]
    cases pieces cs <;> rfl
  | cons c start ih =>
    rw [List.mem_cons, not_or] at h
    rw [List.cons_append, pieces, if_neg (Ne.symm h.1), ih h.2]
    cases hp : pieces cs with
    | nil => exact absurd hp (pieces_ne_nil cs)
    | cons piece more => simp

theorem pieces_intercalate {segments : List String} (hne : segments ≠ [])
    (h : ∀ s ∈ segments, '/' ∉ s.toList) :
    pieces ("/".intercalate segments).toList = segments.map String.toList := by
  rw [pieces_eq_splitOn, String.toList_intercalate]
  refine List.splitOn_intercalate '/' ?_ (by simpa using hne)
  intro l hl
  obtain ⟨s, hs, rfl⟩ := List.mem_map.1 hl
  exact h s hs

theorem segments_ofSpelling_root {segments : List String} (h : ∀ s ∈ segments, '/' ∉ s.toList) :
    (ofSpelling "/" segments).segments = "" :: if segments = [] then [""] else segments := by
  have htext : (ofSpelling "/" segments).text.toList = '/' :: ("/".intercalate segments).toList := by
    simp [ofSpelling]
  rw [Path.segments, htext, pieces, if_pos rfl]
  by_cases hne : segments = []
  · subst hne
    rfl
  · rw [pieces_intercalate hne h]
    simp [hne]

theorem segments_ofSpelling_of_not_mem {start : String} {segments : List String}
    (hstart : '/' ∉ start.toList) (h : ∀ s ∈ segments, '/' ∉ s.toList) :
    (ofSpelling start segments).segments =
      (if segments = [] then [""] else segments).modifyHead (start ++ ·) := by
  have htext : (ofSpelling start segments).text.toList =
      start.toList ++ ("/".intercalate segments).toList := by
    simp [ofSpelling]
  rw [Path.segments, htext, pieces_append hstart]
  cases segments with
  | nil => simp [pieces]
  | cons s more =>
    rw [pieces_intercalate (List.cons_ne_nil _ _) h]
    simp [Function.comp_def]

/-- Which pieces may stand behind the start of a spelling. -/
inductive Fits : String → List String → Prop where
  | root (segments : List String) : Fits "/" segments
  | dot : Fits "." []
  | dotSlash (segments : List String) : Fits "." ("" :: segments)
  | empty : Fits "" [""]
  | name (segments : List String) : segments.head? ≠ some "" → Fits "" segments

theorem Fits.take {start : String} {segments fewer : List String} (h : Fits start segments)
    (hpre : fewer <+: segments) : Fits start fewer := by
  obtain ⟨more, rfl⟩ := hpre
  cases fewer with
  | nil =>
    cases h with
    | root => exact .root _
    | dot => exact .dot
    | dotSlash => exact .dot
    | empty => exact .name _ nofun
    | name => exact .name _ nofun
  | cons s fewer =>
    generalize hall : s :: fewer ++ more = all at h
    cases h with
    | root => exact .root _
    | dot => cases hall
    | dotSlash =>
      obtain ⟨rfl, -⟩ := List.cons.inj hall
      exact .dotSlash _
    | empty =>
      obtain ⟨rfl, htail⟩ := List.cons.inj hall
      obtain ⟨rfl, -⟩ := List.append_eq_nil_iff.1 htail
      exact .empty
    | name _ hne =>
      subst hall
      exact .name _ (by simpa using hne)

/-- A path that is spelled out keeps its steps. -/
theorem steps_ofSpelling {start : String} {segments : List String} (hfits : Fits start segments)
    (h : ∀ s ∈ segments, '/' ∉ s.toList) :
    (ofSpelling start segments).steps = segments.filter fun segment => !isSilent segment := by
  unfold steps
  cases hfits with
  | root =>
    rw [segments_ofSpelling_root h]
    cases segments <;> simp [isSilent]
  | dot => decide
  | dotSlash rest =>
    rw [segments_ofSpelling_of_not_mem (by decide) h]
    simp [isSilent]
  | empty => decide
  | name =>
    rw [segments_ofSpelling_of_not_mem (by decide) h]
    cases segments <;> simp [isSilent]

theorem isAbsolute_ofSpelling {start : String} {segments : List String}
    (hfits : Fits start segments) (h : ∀ s ∈ segments, '/' ∉ s.toList) :
    (ofSpelling start segments).isAbsolute = decide (start = "/") := by
  have htext : (ofSpelling start segments).text.toList =
      start.toList ++ ("/".intercalate segments).toList := by
    simp [ofSpelling]
  rw [isAbsolute, htext]
  cases hfits with
  | root => simp
  | dot => decide
  | dotSlash => simp
  | empty => decide
  | name _ hne =>
    cases segments with
    | nil => decide
    | cons s more =>
      have hs : s ≠ "" := by simpa using hne
      cases hcs : s.toList with
      | nil => exact absurd (String.toList_eq_nil_iff.1 hcs) hs
      | cons c cs =>
        have hc : c ≠ '/' := by
          rintro rfl
          exact h s List.mem_cons_self (by simp [hcs])
        cases more <;>
          simp [String.toList_intercalate, hcs, hc]

theorem spelling_of_not_isAbsolute {path : Path} (h : path.isAbsolute = false) :
    (path.segments = "." :: path.segments.drop 1 ∧
      path.spelling = (".", if path.segments.drop 1 = [] then [] else "" :: path.segments.drop 1)) ∨
    (path.segments.head? ≠ some "." ∧ path.spelling = ("", path.segments)) := by
  unfold spelling
  rw [if_neg (by simp [h])]
  split
  · rename_i rest heq
    left
    simp [heq]
  · rename_i hne
    right
    refine ⟨fun hhead => ?_, rfl⟩
    cases hs : path.segments with
    | nil => simp [hs] at hhead
    | cons s rest =>
      rw [hs] at hhead
      exact hne rest (by simp_all)

/-- The parts of a spelling fit, and lead where the path leads. -/
theorem spelling_spec (path : Path) :
    Fits path.spelling.1 path.spelling.2 ∧
      path.spelling.2.filter (fun segment => !isSilent segment) = path.steps ∧
      (∀ s ∈ path.spelling.2, '/' ∉ s.toList) ∧
      path.isAbsolute = decide (path.spelling.1 = "/") := by
  have hslash : ∀ s ∈ path.segments, '/' ∉ s.toList := by
    intro s hs
    obtain ⟨piece, hpiece, rfl⟩ := List.mem_map.1 hs
    simpa using not_mem_of_mem_pieces hpiece
  cases habs : path.isAbsolute with
  | true =>
    have hspell : path.spelling = ("/", path.segments.drop 1) := by
      unfold spelling
      rw [if_pos habs]
    obtain ⟨cs, hcs⟩ : ∃ cs, path.text.toList = '/' :: cs := by
      simpa [isAbsolute, List.head?_eq_some_iff] using habs
    have hsegs : path.segments = "" :: path.segments.drop 1 := by
      simp [segments, hcs, pieces]
    rw [hspell]
    refine ⟨.root _, ?_, fun s hs => hslash s (List.mem_of_mem_drop hs), rfl⟩
    rw [steps, hsegs]
    simp [isSilent]
  | false =>
    rcases spelling_of_not_isAbsolute habs with ⟨hsegs, hspell⟩ | ⟨hhead, hspell⟩
    · rw [hspell]
      have hsteps : path.steps = (path.segments.drop 1).filter fun s => !isSilent s := by
        rw [steps, hsegs]
        simp [isSilent]
      by_cases hrest : path.segments.drop 1 = []
      · refine ⟨?_, ?_, ?_, rfl⟩
        · simpa [hrest] using Fits.dot
        · simp [hsteps, hrest]
        · simp [hrest]
      · rw [if_neg hrest]
        refine ⟨.dotSlash _, ?_, ?_, rfl⟩
        · simp [hsteps, isSilent]
        · intro s hs
          rcases List.mem_cons.1 hs with rfl | hs
          · simp
          · exact hslash s (List.mem_of_mem_drop hs)
    · rw [hspell]
      refine ⟨?_, rfl, hslash, rfl⟩
      cases htext : path.text.toList with
      | nil => simpa [segments, htext, pieces] using Fits.empty
      | cons c cs =>
        have hc : c ≠ '/' := by simpa [isAbsolute, htext] using habs
        refine .name _ ?_
        cases hp : pieces cs <;> simp [segments, htext, pieces, hc, hp]

/-! ## 3. Ancestors -/

/-- What is dropped at a front, and where the dropping stops. -/
theorem exists_of_dropWhile_eq_cons {α : Type} {p : α → Bool} {l rest : List α} {a : α}
    (h : l.dropWhile p = a :: rest) :
    ∃ dropped, l = dropped ++ a :: rest ∧ (∀ b ∈ dropped, p b = true) ∧ p a = false := by
  refine ⟨l.takeWhile p, ?_, fun b hb => List.all_eq_true.1 List.all_takeWhile b hb, ?_⟩
  · rw [← h, List.takeWhile_append_dropWhile]
  · have := List.head?_dropWhile_not p l
    simpa [h] using this

/-- Without its last piece that leads anywhere, a spelling is the first part of what it was. -/
theorem reverse_eq_of_dropWhile {backwards rest : List String} {last : String}
    (h : backwards.dropWhile isSilent = last :: rest) :
    isSilent last = false ∧ ∃ lost, last ∈ lost ∧
      backwards.reverse = (rest.dropWhile isSilent).reverse ++ lost := by
  obtain ⟨dropped, hback, -, hlast⟩ := exists_of_dropWhile_eq_cons h
  obtain ⟨silent, hrest⟩ := List.dropWhile_suffix isSilent (l := rest)
  have hrest' : rest.reverse = (rest.dropWhile isSilent).reverse ++ silent.reverse := by
    rw [← List.reverse_append, hrest]
  refine ⟨hlast, silent.reverse ++ last :: dropped.reverse, by simp, ?_⟩
  rw [hback]
  simp [hrest']

/-- An ancestor keeps the start and loses a step at the end; only the empty path, above a lone dot,
    is spelled otherwise. -/
theorem mem_ancestorsOf {start : String} {backwards : List String} {path : Path}
    (h : path ∈ ancestorsOf start backwards) :
    (start = "." ∧ path = ⟨""⟩) ∨
      ∃ above below, backwards.reverse = above ++ below ∧ (∃ s ∈ below, isSilent s = false) ∧
        (∀ s, above.getLast? = some s → isSilent s = false) ∧ path = ofSpelling start above := by
  fun_induction ancestorsOf start backwards with
  | case1 backwards hnil hdot => exact .inl ⟨hdot, List.mem_singleton.1 h⟩
  | case2 => cases h
  | case3 backwards last rest hcons hlt ih =>
    obtain ⟨hlast, lost, hmem, hrev⟩ := reverse_eq_of_dropWhile hcons
    rcases List.mem_cons.1 h with rfl | h
    · refine .inr ⟨_, _, hrev, ⟨last, hmem, hlast⟩, fun s hs => ?_, rfl⟩
      rw [List.getLast?_reverse] at hs
      have := List.head?_dropWhile_not isSilent rest
      simpa [hs] using this
    · rcases ih h with hdot | ⟨above, below, habove, ⟨s, hs, hsolid⟩, hname, rfl⟩
      · exact .inl hdot
      · refine .inr ⟨above, below ++ lost, ?_, ⟨s, by simp [hs], hsolid⟩, hname, rfl⟩
        rw [hrev, habove, List.append_assoc]

/-- An ancestor of a path has fewer steps than the path, and starts where the path starts. The empty
    path is the exception: it may stand above a path without steps. -/
theorem steps_of_mem_ancestors {above path : Path} (h : above ∈ path.ancestors) :
    above.isAbsolute = path.isAbsolute ∧ above.steps <+: path.steps ∧
      (above.text = "" ∨ above.steps ≠ path.steps) := by
  obtain ⟨hfits, hsteps, hslash, habs⟩ := path.spelling_spec
  rcases mem_ancestorsOf h with ⟨hdot, rfl⟩ | ⟨kept, lost, hrev, ⟨s, hs, hsolid⟩, -, rfl⟩
  · rw [habs, hdot]
    exact ⟨by decide, by simp [show (⟨""⟩ : Path).steps = [] by decide], .inl rfl⟩
  · rw [List.reverse_reverse] at hrev
    have hpre : kept <+: path.spelling.2 := ⟨lost, hrev.symm⟩
    have hslash' : ∀ s ∈ kept, '/' ∉ s.toList := fun s hs => hslash s (hpre.subset hs)
    rw [isAbsolute_ofSpelling (hfits.take hpre) hslash', habs,
      steps_ofSpelling (hfits.take hpre) hslash', ← hsteps, hrev, List.filter_append]
    refine ⟨rfl, List.prefix_append _ _, .inr fun heq => ?_⟩
    have hmem : s ∈ lost.filter fun segment => !isSilent segment :=
      List.mem_filter.2 ⟨hs, by simp [hsolid]⟩
    rw [List.self_eq_append_right] at heq
    rw [heq] at hmem
    cases hmem

theorem isPlain_of_mem_ancestors {above path : Path} (h : above ∈ path.ancestors)
    (hplain : path.IsPlain) : above.IsPlain := by
  rw [isPlain_iff] at hplain ⊢
  exact fun hmem => hplain ((steps_of_mem_ancestors h).2.1.subset hmem)

theorem placeFrom_of_mem_ancestors {above path : Path} (h : above ∈ path.ancestors)
    (current : Location) : above.placeFrom current <+: path.placeFrom current := by
  obtain ⟨habs, hsteps, -⟩ := steps_of_mem_ancestors h
  rw [placeFrom, placeFrom, habs]
  exact (List.prefix_append_right_inj _).2 hsteps

theorem placeFrom_ne_of_mem_ancestors {above path : Path} (h : above ∈ path.ancestors)
    (hne : above.text ≠ "") (current : Location) :
    above.placeFrom current ≠ path.placeFrom current := by
  obtain ⟨habs, -, hlost⟩ := steps_of_mem_ancestors h
  rw [placeFrom, placeFrom, habs]
  exact fun heq => hlost.elim hne fun hsteps => hsteps (List.append_cancel_left heq)

/-- The directory that a file lies in, and those above it, lie on the way to the file, and before
    it. -/
theorem placeFrom_of_mem_parents {above parent path : Path} (hparent : parent ∈ path.ancestors)
    (hne : parent.text ≠ "") (h : above ∈ parent :: parent.ancestors) (current : Location) :
    above.placeFrom current <+: path.placeFrom current ∧
      above.placeFrom current ≠ path.placeFrom current := by
  have hon := placeFrom_of_mem_ancestors hparent current
  have hlower := placeFrom_ne_of_mem_ancestors hparent hne current
  rcases List.mem_cons.1 h with rfl | h
  · exact ⟨hon, hlower⟩
  · have hon' := placeFrom_of_mem_ancestors h current
    exact ⟨hon'.trans hon, fun heq => hlower (hon.eq_of_length_le (heq ▸ hon'.length_le))⟩

theorem isPlain_of_mem_parents {above parent path : Path} (hparent : parent ∈ path.ancestors)
    (h : above ∈ parent :: parent.ancestors) (hplain : path.IsPlain) : above.IsPlain := by
  have hplain' := isPlain_of_mem_ancestors hparent hplain
  rcases List.mem_cons.1 h with rfl | h
  · exact hplain'
  · exact isPlain_of_mem_ancestors h hplain'

/-! ## 4. The spelling of an ancestor -/

/-- The pieces of an ancestor are the first pieces of the path; only the root and the empty path are
    spelled otherwise. -/
theorem segments_of_mem_ancestors {above path : Path} (h : above ∈ path.ancestors) :
    above.text = "" ∨ above = ⟨"/"⟩ ∨ ∃ rest, rest ≠ [] ∧ path.segments = above.segments ++ rest := by
  obtain ⟨-, -, hslash, -⟩ := path.spelling_spec
  rcases mem_ancestorsOf h with ⟨-, rfl⟩ | ⟨kept, lost, hrev, ⟨s, hs, -⟩, -, rfl⟩
  · exact .inl rfl
  rw [List.reverse_reverse] at hrev
  have hlost : lost ≠ [] := List.ne_nil_of_mem hs
  have hkept : ∀ s ∈ kept, '/' ∉ s.toList :=
    fun s hs => hslash s (hrev ▸ List.mem_append_left lost hs)
  cases habs : path.isAbsolute with
  | true =>
    have hspell : path.spelling = ("/", path.segments.drop 1) := by
      unfold spelling
      rw [if_pos habs]
    obtain ⟨cs, hcs⟩ : ∃ cs, path.text.toList = '/' :: cs := by
      simpa [isAbsolute, List.head?_eq_some_iff] using habs
    have hsegs : path.segments = "" :: path.segments.drop 1 := by
      simp [segments, hcs, pieces]
    rw [hspell] at hrev ⊢
    dsimp only at hrev ⊢
    cases kept with
    | nil => exact .inr (.inl (by simp [ofSpelling]))
    | cons s kept =>
      refine .inr (.inr ⟨lost, hlost, ?_⟩)
      rw [segments_ofSpelling_root hkept, if_neg (List.cons_ne_nil _ _), hsegs, hrev]
      rfl
  | false =>
    rcases spelling_of_not_isAbsolute habs with ⟨hsegs, hspell⟩ | ⟨-, hspell⟩
    · rw [hspell] at hrev ⊢
      dsimp only at hrev ⊢
      refine .inr (.inr ?_)
      rw [segments_ofSpelling_of_not_mem (by decide) hkept]
      split at hrev
      · exact absurd (List.append_eq_nil_iff.1 hrev.symm).2 hlost
      · rename_i hrest
        cases kept with
        | nil => exact ⟨path.segments.drop 1, hrest, hsegs⟩
        | cons s kept =>
          obtain ⟨rfl, hdrop⟩ := List.cons.inj hrev
          refine ⟨lost, hlost, ?_⟩
          rw [hsegs, hdrop]
          rfl
    · rw [hspell] at hrev ⊢
      dsimp only at hrev ⊢
      cases kept with
      | nil => exact .inl (by simp [ofSpelling])
      | cons s kept =>
        refine .inr (.inr ⟨lost, hlost, ?_⟩)
        rw [segments_ofSpelling_of_not_mem (by decide) hkept, hrev]
        simp

theorem text_eq_intercalate (path : Path) : path.text = "/".intercalate path.segments := by
  apply String.toList_injective
  rw [String.toList_intercalate, segments, pieces_eq_splitOn]
  simp [Function.comp_def, List.intercalate_splitOn]

/-- What is joined of the first lists is the start of what is joined of all. -/
theorem intercalate_prefix {α : Type} (separator : List α) (first more : List (List α)) :
    separator.intercalate first <+: separator.intercalate (first ++ more) := by
  induction first with
  | nil => exact List.nil_prefix
  | cons a first ih =>
    cases first with
    | nil =>
      cases more with
      | nil => exact List.prefix_refl _
      | cons b more =>
        rw [List.cons_append, List.nil_append, List.intercalate_cons_cons, List.intercalate_singleton,
          List.append_assoc]
        exact List.prefix_append _ _
    | cons b first =>
      rw [List.cons_append, List.cons_append, List.intercalate_cons_cons,
        List.intercalate_cons_cons]
      exact (List.prefix_append_right_inj _).2 ih

/-- A path whose pieces are the first pieces of another is spelled as the start of the other. -/
theorem text_prefix_of_segments {above path : Path} {rest : List String}
    (h : path.segments = above.segments ++ rest) : above.text.toList <+: path.text.toList := by
  rw [text_eq_intercalate path, text_eq_intercalate above, h]
  simp only [String.toList_intercalate, List.map_append]
  exact intercalate_prefix _ _ _

end Path

end LocaleCatalog
