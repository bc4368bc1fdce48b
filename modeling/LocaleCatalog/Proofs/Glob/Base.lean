import LocaleCatalog.Proofs.Glob.Expand

/-!
# Patterns behind a base

A pattern is put behind the base, and both are read as one pattern. If the base is spelled by plain
names without wildcards (`Glob.Tidy`), its components lead to the base itself
(`Glob.Tidy.expandFrom_append`), and the others go on from there. So the pattern names the
directories that it names in the tree by itself, moved (`Glob.directories_under`).

A base that starts with a dot or has a wildcard in it is not tidy: the paths that are found below it
are spelled without the dot, or lie below another directory.
-/

namespace LocaleCatalog.Glob

variable {workspace : Workspace} {path base own : Path} {names : List String} {name : String}

/-! ## 1. Bases without wildcards -/

/-- A path that is spelled by plain names, from the root or from the current directory on. Read as
    a pattern, it has no wildcards. -/
inductive Tidy : Path → List String → Prop where
  | root : Tidy ⟨"/"⟩ []
  | start {name : String} (hname : Path.IsName name) (hbare : IsBare name.toList) :
      Tidy ⟨name⟩ [name]
  | div {path : Path} {names : List String} {name : String} (hpath : Tidy path names)
      (hname : Path.IsName name) (hbare : IsBare name.toList) : Tidy (path / name) (names ++ [name])

namespace Tidy

theorem ne (h : Tidy path names) : path.text ≠ "" := by
  have hjoin {path : Path} {name : String} (hname : Path.IsName name) (hne : path.text ≠ "") :
      (path / name).text ≠ "" := by
    intro heq
    have htext := @Path.toList_join path ⟨name⟩ hne hname.isAbsolute
    rw [show (path.join ⟨name⟩).text = "" from heq] at htext
    simp at htext
  induction h with
  | root => decide
  | start hname _ => exact fun heq => hname.ne_nil (String.toList_eq_nil_iff.2 heq)
  | div _ hname _ ih => exact hjoin hname ih

theorem isAbsolute_div (h : Tidy path names) (hname : Path.IsName name) :
    (path / name).isAbsolute = path.isAbsolute := by
  rw [Path.isAbsolute_eq_front h.ne]
  exact Path.isAbsolute_eq (Path.toList_join h.ne hname.isAbsolute)

theorem front_div (h : Tidy path names) (hname : Path.IsName name) :
    (path / name).front = path.front ++ '/' :: name.toList := by
  have htext : (path / name).text.toList = path.front ++ '/' :: name.toList :=
    Path.toList_join h.ne hname.isAbsolute
  rw [← htext]
  exact Path.front_of_append (path.front ++ ['/']) hname (by simp [htext])

/-- A tidy path is the root or ends with a name. -/
theorem eq_root_or (h : Tidy path names) : path = ⟨"/"⟩ ∨ path.front = path.text.toList := by
  cases h with
  | root => exact .inl rfl
  | start hname _ => exact .inr (Path.front_of_append [] hname rfl)
  | @div path names name hpath hname _ =>
    refine .inr (Path.front_of_append (path.front ++ ['/']) hname ?_)
    rw [List.append_assoc]
    exact Path.toList_join hpath.ne hname.isAbsolute

/-- The names are the pieces of the path, behind an empty one if it starts at the root. -/
theorem pieces_front (h : Tidy path names) : (Path.pieces path.front).map String.ofList =
    (if path.isAbsolute then [""] else []) ++ names := by
  induction h with
  | root => decide
  | @start name hname _ =>
    have hfront : (⟨name⟩ : Path).front = name.toList :=
      Path.front_of_append [] hname rfl
    rw [hfront, Path.pieces_of_not_mem hname.1, hname.isAbsolute]
    simp
  | @div path names name hpath hname _ ih =>
    rw [hpath.front_div hname, Path.pieces_append_slash, Path.pieces_of_not_mem hname.1, List.map_append, ih,
      hpath.isAbsolute_div hname, List.append_assoc]
    simp

theorem isName (h : Tidy path names) : ∀ name ∈ names, Path.IsName name := by
  induction h with
  | root => exact List.forall_mem_nil _
  | start hname _ => exact List.forall_mem_singleton.2 hname
  | div _ hname _ ih => exact List.forall_mem_append.2 ⟨ih, List.forall_mem_singleton.2 hname⟩

theorem isBare (h : Tidy path names) : ∀ name ∈ names, IsBare name.toList := by
  induction h with
  | root => exact List.forall_mem_nil _
  | start _ hbare => exact List.forall_mem_singleton.2 hbare
  | div _ _ hbare ih => exact List.forall_mem_append.2 ⟨ih, List.forall_mem_singleton.2 hbare⟩

theorem isBare_front (h : Tidy path names) : IsBare path.front := by
  induction h with
  | root => decide
  | start hname hbare =>
    rw [Path.front_of_append [] hname rfl]
    exact hbare
  | div hpath hname hbare ih =>
    rw [hpath.front_div hname]
    simp_all [IsBare]

/-- No piece of the path is a dot, or two. -/
theorem ne_of_mem_pieces (h : Tidy path names) :
    ∀ piece ∈ (Path.pieces path.front).map String.ofList, piece ≠ "." := by
  intro piece hpiece hdot
  rw [h.pieces_front, List.mem_append] at hpiece
  rcases hpiece with hroot | hname
  · split at hroot
    · rw [List.mem_singleton.1 hroot] at hdot
      exact absurd hdot (by decide)
    · cases hroot
  · exact (h.isName piece hname).ne_dot hdot

end Tidy

/-- A path is the current directory only if it starts with a dot. -/
theorem components_ne_here (h : path.segments.head? ≠ some ".") : path.components ≠ [.here] := by
  by_cases habs : path.isAbsolute = true
  · exact components_ne_of_isAbsolute habs
  · intro heq
    rw [Path.components, if_neg habs, if_neg h, List.nil_append] at heq
    have hmem : Component.here ∈ path.segments.filterMap Path.component? := by
      rw [heq]
      exact List.mem_singleton_self _
    obtain ⟨segment, -, hsegment⟩ := List.mem_filterMap.1 hmem
    unfold Path.component? at hsegment
    split at hsegment
    · cases hsegment
    · split at hsegment <;> cases hsegment

namespace Tidy

theorem components_ne (h : Tidy path names) : path.components ≠ [.here] := by
  rcases h.eq_root_or with rfl | hfront
  · decide
  · refine components_ne_here fun hhead => ?_
    have hmem := List.mem_of_head? hhead
    rw [Path.segments, ← hfront] at hmem
    exact h.ne_of_mem_pieces "." hmem rfl

theorem components_under_ne (h : Tidy path names) (habs : own.isAbsolute = true) :
    (path.under own).components ≠ [.here] := by
  refine components_ne_here fun hhead => ?_
  have hne : (Path.pieces path.front).map String.ofList ≠ [] := by simp [Path.pieces_ne_nil]
  rw [(Path.segments_under habs).2, List.head?_append_of_ne_nil _ hne] at hhead
  exact h.ne_of_mem_pieces "." (List.mem_of_head? hhead) rfl

/-- The path that a name is put behind is a directory if there is one at its end. -/
theorem isDirectory_of_div (h : Tidy path names) (hname : Path.IsName name)
    (hdirectory : workspace.isDirectory (path / name) = true) :
    workspace.isDirectory path = true := by
  obtain ⟨place, hlocate, hfind⟩ := Workspace.isDirectory_iff.1 hdirectory
  obtain ⟨hpath, hfollow⟩ := Workspace.locate_eq_ok.1 hlocate
  rcases h.eq_root_or with rfl | hfront
  · exact Workspace.isDirectory_iff.2 ⟨[], Workspace.locate_root, FileTree.find?_root _⟩
  · have hstart : workspace.startOf (path / name) = workspace.startOf path := by
      unfold Workspace.startOf
      rw [h.isAbsolute_div hname]
    have htext : path.text.toList <+: (path / name).text.toList :=
      ⟨'/' :: name.toList, by
        rw [← hfront]
        exact (Path.toList_join h.ne hname.isAbsolute).symm⟩
    rw [Path.segments_div h.ne hname.1, hfront, hstart, FileTree.follow_append] at hfollow
    obtain ⟨next, hnext, hlast⟩ := bind_eq_ok.1 hfollow
    have hlocated : workspace.locate path = .ok next :=
      Workspace.locate_eq_ok.2 ⟨Workspace.pathError?_of_prefix hpath h.ne htext, hnext⟩
    exact Workspace.isDirectory_iff.2
      ⟨next, hlocated, FileTree.find?_of_follow hlast (List.cons_ne_nil _ _)⟩

/-- A name without wildcards leads to the directory that it names. -/
theorem expandFrom_name {next : Path} (hname : Path.IsName name) (hnext : reach path name = next)
    (hdirectory : workspace.isDirectory next = true) (patterns : List Pattern) :
    expandFrom workspace (⟨name.toList.map .char⟩ :: patterns) path =
      expandFrom workspace patterns next := by
  have hdot : ¬ (name = "." ∨ name = "..") := by
    intro heq
    rcases heq with heq | heq
    · exact hname.ne_dot heq
    · exact hname.2.2 heq
  have hcontains : workspace.contains next = true := by
    obtain ⟨place, hlocate, hfind⟩ := Workspace.isDirectory_iff.1 hdirectory
    rw [Workspace.contains, Workspace.entryAt_eq_ok.2 ⟨place, hlocate, hfind⟩]
    rfl
  rw [expandFrom, literal?_bare]
  dsimp only
  rw [hnext, if_neg hdot, if_pos hcontains]

/-- Read as the start of a pattern, the path leads to itself. -/
theorem expandFrom_append (h : Tidy path names) (hdirectory : workspace.isDirectory path = true)
    (patterns : List Pattern) :
    expandFrom workspace (names.map (fun name => ⟨name.toList.map .char⟩) ++ patterns)
        (if path.isAbsolute then ⟨"/"⟩ else ⟨"."⟩) =
      expandFrom workspace patterns path := by
  induction h generalizing patterns with
  | root => rfl
  | @start name hname hbare =>
    rw [hname.isAbsolute]
    exact expandFrom_name hname (if_pos (by decide)) hdirectory patterns
  | @div path names name hpath hname hbare ih =>
    -- the names before the last lead to the path before it, whatever comes behind them
    rw [hpath.isAbsolute_div hname, List.map_append, List.append_assoc,
      ih (hpath.isDirectory_of_div hname hdirectory)]
    exact expandFrom_name hname (reach_eq hpath.components_ne name) hdirectory patterns

end Tidy

/-! ## 2. Patterns behind a base -/

/-- The names of the base are the first components of a pattern behind it. -/
theorem Tidy.componentTexts_under (h : Tidy path names) (habs : own.isAbsolute = true) :
    componentTexts (path.under own) = names ++ componentTexts own := by
  obtain ⟨cs, hcs⟩ := Path.exists_of_isAbsolute habs
  have hne : (Path.pieces cs).map String.ofList ≠ [] := by simp [Path.pieces_ne_nil]
  have hown : own.segments.drop 1 = (Path.pieces cs).map String.ofList := by
    simp [Path.segments, hcs, Path.pieces]
  have hunder : (path.under own).segments.drop (if (path.under own).isAbsolute then 1 else 0) =
      names ++ (Path.pieces cs).map String.ofList := by
    rw [(Path.segments_under habs).2, h.pieces_front, Path.isAbsolute_under h.ne habs, hown]
    cases path.isAbsolute <;> rfl
  unfold componentTexts
  rw [hunder, habs, if_pos rfl, hown]
  dsimp only
  rw [List.getLast?_append_of_ne_nil _ hne, List.dropLast_append_of_ne_nil hne]
  split <;> rfl

/-- A pattern behind the base can be read just if it can be read by itself, and has the names of
    the base as its first components. -/
theorem Tidy.componentPatterns_under (h : Tidy path names) (habs : own.isAbsolute = true) :
    (componentPatterns (path.under own)).toOption = (componentPatterns own).toOption.map
      (names.map (fun name => ⟨name.toList.map .char⟩) ++ ·) := by
  obtain ⟨cs, hcs⟩ := Path.exists_of_isAbsolute habs
  have hread : (Pattern.parse (path.under own).text).isOk = (Pattern.parse own.text).isOk := by
    have hunder : (path.under own).text = String.ofList (path.front ++ '/' :: cs) := by
      apply String.toList_injective
      rw [Path.toList_under, hcs, String.toList_ofList]
    have hown : own.text = String.ofList ('/' :: cs) := by rw [← hcs, String.ofList_toList]
    rw [hunder, hown, isOk_parse_append h.isBare_front]
  unfold componentPatterns
  rw [h.componentTexts_under habs, List.mapM_append, mapM_parse_of_isBare h.isBare]
  cases hunder : Pattern.parse (path.under own).text with
  | error error =>
    cases hown : Pattern.parse own.text with
    | error error => rfl
    | ok pattern =>
      rw [hunder, hown] at hread
      cases hread
  | ok pattern =>
    cases hown : Pattern.parse own.text with
    | error error =>
      rw [hunder, hown] at hread
      cases hread
    | ok pattern =>
      cases (componentTexts own).mapM Pattern.parse <;> rfl

/-! ## 3. Patterns that stay below the base -/

/-- No component of the text leads up: none is two dots, and none picks them with a wildcard behind
    a dot. -/
def Inward (text : String) : Prop :=
  ∀ segment ∈ (⟨text⟩ : Path).segments, segment ≠ ".." ∧
    ∀ pattern, Pattern.parse segment = .ok pattern → ".." ∉ specialNames pattern

theorem inward_iff {text : String} : Inward text ↔ ∀ segment ∈ (⟨text⟩ : Path).segments,
    segment ≠ ".." ∧
      ∀ pattern ∈ (Pattern.parse segment).toOption.toList, ".." ∉ specialNames pattern := by
  refine forall₂_congr fun segment _ => and_congr_right fun _ => forall_congr' fun pattern => ?_
  cases Pattern.parse segment with
  | error error => simp [Except.toOption]
  | ok found => simp [Except.toOption, eq_comm]

instance (text : String) : Decidable (Inward text) :=
  decidable_of_iff _ inward_iff.symm

theorem exists_of_mem_mapM {texts : List String} {patterns : List Pattern} {pattern : Pattern}
    (h : texts.mapM Pattern.parse = .ok patterns) (hmem : pattern ∈ patterns) :
    ∃ text ∈ texts, Pattern.parse text = .ok pattern := by
  induction texts generalizing patterns with
  | nil =>
    cases h
    cases hmem
  | cons text texts ih =>
    rw [List.mapM_cons] at h
    obtain ⟨first, hfirst, h⟩ := bind_eq_ok.1 h
    obtain ⟨more, hmore, h⟩ := bind_eq_ok.1 h
    cases h
    rcases List.mem_cons.1 hmem with rfl | hmem
    · exact ⟨text, List.mem_cons_self, hfirst⟩
    · obtain ⟨other, hother, hparse⟩ := ih hmore hmem
      exact ⟨other, List.mem_cons_of_mem _ hother, hparse⟩

section Relative

variable {item : String} (hrelative : (⟨item⟩ : Path).isAbsolute = false)

include hrelative

/-- Behind the root, the components of a pattern are the pieces between its slashes; a slash at the
    end adds none. -/
theorem segments_eq_componentTexts : ∃ rest, (rest = [] ∨ rest = [""]) ∧
    (⟨item⟩ : Path).segments = componentTexts ((⟨"/"⟩ : Path) / item) ++ rest := by
  have habs : ((⟨"/"⟩ : Path) / item).isAbsolute = true :=
    Path.isAbsolute_div (by decide) _
  rw [componentTexts, habs, if_pos rfl, Path.segments_root_div hrelative, List.drop_one,
    List.tail_cons]
  split
  · rename_i hlast
    obtain ⟨init, hinit⟩ := List.getLast?_eq_some_iff.1 hlast
    refine ⟨[""], .inr rfl, ?_⟩
    rw [hinit, List.dropLast_concat]
  · exact ⟨[], .inl rfl, (List.append_nil _).symm⟩

/-- A pattern with any text has components. -/
theorem componentPatterns_ne (hne : item ≠ "") :
    componentPatterns ((⟨"/"⟩ : Path) / item) ≠ .ok [] := by
  intro h
  obtain ⟨-, -, h⟩ := bind_eq_ok.1 h
  obtain ⟨rest, hrest, hsegments⟩ := segments_eq_componentTexts hrelative
  have htext := Path.text_eq_intercalate ⟨item⟩
  cases htexts : componentTexts ((⟨"/"⟩ : Path) / item) with
  | nil =>
    rw [hsegments, htexts] at htext
    rcases hrest with rfl | rfl
    · exact hne htext
    · exact hne htext
  | cons text texts =>
    rw [htexts, List.mapM_cons] at h
    obtain ⟨pattern, -, h⟩ := bind_eq_ok.1 h
    obtain ⟨patterns, -, h⟩ := bind_eq_ok.1 h
    cases h

/-- The components of a pattern that leads nowhere up do not. -/
theorem descends_of_componentPatterns {patterns : List Pattern} (hinward : Inward item)
    (h : componentPatterns ((⟨"/"⟩ : Path) / item) = .ok patterns) :
    ∀ pattern ∈ patterns, pattern.Descends := by
  intro pattern hpattern
  obtain ⟨-, -, h⟩ := bind_eq_ok.1 h
  obtain ⟨text, htext, hparse⟩ := exists_of_mem_mapM h hpattern
  obtain ⟨rest, -, hsegments⟩ := segments_eq_componentTexts hrelative
  have hsegment : text ∈ (⟨item⟩ : Path).segments := by
    rw [hsegments]
    exact List.mem_append_left _ htext
  obtain ⟨hup, hspecial⟩ := hinward text hsegment
  refine ⟨fun name hname => ?_, hspecial pattern hparse⟩
  obtain rfl := eq_of_literal? hparse hname
  obtain ⟨piece, hpiece, rfl⟩ := List.mem_map.1 hsegment
  rw [String.toList_ofList]
  exact ⟨Path.not_mem_of_mem_pieces hpiece, hup⟩

theorem totalCost_le_size {patterns : List Pattern}
    (h : componentPatterns ((⟨"/"⟩ : Path) / item) = .ok patterns) :
    totalCost patterns ≤ item.utf8ByteSize + 1 := by
  obtain ⟨-, -, h⟩ := bind_eq_ok.1 h
  have hcost := totalCost_le h
  obtain ⟨rest, -, hsegments⟩ := segments_eq_componentTexts hrelative
  have hsize : Location.size (⟨item⟩ : Path).segments = item.utf8ByteSize + 1 := by
    rw [Path.segments, Path.size_pieces, String.ofList_toList]
  rw [hsegments, Location.size_append] at hsize
  omega

end Relative

/-! ## 4. The directories that a pattern names -/

section Moved

variable {place : Location} {inner : FileTree} {item : String}

/-- What a pattern names in a tree by itself was reached, within the length of the pattern. -/
theorem reached_of_mem_directories (hnamed : inner.Named)
    (hrelative : (⟨item⟩ : Path).isAbsolute = false) (hinward : Inward item) {found : List Path}
    (h : directories inner.alone ((⟨"/"⟩ : Path) / item) = .ok found) :
    ∀ path ∈ found, inner.Reached (item.utf8ByteSize + 2) path := by
  intro path hpath
  obtain ⟨patterns, hpatterns, h⟩ := bind_eq_ok.1 h
  cases h
  have habs : ((⟨"/"⟩ : Path) / item).isAbsolute = true :=
    Path.isAbsolute_div (by decide) _
  rw [if_pos habs] at hpath
  have hcost := totalCost_le_size hrelative hpatterns
  refine ((reached_of_mem_expandFrom hnamed (descends_of_componentPatterns hrelative hinward
    hpatterns) FileTree.Reached.root).1 (List.mem_filter.1 hpath).1).mono ?_
  omega

theorem toOption_directories (workspace : Workspace) (path : Path) :
    (directories workspace path).toOption = (componentPatterns path).toOption.map fun patterns =>
      (expandFrom workspace patterns (if path.isAbsolute then ⟨"/"⟩ else ⟨"."⟩)).filter
        workspace.isDirectory := by
  unfold directories
  cases componentPatterns path <;> rfl

/-- The names of a tidy base lead to the base, and the pattern goes on from there as from the root of
    the tree. -/
theorem Tidy.directories_under (h : Tidy base names) (hholds : workspace.Holds base place inner)
    (hnamed : inner.Named) (hroom : inner.Roomy base (item.utf8ByteSize + 2))
    (hrelative : (⟨item⟩ : Path).isAbsolute = false) (hinward : Inward item) (hne : item ≠ "") :
    (directories workspace (base.under ((⟨"/"⟩ : Path) / item))).toOption =
      (directories inner.alone ((⟨"/"⟩ : Path) / item)).toOption.map (List.map base.under) := by
  have habs : ((⟨"/"⟩ : Path) / item).isAbsolute = true :=
    Path.isAbsolute_div (by decide) _
  rw [toOption_directories, toOption_directories, h.componentPatterns_under habs,
    Path.isAbsolute_under h.ne habs, habs, if_pos rfl]
  cases hpatterns : componentPatterns ((⟨"/"⟩ : Path) / item) with
  | error error => rfl
  | ok patterns =>
    have hcost := totalCost_le_size hrelative hpatterns
    have hdescends := descends_of_componentPatterns hrelative hinward hpatterns
    have hdirectory : workspace.isDirectory base = true :=
      Workspace.isDirectory_iff.2 ⟨place, hholds.located, hholds.directory⟩
    have hsome : patterns ≠ [] := fun heq => componentPatterns_ne hrelative hne (heq ▸ hpatterns)
    have hexpand := (expandFrom_eq_map hholds hroom hnamed
      (fun path hpath => h.components_under_ne hpath) hdescends hholds.mirrors_base
      FileTree.Reached.root h.components_ne (by omega)).1 (.inr hsome)
    simp only [Except.toOption, Option.map_some]
    rw [h.expandFrom_append hdirectory, hexpand, List.filter_map]
    refine congrArg some (congrArg _ (List.filter_congr fun path hpath => ?_))
    have hbudget : 1 + totalCost patterns ≤ item.utf8ByteSize + 2 := by omega
    have hreached := ((reached_of_mem_expandFrom hnamed hdescends FileTree.Reached.root).1
      hpath).mono hbudget
    exact (hreached.mirrors hholds hroom le_rfl).isDirectory hholds

/-- The base is tidy, but for a slash at its end. -/
def IsTidy (base : Path) : Prop :=
  ∃ path names, Tidy path names ∧ base.front = path.front

/-- A tidy base is spelled with its own slash or with none. -/
theorem Tidy.text_isStart (h : Tidy path names) (hfront : base.front = path.front)
    (hne : base.text ≠ "") : path.text.toList <+: base.text.toList := by
  rcases h.eq_root_or with rfl | hpath
  · have hnone : base.front = [] := hfront
    rcases Path.toList_eq_front base with hbase | hbase
    · exact absurd (String.toList_eq_nil_iff.1 (hbase.trans hnone)) hne
    · have htext : base.text.toList = ['/'] := by rw [hbase, hnone, List.nil_append]
      exact htext ▸ List.prefix_refl _
  · rw [← hpath, ← hfront]
    exact base.front_isStart

/-- A pattern behind a base names the directories that it names in the tree by itself, moved. -/
theorem directories_under (h : IsTidy base) (hholds : workspace.Holds base place inner)
    (hnamed : inner.Named) (hroom : inner.Roomy base (item.utf8ByteSize + 2))
    (hrelative : (⟨item⟩ : Path).isAbsolute = false) (hinward : Inward item) (hne : item ≠ "") :
    (directories workspace (base.under ((⟨"/"⟩ : Path) / item))).toOption =
      (directories inner.alone ((⟨"/"⟩ : Path) / item)).toOption.map (List.map base.under) := by
  obtain ⟨path, names, htidy, hfront⟩ := h
  have hstart := htidy.text_isStart hfront hholds.base_ne
  have hsize := Workspace.size_le_of_isStart hstart
  have hunder : base.under = path.under := by
    funext own
    rw [Path.under, Path.under, hfront]
  have hroom' : inner.Roomy path (item.utf8ByteSize + 2) := by
    intro place hstands
    have hle := hroom place hstands
    omega
  rw [hunder]
  exact htidy.directories_under (hholds.of_front hfront.symm htidy.ne hstart) hnamed hroom'
    hrelative hinward hne

end Moved

end LocaleCatalog.Glob
