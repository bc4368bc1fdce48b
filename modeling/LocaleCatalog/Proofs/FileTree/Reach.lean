import Mathlib.Data.List.TakeWhile
import LocaleCatalog.FileTree.Change
import LocaleCatalog.Proofs.FileTree.Place

/-!
# Reaching a place

What it takes to get from a path to its place in a tree:

* `FileTree.find?_insert_self`, `FileTree.find?_insert_of_ne` and the same for `erase`: what stands
  where after one change;
* `FileTree.follow_eq_place`: steps that do not go up end where they say;
* `FileTree.follow_of_directories`: they can be followed in every tree that has the directories on
  the way;
* `Workspace.locate_eq_place`, `Workspace.readBytes_eq_ok`: what it means that a path is found, and
  read;
* `FileAction.target_eq_place`, `FileAction.locate_of_target`: what a change is aimed at, and that a
  path is located there.
-/

namespace LocaleCatalog

/-! ## 1. Results in sequence -/

theorem bind_eq_ok {ε α β : Type} {first : Except ε α} {next : α → Except ε β} {b : β} :
    (first >>= next) = .ok b ↔ ∃ a, first = .ok a ∧ next a = .ok b := by
  cases first with
  | error e => simp [bind, Except.bind]
  | ok a => simp [bind, Except.bind]

theorem map_eq_ok {ε α β : Type} {first : Except ε α} {f : α → β} {b : β} :
    first.map f = .ok b ↔ ∃ a, first = .ok a ∧ f a = b := by
  cases first with
  | error e => simp [Except.map]
  | ok a => simp [Except.map]

theorem mapError_eq_ok {ε ε' α : Type} {first : Except ε α} {f : ε → ε'} {a : α} :
    first.mapError f = .ok a ↔ first = .ok a := by
  cases first with
  | error e => simp [Except.mapError]
  | ok a => simp [Except.mapError]

theorem toOption_eq_some_iff {ε α : Type} {result : Except ε α} {a : α} :
    result.toOption = some a ↔ result = .ok a := by
  cases result <;> simp [Except.toOption]

/-- A property that holds somewhere in a list holds somewhere first. -/
theorem exists_first {α : Type} {p : α → Prop} {items : List α} (h : ¬ ∀ item ∈ items, ¬ p item) :
    ∃ earlier item later, items = earlier ++ item :: later ∧ p item ∧
      ∀ other ∈ earlier, ¬ p other := by
  induction items with
  | nil => exact absurd (fun _ hitem => absurd hitem List.not_mem_nil) h
  | cons first items ih =>
    by_cases hfirst : p first
    · exact ⟨[], first, items, rfl, hfirst, fun _ hother => absurd hother List.not_mem_nil⟩
    · obtain ⟨earlier, item, later, rfl, hitem, hearlier⟩ := ih fun hmore => h fun item hitem =>
        (List.mem_cons.1 hitem).elim (fun heq => heq ▸ hfirst) (hmore item)
      refine ⟨first :: earlier, item, later, rfl, hitem, fun other hother => ?_⟩
      rcases List.mem_cons.1 hother with rfl | hother
      · exact hfirst
      · exact hearlier other hother

/-! ## 2. One place changed -/

namespace FileTree

@[simp] theorem find?_root (tree : FileTree) : tree.find? [] = some .directory := by
  simp [find?]

@[simp] theorem find?_insert_self {tree : FileTree} {place : Location} {entry : Entry}
    (h : place ≠ []) : (tree.insert place entry).find? place = some entry := by
  simp [find?, insert, h]

theorem find?_insert_of_ne {tree : FileTree} {place other : Location} {entry : Entry}
    (h : other ≠ place) : (tree.insert place entry).find? other = tree.find? other := by
  unfold find? insert
  rw [Std.ExtTreeMap.getElem?_insert, if_neg fun heq =>
    h (Std.LawfulEqOrd.eq_of_compare heq).symm]

@[simp] theorem find?_erase_self {tree : FileTree} {place : Location} (h : place ≠ []) :
    (tree.erase place).find? place = none := by
  simp [find?, erase, h]

theorem find?_erase_of_ne {tree : FileTree} {place other : Location} (h : other ≠ place) :
    (tree.erase place).find? other = tree.find? other := by
  unfold find? erase
  rw [Std.ExtTreeMap.getElem?_erase, if_neg fun heq =>
    h (Std.LawfulEqOrd.eq_of_compare heq).symm]

@[simp] theorem refusals_insert (tree : FileTree) (place : Location) (entry : Entry) :
    (tree.insert place entry).refusals = tree.refusals := rfl

/-- An entry put where it stands already changes nothing. -/
theorem insert_of_find? {tree : FileTree} {place : Location} {entry : Entry}
    (hroot : place ≠ []) (h : tree.find? place = some entry) :
    tree.insert place entry = tree := by
  unfold find? at h
  rw [if_neg hroot] at h
  unfold insert
  congr 1
  refine Std.ExtTreeMap.ext_getElem? fun other => ?_
  rw [Std.ExtTreeMap.getElem?_insert]
  split
  · rename_i heq
    rw [← Std.LawfulEqOrd.eq_of_compare heq, h]
  · rfl

/-! ## 3. Steps -/

variable {tree tree' : FileTree} {place goal : Location} {segment : String}
  {segments : List String}

theorem step_congr (h : tree'.find? place = tree.find? place) :
    tree'.step place segment = tree.step place segment := by
  unfold step
  rw [h]

/-- A step that does not go up starts in a directory and stays or goes down. -/
theorem step_eq_ok (h : tree.step place segment = .ok goal) (hup : segment ≠ "..") :
    tree.find? place = some .directory ∧
      goal = place ++ [segment].filter fun segment => !Path.isSilent segment := by
  unfold step at h
  split at h
  · cases h
  · cases h
  · rename_i hdir
    refine ⟨hdir, ?_⟩
    split at h
    · rename_i hsilent
      cases h
      simp [hsilent]
    · rename_i hsolid
      split at h
      · cases h
      · cases h
        simp [hsolid]

/-- A step up ends above its start. -/
theorem eq_of_step_up (h : tree.step place ".." = .ok goal) : goal = place.dropLast := by
  unfold step at h
  split at h
  · cases h
  · cases h
  · rw [if_neg (by decide), if_pos rfl] at h
    cases h
    rfl

/-- A step can be made wherever a directory stands at its start. -/
theorem step_of_directory (h : tree.step place segment = .ok goal)
    (hdir : tree'.find? place = some .directory) : tree'.step place segment = .ok goal := by
  unfold step at h ⊢
  rw [hdir]
  split at h
  · cases h
  · cases h
  · exact h

theorem follow_cons : tree.follow place (segment :: segments) =
    tree.step place segment >>= fun next => tree.follow next segments := rfl

theorem follow_append (before after : List String) : tree.follow place (before ++ after) =
    tree.follow place before >>= fun next => tree.follow next after :=
  List.foldlM_append

/-- Steps that do not go up end where they say. -/
theorem follow_eq_place (h : tree.follow place segments = .ok goal) (hup : ".." ∉ segments) :
    goal = place ++ segments.filter fun segment => !Path.isSilent segment := by
  induction segments generalizing place with
  | nil =>
    cases h
    simp
  | cons segment segments ih =>
    rw [List.mem_cons, not_or] at hup
    rw [follow_cons] at h
    obtain ⟨next, hstep, hfollow⟩ := bind_eq_ok.1 h
    obtain ⟨-, rfl⟩ := step_eq_ok hstep (Ne.symm hup.1)
    rw [ih hfollow hup.2, List.append_assoc, ← List.filter_append]
    rfl

/-- Steps that do not go up can be followed in every tree that has the directories on the way. -/
theorem follow_of_directories (h : tree.follow place segments = .ok goal) (hup : ".." ∉ segments)
    (hkept : ∀ on, place <+: on → on <+: goal → tree.find? on = some .directory →
      tree'.find? on = some .directory) : tree'.follow place segments = .ok goal := by
  induction segments generalizing place with
  | nil => exact h
  | cons segment segments ih =>
    rw [List.mem_cons, not_or] at hup
    have hgoal := follow_eq_place h (by simp [hup])
    rw [follow_cons] at h ⊢
    obtain ⟨next, hstep, hfollow⟩ := bind_eq_ok.1 h
    obtain ⟨hdir, hnext⟩ := step_eq_ok hstep (Ne.symm hup.1)
    have hon : place <+: goal := hgoal ▸ List.prefix_append _ _
    have hdown : place <+: next := hnext ▸ List.prefix_append _ _
    rw [step_of_directory hstep (hkept place (List.prefix_refl _) hon hdir)]
    exact ih hfollow hup.2 fun on hbehind => hkept on (hdown.trans hbehind)

/-- Steps that go on start in a directory. -/
theorem find?_of_follow (h : tree.follow place segments = .ok goal) (hne : segments ≠ []) :
    tree.find? place = some .directory := by
  cases segments with
  | nil => exact absurd rfl hne
  | cons segment segments =>
    rw [follow_cons] at h
    obtain ⟨next, hstep, -⟩ := bind_eq_ok.1 h
    unfold step at hstep
    split at hstep
    · cases hstep
    · cases hstep
    · rename_i hdir
      exact hdir

/-- Steps lead to the same end wherever the same directories stand. -/
theorem follow_of_kept (h : tree.follow place segments = .ok goal)
    (hkept : ∀ on, tree.find? on = some .directory → tree'.find? on = some .directory) :
    tree'.follow place segments = .ok goal := by
  induction segments generalizing place with
  | nil => exact h
  | cons segment segments ih =>
    have hdir := find?_of_follow h (List.cons_ne_nil _ _)
    rw [follow_cons] at h ⊢
    obtain ⟨next, hstep, hfollow⟩ := bind_eq_ok.1 h
    rw [step_of_directory hstep (hkept place hdir)]
    exact ih hfollow

/-- Silent pieces lead nowhere, but only a directory may stand before them. -/
theorem follow_of_silent (hsilent : ∀ s ∈ segments, Path.isSilent s = true)
    (hdir : tree.find? place = some .directory) : tree.follow place segments = .ok place := by
  induction segments with
  | nil => rfl
  | cons segment segments ih =>
    have hstep : tree.step place segment = .ok place := by
      unfold step
      rw [hdir]
      exact if_pos (hsilent segment List.mem_cons_self)
    rw [follow_cons, hstep]
    exact ih fun s hs => hsilent s (List.mem_cons_of_mem _ hs)

theorem follow_slashes {slashes : List String} (hslashes : ∀ s ∈ slashes, s = "")
    (hdir : tree.find? place = some .directory) : tree.follow place slashes = .ok place :=
  follow_of_silent (fun s hs => by rw [hslashes s hs]; rfl) hdir

end FileTree

/-! ## 4. Finding and reading -/

namespace Workspace

variable {workspace workspace' : Workspace} {path : Path} {place : Location} {bytes : ByteArray}

theorem locate_eq_ok : workspace.locate path = .ok place ↔
    pathError? path = none ∧
      workspace.tree.follow (workspace.startOf path) path.segments = .ok place := by
  unfold locate
  split <;> simp_all

/-- A plain path is found at its place or not at all. -/
theorem locate_eq_place (h : workspace.locate path = .ok place) (hplain : path.IsPlain) :
    place = path.placeFrom workspace.current :=
  FileTree.follow_eq_place (locate_eq_ok.1 h).2 (Path.not_mem_segments_of_isPlain hplain)

theorem locate_of_directories (h : workspace.locate path = .ok place) (hplain : path.IsPlain)
    (hcurrent : workspace'.current = workspace.current)
    (hkept : ∀ on, on <+: place → workspace.tree.find? on = some .directory →
      workspace'.tree.find? on = some .directory) : workspace'.locate path = .ok place := by
  obtain ⟨hpath, hfollow⟩ := locate_eq_ok.1 h
  have hstart : workspace'.startOf path = workspace.startOf path := by
    unfold startOf
    rw [hcurrent]
  rw [locate_eq_ok, hstart]
  exact ⟨hpath, FileTree.follow_of_directories hfollow
    (Path.not_mem_segments_of_isPlain hplain) fun on _ => hkept on⟩

theorem locate_of_kept (h : workspace.locate path = .ok place)
    (hcurrent : workspace'.current = workspace.current)
    (hkept : ∀ on, workspace.tree.find? on = some .directory →
      workspace'.tree.find? on = some .directory) : workspace'.locate path = .ok place := by
  obtain ⟨hpath, hfollow⟩ := locate_eq_ok.1 h
  have hstart : workspace'.startOf path = workspace.startOf path := by
    unfold startOf
    rw [hcurrent]
  rw [locate_eq_ok, hstart]
  exact ⟨hpath, FileTree.follow_of_kept hfollow hkept⟩

theorem entryAt_eq_ok {entry : Entry} : workspace.entryAt path = .ok entry ↔
    ∃ place, workspace.locate path = .ok place ∧ workspace.tree.find? place = some entry := by
  unfold entryAt
  rw [bind_eq_ok]
  refine exists_congr fun place => and_congr_right fun _ => ?_
  cases workspace.tree.find? place <;> simp [pure, Except.pure, throw, throwThe,
    MonadExceptOf.throw]

/-- What is found depends on what stands where, and on nothing else. -/
theorem entryAt_congr (hcurrent : workspace'.current = workspace.current)
    (hsame : ∀ place, workspace'.tree.find? place = workspace.tree.find? place) :
    workspace'.entryAt path = workspace.entryAt path := by
  have hstep : workspace'.tree.step = workspace.tree.step :=
    funext fun place => funext fun _ => FileTree.step_congr (hsame place)
  unfold entryAt locate startOf FileTree.follow
  simp only [hstep, hcurrent, hsame]

/-- Nothing is found where the steps lead to nothing, and where slashes ask for more of it. -/
theorem entryAt_eq_notFound {slashes : List String}
    (hlocate : workspace.locate path = workspace.tree.follow place slashes)
    (hnone : workspace.tree.find? place = none) : workspace.entryAt path = .error .notFound := by
  unfold entryAt
  rw [hlocate]
  cases slashes with
  | nil =>
    have hthere : workspace.tree.follow place [] = .ok place := rfl
    rw [hthere]
    simp only [bind, Except.bind, hnone]
    rfl
  | cons slash slashes =>
    have hstep : workspace.tree.step place slash = .error .notFound := by
      unfold FileTree.step
      rw [hnone]
    rw [FileTree.follow_cons, hstep]
    rfl

theorem isDirectory_iff : workspace.isDirectory path = true ↔
    ∃ place, workspace.locate path = .ok place ∧ workspace.tree.find? place = some .directory := by
  rw [← entryAt_eq_ok]
  unfold isDirectory
  split
  · rename_i h
    exact iff_of_true rfl h
  · rename_i h
    exact iff_of_false Bool.false_ne_true h

/-- What is found alike has the same bytes. -/
theorem readBytes_congr {other : Workspace} (h : workspace.entryAt path = other.entryAt path) :
    workspace.readBytes path = other.readBytes path := by
  unfold readBytes
  rw [h]

theorem readBytes_eq_ok : workspace.readBytes path = .ok bytes ↔
    ∃ place, workspace.locate path = .ok place ∧
      workspace.tree.find? place = some (.file bytes) := by
  rw [← entryAt_eq_ok]
  unfold readBytes
  rw [bind_eq_ok]
  constructor
  · rintro ⟨entry, hentry, hbytes⟩
    cases entry with
    | directory => cases hbytes
    | file found =>
      cases hbytes
      exact hentry
  · exact fun h => ⟨_, h, rfl⟩

theorem readText_eq_ok {text : String} :
    workspace.readText path = .ok text ↔ workspace.readBytes path = .ok text.toUTF8 := by
  unfold readText
  rw [bind_eq_ok]
  constructor
  · rintro ⟨bytes, hbytes, htext⟩
    split at htext
    · rename_i found hfound
      cases htext
      unfold String.fromUTF8? at hfound
      split at hfound
      · cases hfound
        exact hbytes
      · cases hfound
    · cases htext
  · intro h
    refine ⟨_, h, ?_⟩
    have hutf8 : String.fromUTF8? text.toUTF8 = some text := by
      exact dif_pos text.isValidUTF8
    rw [hutf8]
    rfl

end Workspace

/-! ## 5. What a change is aimed at -/

namespace FileAction

variable {workspace : Workspace} {path : Path} {aim : Target}

/-- A path is slashes only, or has a last piece with nothing but slashes behind it. -/
theorem segments_cases (path : Path) : (∀ s ∈ path.segments, s = "") ∨
    ∃ before last slashes, path.segments = before ++ last :: slashes ∧ last ≠ "" ∧
      ∀ s ∈ slashes, s = "" := by
  cases hdrop : path.segments.reverse.dropWhile (· = "") with
  | nil =>
    left
    intro s hs
    have := List.dropWhile_eq_nil_iff.1 hdrop s (List.mem_reverse.2 hs)
    simpa using this
  | cons last before =>
    obtain ⟨slashes, hrev, hslashes, hlast⟩ := Path.exists_of_dropWhile_eq_cons hdrop
    refine .inr ⟨before.reverse, last, slashes.reverse, ?_, by simpa using hlast, fun s hs => ?_⟩
    · have := congrArg List.reverse hrev
      simpa using this
    · simpa using hslashes s (List.mem_reverse.1 hs)

/-- A path of slashes only is the root. -/
theorem isAbsolute_of_slashes (hpath : Workspace.pathError? path = none)
    (hsegments : ∀ s ∈ path.segments, s = "") : path.isAbsolute = true := by
  cases htext : path.text.toList with
  | nil =>
    have hempty : path.text = "" := String.toList_eq_nil_iff.1 htext
    simp [Workspace.pathError?, hempty] at hpath
  | cons c cs =>
    by_cases hc : c = '/'
    · simp [Path.isAbsolute, htext, hc]
    · cases hp : Path.pieces cs <;>
        simp [Path.segments, htext, Path.pieces, hc, hp] at hsegments

/-- What a change is aimed at, if a name stands before the slashes at the end of its path. -/
theorem target_eq_of_segments {before slashes : List String} {last : String}
    (hpath : Workspace.pathError? path = none)
    (hsegments : path.segments = before ++ last :: slashes) (hlast : last ≠ "")
    (hslashes : ∀ s ∈ slashes, s = "") :
    target path workspace =
      (workspace.tree.follow (workspace.startOf path) (before ++ [last])).map fun place =>
        ⟨place, decide (last ≠ "." ∧ last ≠ ".."), decide (slashes ≠ [])⟩ := by
  have hrev : path.segments.reverse = slashes.reverse ++ last :: before.reverse := by
    simp [hsegments]
  have hdrop : (slashes.reverse ++ last :: before.reverse).dropWhile
      (fun s => decide (s = "")) = last :: before.reverse := by
    rw [List.dropWhile_append_of_pos]
    · simp [hlast]
    · simpa using hslashes
  have hhead : decide ((slashes.reverse ++ last :: before.reverse).head? = some "") =
      decide (slashes ≠ []) := by
    cases hs : slashes.reverse with
    | nil => simp_all
    | cons s more =>
      have hmem : s ∈ slashes := List.mem_reverse.1 (hs ▸ List.mem_cons_self)
      simp [hslashes s hmem, List.ne_nil_of_mem hmem]
  unfold target
  simp only [hpath, hrev]
  rw [hdrop]
  simp only [hhead, List.reverse_reverse]
  rw [FileTree.follow_append]
  cases workspace.tree.follow (workspace.startOf path) before with
  | error e => rfl
  | ok parent =>
    show (workspace.tree.step parent last >>= _) = (workspace.tree.step parent last >>= _).map _
    cases workspace.tree.step parent last <;> rfl

/-- A path of slashes only is aimed at the root. -/
theorem target_of_slashes (hpath : Workspace.pathError? path = none)
    (hslashes : ∀ s ∈ path.segments, s = "") : target path workspace = .ok ⟨[], false, true⟩ := by
  have hdrop : path.segments.reverse.dropWhile (fun s => decide (s = "")) = [] := by
    rw [List.dropWhile_eq_nil_iff]
    simpa using hslashes
  unfold target
  simp only [hpath]
  rw [hdrop]
  rfl

/-- A change is aimed at where the pieces lead that stand before the slashes at the end. -/
theorem target_eq (hpath : Workspace.pathError? path = none) :
    ∃ before slashes named, path.segments = before ++ slashes ∧ (∀ s ∈ slashes, s = "") ∧
      target path workspace = (workspace.tree.follow (workspace.startOf path) before).map
        fun place => ⟨place, named, decide (slashes ≠ [])⟩ := by
  rcases segments_cases path with hslashes | ⟨before, last, slashes, hsegments, hlast, hslashes⟩
  · have hstart : workspace.startOf path = [] := if_pos (isAbsolute_of_slashes hpath hslashes)
    have hne : path.segments ≠ [] := by
      rw [Path.segments, Path.pieces_eq_splitOn]
      simp
    refine ⟨[], path.segments, false, rfl, hslashes, ?_⟩
    rw [target_of_slashes hpath hslashes, hstart, decide_eq_true hne]
    rfl
  · exact ⟨before ++ [last], slashes, _, by simp [hsegments], hslashes,
      target_eq_of_segments hpath hsegments hlast hslashes⟩

theorem target_of_pathError {error : IoError} (hpath : Workspace.pathError? path = some error) :
    target path workspace = .error error := by
  unfold target
  simp only [hpath]
  rfl

theorem locate_eq_follow (hpath : Workspace.pathError? path = none) :
    workspace.locate path = workspace.tree.follow (workspace.startOf path) path.segments := by
  unfold Workspace.locate
  rw [hpath]

/-- A change is aimed at the place where its path is located, unless the slashes behind it ask for
    more. -/
theorem locate_of_target (h : target path workspace = .ok aim) :
    ∃ slashes, (∀ s ∈ slashes, s = "") ∧ (aim.slash = false ↔ slashes = []) ∧
      workspace.locate path = workspace.tree.follow aim.place slashes := by
  cases hpath : Workspace.pathError? path with
  | some error =>
    rw [target_of_pathError hpath] at h
    cases h
  | none =>
    obtain ⟨before, slashes, named, hsegments, hslashes, htarget⟩ := target_eq hpath
    rw [htarget] at h
    obtain ⟨place, hplace, rfl⟩ := map_eq_ok.1 h
    refine ⟨slashes, hslashes, by simp, ?_⟩
    rw [locate_eq_follow hpath, hsegments, FileTree.follow_append, hplace]
    rfl

/-- A change of a plain path is aimed at its place. -/
theorem target_eq_place (h : target path workspace = .ok aim) (hplain : path.IsPlain) :
    aim.place = path.placeFrom workspace.current := by
  cases hpath : Workspace.pathError? path with
  | some error =>
    rw [target_of_pathError hpath] at h
    cases h
  | none =>
    obtain ⟨before, slashes, named, hsegments, hslashes, htarget⟩ := target_eq hpath
    rw [htarget] at h
    obtain ⟨place, hplace, rfl⟩ := map_eq_ok.1 h
    have hup := Path.not_mem_segments_of_isPlain hplain
    have hnone : slashes.filter (fun s => !Path.isSilent s) = [] := by
      rw [List.filter_eq_nil_iff]
      intro s hs
      simp [hslashes s hs, Path.isSilent]
    have hsteps : path.steps = before.filter fun s => !Path.isSilent s := by
      rw [Path.steps, hsegments, List.filter_append, hnone, List.append_nil]
    rw [hsegments, List.mem_append, not_or] at hup
    rw [FileTree.follow_eq_place hplace hup.1, Path.placeFrom, hsteps]
    rfl

/-- A change is still aimed there wherever the same directories stand. -/
theorem target_of_kept {workspace' : Workspace} (h : target path workspace = .ok aim)
    (hcurrent : workspace'.current = workspace.current)
    (hkept : ∀ on, workspace.tree.find? on = some .directory →
      workspace'.tree.find? on = some .directory) : target path workspace' = .ok aim := by
  cases hpath : Workspace.pathError? path with
  | some error =>
    rw [target_of_pathError hpath] at h
    cases h
  | none =>
    rcases segments_cases path with hslashes | ⟨before, last, slashes, hsegments, hlast, hslashes⟩
    · rw [target_of_slashes hpath hslashes] at h ⊢
      exact h
    · have hstart : workspace'.startOf path = workspace.startOf path := by
        unfold Workspace.startOf
        rw [hcurrent]
      rw [target_eq_of_segments hpath hsegments hlast hslashes] at h ⊢
      obtain ⟨place, hplace, rfl⟩ := map_eq_ok.1 h
      rw [hstart, FileTree.follow_of_kept hplace hkept]
      rfl

/-- Where no change can be aimed, nothing is found either. -/
theorem locate_of_target_error {error : IoError} (h : target path workspace = .error error) :
    workspace.locate path = .error error := by
  cases hpath : Workspace.pathError? path with
  | some error' =>
    rw [target_of_pathError hpath] at h
    cases h
    unfold Workspace.locate
    rw [hpath]
  | none =>
    obtain ⟨before, slashes, named, hsegments, hslashes, htarget⟩ := target_eq hpath
    rw [htarget] at h
    rw [locate_eq_follow hpath, hsegments, FileTree.follow_append]
    cases hfollow : workspace.tree.follow (workspace.startOf path) before with
    | error e =>
      rw [hfollow] at h
      cases h
      rfl
    | ok place =>
      rw [hfollow] at h
      cases h

end FileAction

end LocaleCatalog
