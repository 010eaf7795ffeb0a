import Awk.Files.FileSystem
import Awk.Proofs.Text.Pieces
import Mathlib.Tactic.ByContra
import Mathlib.Tactic.Tauto

/-!
# Files behind a root

Whether a name stays behind the root is decided by comparing texts: the path
must be the root, or have the root and a slash at its front.  Here this is
compared with the place where a name leads, that is with the directories which
are entered and left along its components.  A path that is accepted is the
normal path of that place, and its components extend those of the root, whatever
dots, slashes and directories of similar names the name is made of.
-/

namespace Awk

namespace Path

def parts (path : String) : List String := (components path).filter (· ≠ "")

def visit (place : List String) (part : String) : List String :=
  if part = "" ∨ part = "." then place
  else if part = ".." then place.dropLast
  else place ++ [part]

def place (path : String) : List String := (components path).foldl visit []

def spell (place : List String) : String := "/" ++ "/".intercalate place

def IsNormal (path : String) : Prop := path = spell (parts path) ∧
    "." ∉ parts path ∧ ".." ∉ parts path

/-! ## Places -/

structure IsName (part : String) : Prop where
  written : part ≠ ""
  dot : part ≠ "."
  dots : part ≠ ".."
  inline : '/' ∉ part.toList

theorem inline_of_mem_components {part : String} (path : String)
    (among : part ∈ components path) : '/' ∉ part.toList := by
  obtain ⟨cs, piece, rfl⟩ := List.mem_map.1 among
  simpa using Text.not_mem_splitOn piece

theorem visit_names {here : List String} (names : ∀ n ∈ here, IsName n)
    {part : String} (inline : '/' ∉ part.toList) :
    ∀ n ∈ visit here part, IsName n := by
  unfold visit
  split
  · exact names
  · split
    · exact fun n among => names n (List.dropLast_subset here among)
    · rename_i solid dots
      have name : IsName part := ⟨by tauto, by tauto, dots, inline⟩
      simpa [or_imp, forall_and] using ⟨names, name⟩

theorem step_eq_visit {kept : List String} (names : ∀ n ∈ kept, IsName n)
    (part : String) :
    step true kept part = (visit kept.reverse part).reverse := by
  unfold step visit
  split
  · simp
  · split
    · cases kept with
      | nil => simp
      | cons last rest => simp [(names last (by simp)).dots]
    · simp

theorem foldl_step {components : List String}
    (inline : ∀ part ∈ components, '/' ∉ part.toList) (kept : List String)
    (names : ∀ n ∈ kept, IsName n) :
    (components.foldl (step true) kept).reverse =
      components.foldl visit kept.reverse ∧
      ∀ n ∈ components.foldl visit kept.reverse, IsName n := by
  induction components generalizing kept with
  | nil => simpa using names
  | cons part rest ih =>
      simp only [List.forall_mem_cons] at inline
      have next : ∀ n ∈ visit kept.reverse part, IsName n :=
        visit_names (by simpa using names) inline.1
      have later :=
        ih inline.2 (visit kept.reverse part).reverse (by simpa using next)
      simpa [step_eq_visit names part] using later

theorem absolute_eq_spell (directory name : String) :
    absolute directory name = spell (place (join directory name)) := by
  have reduced :=
    foldl_step (fun _ => inline_of_mem_components (join directory name)) []
      (by simp)
  simp [absolute, spell, reduce, place, reduced.1]

theorem place_names (path : String) : ∀ n ∈ place path, IsName n := by
  have reduced :=
    foldl_step (fun _ => inline_of_mem_components path) [] (by simp)
  simpa [place] using reduced.2

/-! ## Paths of places -/

theorem components_append (front rest : String) :
    components (front ++ "/" ++ rest) = components front ++
      components rest := by
  simp [components, Text.splitOn_eq, List.splitOn, List.splitOnP_append_cons]

theorem components_intercalate {names : List String}
    (inline : ∀ n ∈ names, '/' ∉ n.toList) (nonempty : names ≠ []) :
    components ("/".intercalate names) = names := by
  have cut : (['/'].intercalate (names.map String.toList)).splitOn '/' =
      names.map String.toList :=
    List.splitOn_intercalate '/' (by simpa using inline)
      (by simpa using nonempty)
  simp [components, Text.splitOn_eq, String.toList_intercalate, cut]

theorem components_spell {names : List String} (named : ∀ n ∈ names, IsName n)
    (nonempty : names ≠ []) :
    components (spell names) = "" :: names := by
  have front : components "" = [""] := rfl
  have cut := components_append "" ("/".intercalate names)
  rw [components_intercalate (fun n among => (named n among).inline) nonempty,
    front] at cut
  simpa [spell] using cut

theorem parts_spell {names : List String} (named : ∀ n ∈ names, IsName n) :
    parts (spell names) = names := by
  by_cases empty : names = []
  · subst empty
    rfl
  · rw [parts, components_spell named empty]
    simpa using fun n among => (named n among).written

theorem isNormal_spell {names : List String} (named : ∀ n ∈ names, IsName n) :
    IsNormal (spell names) := by
  unfold IsNormal
  rw [parts_spell named]
  exact ⟨rfl, fun among => (named _ among).dot rfl,
    fun among => (named _ among).dots rfl⟩

end Path

/-! ## Names that are accepted -/

theorem Text.isSome_dropFront? (front cs : List Char) :
    (dropFront? front cs).isSome ↔ front <+: cs := by
  induction front generalizing cs with
  | nil => simp [dropFront?]
  | cons f front ih =>
      cases cs with
      | nil => simp [dropFront?]
      | cons c cs =>
          rw [dropFront?, List.cons_prefix_cons, ← ih]
          split <;> simp_all

open Awk.Path (IsName spell parts components place join absolute)

/-- The root and a slash at the front of a path are the components of the root
at the front of its components. -/
theorem isInside_spell {top names : List String} (above : ∀ n ∈ top, IsName n)
    (named : ∀ n ∈ names, IsName n) :
    isInside (spell top) (spell names) ↔ top <+: names ∧
    (top = [] → names = []) := by
  have front : isInside (spell top) (spell names) ↔ spell names = spell top ∨
      ∃ rest, spell names = spell top ++ "/" ++ rest := by
    simp only [isInside, Bool.or_eq_true, beq_iff_eq, Text.isSome_dropFront?]
    refine or_congr_right ⟨fun ⟨rest, whole⟩ => ⟨String.ofList rest, ?_⟩,
      fun ⟨rest, whole⟩ => ⟨rest.toList, ?_⟩⟩
    · simp [← String.toList_inj, ← whole]
    · simp [whole]
  rw [front]
  constructor
  · rintro (same | ⟨rest, whole⟩)
    · obtain rfl : names = top := by
        rw [← Path.parts_spell named, same, Path.parts_spell above]
      exact ⟨List.prefix_rfl, id⟩
    · have cut : components (spell names) = components (spell top) ++
          components rest := by
        rw [whole, Path.components_append]
      have whole : parts (spell names) = parts (spell top) ++ parts rest := by
        simp [parts, cut]
      rw [Path.parts_spell named, Path.parts_spell above] at whole
      refine ⟨⟨parts rest, whole.symm⟩, ?_⟩
      -- Behind the top alone there would be two slashes, that is a name which
      -- is empty.
      rintro rfl
      by_contra nonempty
      have twice : components (spell []) = ["", ""] := rfl
      rw [Path.components_spell named nonempty, twice] at cut
      have first : "" ∈ names := by simp_all
      exact (named "" first).written rfl
  · rintro ⟨⟨rest, rfl⟩, top_only⟩
    by_cases last : rest = []
    · simp [last]
    · have first : top ≠ [] := by
        rintro rfl
        exact last (by simpa using top_only rfl)
      right
      refine ⟨"/".intercalate rest, ?_⟩
      simp [spell, String.intercalate_append_of_ne_nil first last,
        String.append_assoc]

theorem LocalFiles.resolve_eq_some_iff (files : LocalFiles) {top : String}
    (root : files.root = some top) (cwd : Option String) (name : String)
    {joined path : String}
    (whole : joined =
      join ((givenDirectory cwd).getD top) (expandHome files.homes name)) :
    files.resolve cwd name = some path ↔
      path = absolute files.directory joined ∧ '\x00' ∉ joined.toList ∧
        isInside top path := by
  have base : (givenDirectory cwd <|> some top).getD files.directory =
      (givenDirectory cwd).getD top := by
    cases givenDirectory cwd <;> rfl
  simp only [LocalFiles.resolve, root, base, ← whole, List.contains_iff_mem]
  grind

/--
A name is refused, or stands for the normal path of the place where it leads,
and the components of that path extend those of the root.  It is refused if it
leads out of the root or holds the character zero, also where a double dot takes
that back.  If the root is the top of the files, nothing but the top itself is
accepted.
-/
theorem resolve_stays_behind_root (root directory : String)
    (homes : Table String) (disk : Disk) (cwd : Option String) (name : String) :
    let files := LocalFiles.behind (some root) directory homes disk
    let top := absolute directory root
    let joined := join ((givenDirectory cwd).getD top) (expandHome homes name)
    let target := place (join directory joined)
    files.root = some top ∧ Path.IsNormal top ∧
      (∀ path, files.resolve cwd name = some path →
        Path.IsNormal path ∧ parts path = target ∧ parts top <+: parts path) ∧
      (files.resolve cwd name = none ↔
        '\x00' ∈ joined.toList ∨ ¬ parts top <+: target ∨
          parts top = [] ∧ target ≠ []) := by
  intro files top joined target
  have named : ∀ n ∈ target, IsName n := Path.place_names _
  have above := Path.place_names (join directory root)
  have spelled : top = spell (place (join directory root)) :=
    Path.absolute_eq_spell directory root
  have topParts : parts top = place (join directory root) := by
    rw [spelled, Path.parts_spell above]
  have accepted : ∀ path, files.resolve cwd name = some path ↔
      path = spell target ∧ '\x00' ∉ joined.toList ∧
        parts top <+: target ∧ (parts top = [] → target = []) := by
    intro path
    have inside := isInside_spell above named
    rw [← spelled, ← topParts] at inside
    rw [files.resolve_eq_some_iff (show files.root = some top from rfl) cwd name
      (rfl : joined = _), Path.absolute_eq_spell]
    refine and_congr_right ?_
    rintro rfl
    exact and_congr_right fun _ => inside
  refine ⟨rfl, spelled ▸ Path.isNormal_spell above, ?_, ?_⟩
  · intro path resolved
    obtain ⟨rfl, -, inside, -⟩ := (accepted path).1 resolved
    rw [Path.parts_spell named]
    exact ⟨Path.isNormal_spell named, rfl, inside⟩
  · rw [Option.eq_none_iff_forall_ne_some]
    simp only [ne_eq, accepted]
    grind

end Awk
