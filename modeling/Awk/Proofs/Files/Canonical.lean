import Awk.Proofs.Files.Confinement
import Awk.Proofs.Table

/-!
# Paths of files in memory

Files in memory are known by their paths, so every spelling of a name has to
lead to one and the same path.  The paths that names lead to start with a slash,
or with two, and are made of names behind it.  Such a path is what it leads to
itself, from every directory, and so a file is found under the path it was
stored with.
-/

namespace Awk

namespace Path

/-- A path with one slash or two at its front, behind which no component is
empty, a dot or a double dot. -/
def IsCanonical (path : String) : Prop :=
  ∃ rest, (path = "/" ++ rest ∨ path = "//" ++ rest) ∧
    (rest = "" ∨ ∀ part ∈ components rest, IsName part)

def spelled (slashes : Nat) (names : List String) : String :=
  String.ofList (List.replicate slashes '/') ++ "/".intercalate names

theorem spelled_succ (slashes : Nat) (names : List String) :
    spelled (slashes + 1) names = "/" ++ spelled slashes names := by
  simp [spelled, ← String.toList_inj, List.replicate_succ]

/-! ## Places of paths -/

theorem place_slash (path : String) : place ("/" ++ path) = place path := by
  have front : components "" = [""] := rfl
  have cut : components ("/" ++ path) = "" :: components path := by
    simpa [front] using components_append "" path
  simp [place, cut, visit]

theorem foldl_visit_names {names : List String} (named : ∀ n ∈ names, IsName n)
    (here : List String) :
    names.foldl visit here = here ++ names := by
  induction names generalizing here with
  | nil => simp
  | cons name names ih =>
      simp only [List.forall_mem_cons] at named
      obtain ⟨written, dot, dots, -⟩ := named.1
      simp [visit, written, dot, dots, ih named.2]

theorem place_intercalate {names : List String}
    (named : ∀ n ∈ names, IsName n) :
    place ("/".intercalate names) = names := by
  by_cases empty : names = []
  · subst empty
    rfl
  · rw [place, components_intercalate (fun n among => (named n among).inline)
      empty, foldl_visit_names named, List.nil_append]

theorem place_spelled {names : List String} (named : ∀ n ∈ names, IsName n)
    (slashes : Nat) :
    place (spelled slashes names) = names := by
  induction slashes with
  | zero => simpa [spelled] using place_intercalate named
  | succ slashes ih => rw [spelled_succ, place_slash, ih]

/-! ## Slashes at the front -/

theorem head?_intercalate {names : List String}
    (named : ∀ n ∈ names, IsName n) :
    ("/".intercalate names).toList.head? ≠ some '/' := by
  cases names with
  | nil => simp
  | cons name names =>
      obtain ⟨written, -, -, inline⟩ := named name (by simp)
      obtain ⟨c, cs, first⟩ :=
        List.exists_cons_of_ne_nil (mt String.toList_eq_nil_iff.1 written)
      have other : c ≠ '/' := by
        rintro rfl
        simp [first] at inline
      cases names <;> simp [first, other]

theorem leadingSlashes_spelled {names : List String}
    (named : ∀ n ∈ names, IsName n) {slashes : Nat}
    (few : slashes = 1 ∨ slashes = 2) :
    leadingSlashes (spelled slashes names) = slashes := by
  have other := head?_intercalate named
  cases chars : ("/".intercalate names).toList with
  | nil => rcases few with rfl | rfl <;> simp_all [leadingSlashes, spelled]
  | cons c cs =>
      have solid : c ≠ '/' := by simpa [chars] using other
      rcases few with rfl | rfl <;> simp_all [leadingSlashes, spelled]

theorem leadingSlashes_of_isAbsolute {path : String}
    (rooted : isAbsolute path = true) :
    leadingSlashes path = 1 ∨ leadingSlashes path = 2 := by
  unfold leadingSlashes
  split
  · simp
  · simp
  · simp
  · simp_all [isAbsolute, List.head?_eq_some_iff]

theorem isAbsolute_spelled {slashes : Nat} (few : slashes = 1 ∨ slashes = 2)
    (names : List String) :
    isAbsolute (spelled slashes names) = true := by
  rcases few with rfl | rfl <;> simp [isAbsolute, spelled]

/-! ## Normal forms -/

theorem normalize_eq {path : String} (rooted : isAbsolute path = true) :
    normalize path = spelled (leadingSlashes path) (place path) := by
  have reduced :=
    foldl_step (fun _ => inline_of_mem_components path) [] (by simp)
  have slashes := leadingSlashes_of_isAbsolute rooted
  have some_slash : (leadingSlashes path != 0) = true := by
    rw [bne_iff_ne]
    omega
  have parts : reduce (leadingSlashes path != 0) (components path) =
      place path := by
    rw [some_slash]
    simpa [reduce, place] using reduced.1
  have solid : spelled (leadingSlashes path) (place path) ≠ "" := by
    rcases slashes with one | two <;> simp [spelled, *]
  unfold spelled at solid ⊢
  simp only [normalize, parts, if_neg solid]

theorem intercalate_components (path : String) :
    "/".intercalate (components path) = path := by
  rw [← String.toList_inj, String.toList_intercalate, components,
    Text.splitOn_eq]
  simp [Function.comp_def, List.intercalate_splitOn]

/-- Canonical paths are the paths of names with one slash or two at their
front. -/
theorem isCanonical_iff {path : String} :
    IsCanonical path ↔
      ∃ slashes names, (slashes = 1 ∨ slashes = 2) ∧ (∀ n ∈ names, IsName n) ∧
      path = spelled slashes names := by
  constructor
  · rintro ⟨rest, front, solid⟩
    obtain ⟨names, named, rfl⟩ : ∃ names, (∀ n ∈ names, IsName n) ∧
        rest = "/".intercalate names := by
      rcases solid with rfl | named
      · exact ⟨[], by simp, rfl⟩
      · exact ⟨components rest, named, (intercalate_components rest).symm⟩
    rcases front with rfl | rfl
    · exact ⟨1, names, .inl rfl, named, rfl⟩
    · exact ⟨2, names, .inr rfl, named, rfl⟩
  · rintro ⟨slashes, names, few, named, rfl⟩
    refine ⟨"/".intercalate names, ?_, ?_⟩
    · rcases few with rfl | rfl
      · exact .inl rfl
      · exact .inr rfl
    · by_cases empty : names = []
      · exact .inl (by simp [empty])
      · rw [components_intercalate (fun n among => (named n among).inline)
          empty]
        exact .inr named

theorem isCanonical_normalize {path : String}
    (rooted : isAbsolute path = true) : IsCanonical (normalize path) :=
  isCanonical_iff.2 ⟨leadingSlashes path, place path,
    leadingSlashes_of_isAbsolute rooted, place_names path, normalize_eq rooted⟩

/-- A path leads where its normal form leads. -/
theorem place_normalize {path : String} (rooted : isAbsolute path = true) :
    place (normalize path) = place path := by
  rw [normalize_eq rooted, place_spelled (place_names path)]

theorem IsCanonical.isAbsolute {path : String} (canonical : IsCanonical path) :
    isAbsolute path = true := by
  obtain ⟨slashes, names, few, -, rfl⟩ := isCanonical_iff.1 canonical
  exact isAbsolute_spelled few names

theorem IsCanonical.normalize_eq_self {path : String}
    (canonical : IsCanonical path) : normalize path = path := by
  rw [normalize_eq canonical.isAbsolute]
  obtain ⟨slashes, names, few, named, rfl⟩ := isCanonical_iff.1 canonical
  rw [leadingSlashes_spelled named few, place_spelled named]

theorem isAbsolute_join {base : String} (rooted : isAbsolute base = true)
    (name : String) :
    isAbsolute (join base name) = true := by
  unfold join
  split
  · assumption
  · have first : base.toList.head? = some '/' := by
      simpa [isAbsolute] using rooted
    split <;> simp [isAbsolute, first]

end Path

/-! ## Files by their paths -/

theorem isAbsolute_base (cwd : Option String)
    (rooted : ∀ directory ∈ givenDirectory cwd,
      Path.isAbsolute directory = true) :
    Path.isAbsolute ((givenDirectory cwd).getD "/") = true := by
  cases given : givenDirectory cwd with
  | none => decide
  | some directory => exact rooted directory given

theorem memoryPath_of_isCanonical {path : String}
    (canonical : Path.IsCanonical path) (cwd : Option String) :
    memoryPath cwd path = path := by
  simp [memoryPath, Path.join, canonical.isAbsolute,
    canonical.normalize_eq_self]

theorem FileSystem.read_ofFiles (before : List (String × String))
    (name text : String) {after : List (String × String)}
    (last : ∀ file ∈ after, memoryPath (some "/") file.1 ≠
      memoryPath (some "/") name) :
    (ofFiles (before ++ (name, text) :: after)).read
      (memoryPath (some "/") name) = .ok text := by
  have later : ∀ pair ∈ after.map fun file =>
    (memoryPath (some "/") file.1, file.2),
    pair.1 ≠ memoryPath (some "/") name := by
    simpa only [List.forall_mem_map] using last
  have kept :=
    Table.get?_ofList (before.map fun file => (memoryPath (some "/") file.1,
      file.2)) text later
  simp only [ofFiles, read, List.map_append, List.map_cons, kept]

/-- From a directory with an absolute path, or from none, every name leads to a
canonical path of the place where it leads, and that path leads to itself from
every directory.  So a file is found under the path it was stored with, unless
another one was stored there after it. -/
theorem memory_paths_canonical (cwd : Option String)
    (rooted : ∀ directory ∈ givenDirectory cwd,
      Path.isAbsolute directory = true) (name : String) :
    let path := memoryPath cwd name
    Path.IsCanonical path ∧ Path.place path =
      Path.place (Path.join ((givenDirectory cwd).getD "/") name) ∧
    (∀ elsewhere, memoryPath elsewhere path = path) ∧
    ∀ (before after : List (String × String)) (stored text : String),
        let key := memoryPath (some "/") stored
        let files := FileSystem.ofFiles (before ++ (stored, text) :: after)
        (∀ file ∈ after, memoryPath (some "/") file.1 ≠ key) →
        (∀ elsewhere, files.resolve elsewhere key = some key) ∧
        files.read key = .ok text := by
  intro path
  have joined := Path.isAbsolute_join (isAbsolute_base cwd rooted) name
  have canonical : Path.IsCanonical path := Path.isCanonical_normalize joined
  refine ⟨canonical, Path.place_normalize joined,
    memoryPath_of_isCanonical canonical, ?_⟩
  intro before after stored text key files last
  have fromTop :=
    Path.isAbsolute_join (isAbsolute_base (some "/") (by decide)) stored
  have canonicalKey : Path.IsCanonical key := Path.isCanonical_normalize fromTop
  refine ⟨fun elsewhere => ?_, FileSystem.read_ofFiles before stored text last⟩
  simp [files, FileSystem.ofFiles, FileSystem.resolve,
    memoryPath_of_isCanonical canonicalKey]

theorem doubled_slash_kept_from_usr :
    (∀ directory ∈ givenDirectory (some "/usr/lib"),
      Path.isAbsolute directory = true) ∧
      Path.IsCanonical (memoryPath (some "/usr/lib") "//a/./b/../../../c") ∧
      memoryPath (some "/usr/lib") "//a/./b/../../../c" = "//c" ∧
      (∀ elsewhere, memoryPath elsewhere "//c" = "//c") ∧
      (FileSystem.ofFiles [("a", "1"), ("./b/../a", "2"),
        ("/", "3")]).read "/a" = .ok "2" := by
  have rooted : ∀ directory ∈ givenDirectory (some "/usr/lib"),
      Path.isAbsolute directory = true := by decide
  have whole :=
    memory_paths_canonical (some "/usr/lib") rooted "//a/./b/../../../c"
  have normal : memoryPath (some "/usr/lib") "//a/./b/../../../c" = "//c" := by
    decide
  have key : memoryPath (some "/") "./b/../a" = "/a" := by decide
  have found :=
    (whole.2.2.2 [("a", "1")] [("/", "3")] "./b/../a" "2" (by decide)).2
  refine ⟨rooted, whole.1, normal, ?_, ?_⟩
  · simpa only [normal] using whole.2.2.1
  · simpa only [key, List.cons_append, List.nil_append] using found

end Awk
