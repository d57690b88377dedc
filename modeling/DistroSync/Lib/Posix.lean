import Mathlib.Data.List.Infix

/-!
# Paths and their resolution

Paths are lists of characters, as a program assembles them; a location is the list of the
names that lead to it from the root.  `normalise` reads a path component by component,
relative to a working directory.  `locate` does the same inside a file system without
symbolic links and fails where the system call fails: every component, the empty one after
a final slash and `.` included, is looked up in a directory.
-/

namespace Posix

/-- The names from the root to a file or directory. -/
abbrev Location := List (List Char)

/-- The components between the slashes. -/
def components (path : List Char) : List (List Char) := path.splitOn '/'

/-- A component that stays where it is. -/
def Stays (component : List Char) : Prop := component = [] ∨ component = ['.']

instance (component : List Char) : Decidable (Stays component) :=
  inferInstanceAs (Decidable (_ ∨ _))

/-- The component of the parent directory. -/
def parent : List Char := ['.', '.']

/-- One component, seen from a directory. -/
def follow (directory : Location) (component : List Char) : Location :=
  if Stays component then directory
  else if component = parent then directory.dropLast
  else directory ++ [component]

/-- Where a path starts. -/
def origin (cwd : Location) (path : List Char) : Location :=
  if ['/'] <+: path then [] else cwd

/-- The location a path names when its components are resolved one after the other. -/
def normalise (cwd : Location) (path : List Char) : Location :=
  (components path).foldl follow (origin cwd path)

/-- `join` of two paths: an absolute second one wins. -/
def join (base path : List Char) : List Char :=
  if ['/'] <+: path then path
  else if base = [] ∨ ['/'] <:+ base then base ++ path
  else base ++ '/' :: path

/-- A location inside a directory, other than the directory itself. -/
def StrictlyBelow (location directory : Location) : Prop :=
  ∃ rest, rest ≠ [] ∧ location = directory ++ rest

/-! ## File systems -/

/-- What a location holds. -/
inductive Node (α : Type*) where
  | directory
  | file (content : α)

section FileSystem

variable {α : Type*}

/-- Follows the components from a directory. -/
def walk (nodes : Location → Option (Node α)) : Location → List (List Char) → Option Location
  | location, [] => some location
  | location, component :: rest =>
    match nodes location with
    | some .directory => walk nodes (follow location component) rest
    | _ => none

/-- The node that a path names: the empty path names none. -/
def locate (nodes : Location → Option (Node α)) (cwd : Location) (path : List Char) :
    Option (Node α) :=
  if path = [] then none
  else (walk nodes (origin cwd path) (components path)).bind nodes

variable {nodes : Location → Option (Node α)} {cwd location reached : Location}

theorem walk_append (earlier later : List (List Char)) :
    walk nodes location (earlier ++ later) =
      (walk nodes location earlier).bind fun halfway => walk nodes halfway later := by
  induction earlier generalizing location with
  | nil => rfl
  | cons component rest ih =>
    rw [List.cons_append, walk, walk]
    split
    · exact ih
    · rfl

/-- A walk whose components all stay ends in the directory where it began. -/
theorem walk_stays {path : List (List Char)} (nonempty : path ≠ []) (stays : ∀ c ∈ path, Stays c)
    (walked : walk nodes location path = some reached) : nodes reached = some .directory := by
  induction path generalizing location with
  | nil => exact absurd rfl nonempty
  | cons component rest ih =>
    rw [walk] at walked
    split at walked
    · rename_i isDirectory
      have still : follow location component = location :=
        if_pos (stays component List.mem_cons_self)
      rw [still] at walked
      cases rest with
      | nil =>
        cases walked
        exact isDirectory
      | cons next rest =>
        exact ih (List.cons_ne_nil _ _)
          (fun c isLater => stays c (List.mem_cons_of_mem _ isLater)) walked
    · cases walked

end FileSystem

/-! ## Joins -/

theorem components_ne_nil (path : List Char) : components path ≠ [] :=
  List.splitOnP_ne_nil _ _

theorem components_append_slash (base path : List Char) :
    components (base ++ '/' :: path) = components base ++ components path :=
  List.splitOnP_append_cons base path (by simp)

theorem infix_intercalate (separator : List Char) {parts : List (List Char)} {part : List Char}
    (isPart : part ∈ parts) : part <:+: separator.intercalate parts := by
  induction parts with
  | nil => cases isPart
  | cons first rest ih =>
    cases rest with
    | nil =>
      rw [List.mem_singleton.mp isPart]
      simp [List.intercalate]
    | cons second rest =>
      rw [List.intercalate_cons_cons]
      rcases List.mem_cons.mp isPart with rfl | isLater
      · rw [List.append_assoc]
        exact (List.prefix_append _ _).isInfix
      · exact (ih isLater).trans (List.suffix_append _ _).isInfix

/-- Each component is a part of the path. -/
theorem infix_of_mem_components {path component : List Char}
    (isComponent : component ∈ components path) : component <:+: path := by
  have isPart := infix_intercalate ['/'] isComponent
  rwa [components, List.intercalate_splitOn] at isPart

/-- A joined relative path is read after what the base is read as. -/
theorem components_join (base : List Char) {path : List Char} (relative : ¬['/'] <+: path) :
    ∃ leading, components (join base path) = leading ++ components path ∧
      ∀ cwd, leading.foldl follow (origin cwd (join base path)) = normalise cwd base := by
  have sameOrigin : ∀ cwd rest, base ≠ [] → origin cwd (base ++ rest) = origin cwd base := by
    intro cwd rest nonempty
    obtain ⟨c, tail, rfl⟩ := List.exists_cons_of_ne_nil nonempty
    simp [origin]
  rw [join, if_neg relative]
  split
  · rename_i closed
    by_cases empty : base = []
    · subst empty
      refine ⟨[], rfl, fun cwd => ?_⟩
      simp [normalise, components, origin, relative, follow, Stays]
    · obtain ⟨stem, rfl⟩ := closed.resolve_left empty
      refine ⟨components stem, ?_, fun cwd => ?_⟩
      · rw [List.append_assoc, List.singleton_append, components_append_slash]
      · rw [sameOrigin cwd path empty, normalise, components_append_slash, List.foldl_append]
        simp [components, follow, Stays]
  · rename_i isOpen
    refine ⟨components base, components_append_slash base path, fun cwd => ?_⟩
    rw [sameOrigin cwd ('/' :: path) fun empty => isOpen (.inl empty)]
    rfl

/-- Without the parent's component, resolution only descends. -/
theorem foldl_follow {path : List (List Char)} (noParent : parent ∉ path) (location : Location) :
    path.foldl follow location = location ++ path.filter fun component => ¬Stays component := by
  induction path generalizing location with
  | nil => simp
  | cons component rest ih =>
    obtain ⟨notParent, noParent⟩ := not_or.mp (List.mem_cons.not.mp noParent)
    rw [List.foldl_cons, ih noParent]
    by_cases stays : Stays component
    · simp [follow, stays]
    · simp [follow, stays, Ne.symm notParent]

/-- **A file named by a relative path without the parent's component is strictly below the
base.** -/
theorem file_below {α : Type*} {nodes : Location → Option (Node α)} {cwd : Location}
    {base path : List Char} {content : α} (relative : ¬['/'] <+: path)
    (noParent : parent ∉ components path)
    (isFile : locate nodes cwd (join base path) = some (.file content)) :
    StrictlyBelow (normalise cwd (join base path)) (normalise cwd base) := by
  obtain ⟨leading, isJoined, isBase⟩ := components_join base relative
  refine ⟨(components path).filter fun component => ¬Stays component, ?_, ?_⟩
  · intro allStay
    rw [List.filter_eq_nil_iff] at allStay
    have stays : ∀ component ∈ components path, Stays component := by simpa using allStay
    rw [locate] at isFile
    split at isFile
    · cases isFile
    · obtain ⟨reached, walked, isNode⟩ := Option.bind_eq_some_iff.mp isFile
      rw [isJoined, walk_append] at walked
      obtain ⟨halfway, -, walked⟩ := Option.bind_eq_some_iff.mp walked
      rw [walk_stays (components_ne_nil path) stays walked] at isNode
      cases isNode
  · rw [normalise, isJoined, List.foldl_append, isBase, foldl_follow noParent]

end Posix
