import SchemaCodegen.Proofs.FileTree.Growth

/-!
# Creating directories

Creating a directory with its missing parents adds directories on the way to it
and changes nothing else.  Where it succeeds the directory is there, and creating
it again changes nothing.
-/

namespace SchemaCodegen
namespace FileTree

theorem makeDirectory_eq_ok
    {tree after : FileTree}
    {path : Path}
    (made : tree.makeDirectory path = .ok after) :
    ∃ parent name, tree.place path = .ok (.named parent name) ∧
      tree.entry? (parent ++ [name]) = none ∧
      after = tree.insert (parent ++ [name]) .directory := by
  unfold makeDirectory at made
  cases placed : tree.place path with
  | error refusal => simp [placed] at made
  | ok place =>
      cases place with
      | directory location => simp [placed] at made
      | named parent name =>
          simp only [placed] at made
          by_cases taken : (tree.entry? (parent ++ [name])).isSome = true
          · simp [taken] at made
          · simp only [taken, Bool.false_eq_true, if_false, Except.ok.injEq] at made
            exact ⟨parent, name, rfl, by simpa using taken, made.symm⟩

theorem makeDirectory_of_isDirectory
    {tree : FileTree}
    {path : Path}
    (isDirectory : tree.isDirectory path = true) :
    tree.makeDirectory path = .error .taken := by
  rw [isDirectory_iff] at isDirectory
  unfold makeDirectory
  rcases isDirectory with ⟨location, placed⟩ | ⟨parent, name, placed, held⟩
  · simp [placed]
  · simp [placed, held]

theorem isDirectory_of_makeDirectory
    {tree after : FileTree}
    {path : Path}
    (made : tree.makeDirectory path = .ok after) :
    after.isDirectory path = true := by
  obtain ⟨parent, name, placed, free, rfl⟩ := makeDirectory_eq_ok made
  have grows := Grows.insert_of_free free .directory
  have off : tree.entry? (parent ++ [name]) ≠ some .directory := by simp [free]
  rw [isDirectory_iff]
  exact Or.inr ⟨parent, name, grows.place_eq placed, entry?_insert_self off _⟩

/--
Directories are created one after the other, each at a free name that some of the
leading parts of a path lead to.
-/
inductive Paved (root : Root) (parts : List Text) (before : FileTree) :
    FileTree → Prop
  /-- No directory is created. -/
  | nothing : Paved root parts before before
  /-- One more directory is created. -/
  | created
      {tree : FileTree}
      {leading : List Text}
      {parent : Location}
      {name : FileName} :
      Paved root parts before tree →
      leading <+: parts →
      tree.place ⟨root, leading⟩ = .ok (.named parent name) →
      tree.entry? (parent ++ [name]) = none →
      Paved root parts before (tree.insert (parent ++ [name]) .directory)

namespace Paved

variable {root : Root} {parts longer : List Text} {before after : FileTree}

theorem extend
    (paved : Paved root parts before after)
    (extended : parts <+: longer) :
    Paved root longer before after := by
  induction paved with
  | nothing => exact .nothing
  | created _ leads placed free inductionHypothesis =>
      exact .created inductionHypothesis (leads.trans extended) placed free

theorem of_makeDirectory
    {tree : FileTree}
    (paved : Paved root parts before tree)
    (made : tree.makeDirectory ⟨root, parts⟩ = .ok after) :
    Paved root parts before after := by
  obtain ⟨parent, name, placed, free, rfl⟩ := makeDirectory_eq_ok made
  exact .created paved (List.prefix_refl parts) placed free

end Paved

/-- How an attempt to create a directory with its parents may come out. -/
inductive Attempted (root : Root) (parts : List Text) (before : FileTree) :
    Attempt → Prop
  /-- The directory is there, and so is the way to it. -/
  | there {after : FileTree} :
      Paved root parts before after →
      after.isDirectory ⟨root, parts⟩ = true →
      Attempted root parts before (after, none)
  /-- Only directories above it have been created. -/
  | refused {after : FileTree} (fault : AccessFault) :
      Paved root parts.dropLast before after →
      Attempted root parts before (after, some fault)

namespace Attempted

variable {root : Root} {parts : List Text} {before tree : FileTree}

theorem of_makeDirectory
    {after : FileTree}
    (paved : Paved root parts.dropLast before tree)
    (made : tree.makeDirectory ⟨root, parts⟩ = .ok after) :
    Attempted root parts before (after, none) :=
  .there ((paved.extend (List.dropLast_prefix parts)).of_makeDirectory made)
    (isDirectory_of_makeDirectory made)

theorem of_settle
    (paved : Paved root parts.dropLast before tree)
    (refusal : Refusal) :
    Attempted root parts before (tree.settle ⟨root, parts⟩ refusal) := by
  unfold settle
  split
  case isTrue isDirectory =>
      exact .there (paved.extend (List.dropLast_prefix parts)) isDirectory
  case isFalse => exact .refused _ paved

end Attempted

theorem attempted_makeReversed
    (root : Root)
    (room : Nat)
    (reversed : List Text)
    (tree : FileTree) :
    Attempted root reversed.reverse tree (makeReversed root room reversed tree) := by
  fun_induction makeReversed root room reversed tree with
  | case1 _ tree path after made => exact .of_makeDirectory .nothing made
  | case2 _ tree path refusal => exact .of_settle .nothing refusal
  | case3 _ _ _ _ _ _ made => exact .of_makeDirectory .nothing made
  | case4 => exact .refused _ .nothing
  | case5 last reversed tree path room _ after fault above inductionHypothesis =>
      rw [above] at inductionHypothesis
      cases inductionHypothesis with
      | refused _ paved =>
          refine .refused fault ?_
          simpa using paved.extend (List.dropLast_prefix _)
  | case6 last reversed tree path room _ parents above after made inductionHypothesis =>
      rw [above] at inductionHypothesis
      cases inductionHypothesis with
      | there paved _ => exact .of_makeDirectory (by simpa using paved) made
  | case7 last reversed tree path room _ parents above _ inductionHypothesis =>
      rw [above] at inductionHypothesis
      cases inductionHypothesis with
      | there paved _ => exact .refused _ (by simpa using paved)
  | case8 last reversed tree path room _ parents above refusal _ _ inductionHypothesis =>
      rw [above] at inductionHypothesis
      cases inductionHypothesis with
      | there paved _ => exact .of_settle (by simpa using paved) refusal
  | case9 _ _ _ tree path refusal => exact .of_settle .nothing refusal

/-- Creating a directory with its parents paves the way to it, or part of the way. -/
theorem attempted_makeDirectories
    (tree : FileTree)
    (path : Path) :
    Attempted path.root path.parts tree (tree.makeDirectories path) := by
  unfold makeDirectories
  split
  · exact .refused _ .nothing
  · simpa using attempted_makeReversed path.root (Nesting.limit - 1) path.parts.reverse tree

theorem makeReversed_of_isDirectory
    {tree : FileTree}
    {root : Root}
    {reversed : List Text}
    (room : Nat)
    (isDirectory : tree.isDirectory ⟨root, reversed.reverse⟩ = true) :
    makeReversed root room reversed tree = (tree, none) := by
  have taken := makeDirectory_of_isDirectory isDirectory
  have settled : tree.settle ⟨root, reversed.reverse⟩ .taken = (tree, none) := by
    rw [settle, if_pos isDirectory]
  cases reversed with
  | nil =>
      unfold makeReversed
      rw [List.reverse_nil] at taken settled
      simp only [taken]
      exact settled
  | cons last reversed =>
      unfold makeReversed
      simp only [taken]
      exact settled

/-- A directory that is there is not created again. -/
theorem makeDirectories_of_isDirectory
    {tree : FileTree}
    {path : Path}
    (isDirectory : tree.isDirectory path = true) :
    (tree.makeDirectories path).1 = tree := by
  unfold makeDirectories
  split
  · rfl
  · rw [makeReversed_of_isDirectory]
    simpa using isDirectory

/-- A directory that has been created can be created again in every later tree. -/
theorem makeDirectories_again
    {before after other : FileTree}
    {path : Path}
    (made : before.makeDirectories path = (after, none))
    (grows : Grows after other) :
    other.makeDirectories path = (other, none) := by
  have attempted := attempted_makeDirectories before path
  rw [made] at attempted
  cases attempted with
  | there _ isDirectory =>
      have isDirectoryThere := grows.isDirectory_eq isDirectory
      unfold makeDirectories at made ⊢
      cases usable : path.fault? with
      | some fault => simp [usable] at made
      | none =>
          simp only
          exact makeReversed_of_isDirectory _ (by simpa using isDirectoryThere)

end FileTree
end SchemaCodegen
