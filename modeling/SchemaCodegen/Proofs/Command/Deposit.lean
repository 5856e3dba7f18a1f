import SchemaCodegen.Command.Launch
import SchemaCodegen.Proofs.FileTree.Overwriting

/-!
# Deposits that land

A deposit lands unless a file is in the way of a directory, or a directory in the
way of a file.  What has landed once only overwrites files when it is left behind
again, in any tree that has grown in between.
-/

namespace SchemaCodegen

open FileTree

namespace FileTree

/--
What a change writes: it leaves these files behind, and only overwrites them when
it is made again in a tree that has grown since.
-/
structure Repeats
    (change : FileTree → FileTree)
    (writes : List Write)
    (tree : FileTree) : Prop where
  /-- The files are left behind. -/
  leaves : Leaves tree writes (change tree)
  /-- Next time the files are only overwritten. -/
  again : ∀ other, Grows (change tree) other → change other = overwrite writes other

namespace Repeats

theorem nothing (tree : FileTree) : Repeats id [] tree :=
  ⟨.nothing, fun _ _ => rfl⟩

theorem grows_again
    {change : FileTree → FileTree}
    {writes : List Write}
    {tree other : FileTree}
    (repeats : Repeats change writes tree)
    (grows : Grows (change tree) other) :
    Grows other (overwrite writes other) := by
  apply grows_overwrite
  intro write member
  obtain ⟨content, held⟩ := repeats.leaves.holds_file write member
  exact grows.file held

theorem comp
    {first second : FileTree → FileTree}
    {early late : List Write}
    {tree : FileTree}
    (repeatsFirst : Repeats first early tree)
    (repeatsSecond : Repeats second late (first tree)) :
    Repeats (fun tree => second (first tree)) (early ++ late) tree where
  leaves := repeatsFirst.leaves.append repeatsSecond.leaves
  again other grows := by
    have growsFirst := repeatsSecond.leaves.grows.trans grows
    have growsSecond := grows.trans (repeatsFirst.grows_again growsFirst)
    rw [overwrite_append, repeatsFirst.again other growsFirst,
      repeatsSecond.again _ growsSecond]

end Repeats

/-- A directory that could be created is not created again. -/
theorem repeats_makeDirectories
    {tree : FileTree}
    {path : Path}
    (isDirectory : (tree.makeDirectories path).1.isDirectory path = true) :
    Repeats (fun tree => (tree.makeDirectories path).1) [] tree where
  leaves := by
    have attempted := attempted_makeDirectories tree path
    generalize tree.makeDirectories path = attempt at attempted
    cases attempted with
    | there paved _ => exact .of_paved paved
    | refused _ paved => exact .of_paved paved
  again other grows := makeDirectories_of_isDirectory (grows.isDirectory_eq isDirectory)

theorem install_of_place
    {tree : FileTree}
    {path : Path}
    {parent : Location}
    {name : FileName}
    (placed : (tree.makeDirectories path.parent).1.place path = .ok (.named parent name))
    (noDirectory :
      FileTree.entry? (tree.makeDirectories path.parent).1 (parent ++ [name]) ≠
        some .directory)
    (content : List UInt8) :
    tree.install path (some content) =
      (tree.makeDirectories path.parent).1.setContent (parent ++ [name]) content := by
  unfold install
  simp only [placed]
  rfl

theorem place_of_install
    {tree : FileTree}
    {path : Path}
    {content : List UInt8}
    (found : (tree.install path (some content)).find path = .ok (.file content)) :
    ∃ parent name,
      (tree.makeDirectories path.parent).1.place path = .ok (.named parent name) ∧
      FileTree.entry? (tree.makeDirectories path.parent).1 (parent ++ [name]) ≠
        some .directory := by
  unfold install at found
  generalize (tree.makeDirectories path.parent).1 = created at found ⊢
  cases placed : created.place path with
  | error refusal => simp [placed, find] at found
  | ok place =>
      cases place with
      | directory location => simp [placed, find] at found
      | named parent name =>
          refine ⟨parent, name, rfl, ?_⟩
          intro held
          simp [placed, held, find] at found

/-- A file that could be written is only overwritten next time. -/
theorem repeats_install_file
    {tree : FileTree}
    {path : Path}
    {content : List UInt8}
    (found : (tree.install path (some content)).find path = .ok (.file content)) :
    Repeats (fun tree => tree.install path (some content))
      [(tree.spelled path, content)] tree := by
  obtain ⟨parent, name, placed, noDirectory⟩ := place_of_install found
  have repeats := repeats_makeDirectories (isDirectory_parent placed)
  have spelled_eq : tree.spelled path = parent ++ [name] := by
    rw [← repeats.leaves.grows.spelled_eq, (leadsTo_of_place placed).spelled_eq]
  have written := install_of_place placed noDirectory content
  have grows := Grows.setContent noDirectory content
  rw [spelled_eq]
  refine ⟨?_, fun other growsOther => ?_⟩
  · rw [written]
    exact .file content repeats.leaves noDirectory
  · rw [written] at growsOther
    have there : (other.makeDirectories path.parent).1 = other :=
      repeats.again other (grows.trans growsOther)
    obtain ⟨old, held⟩ := growsOther.file (entry?_insert_self noDirectory (.file content))
    rw [install_of_place, there]
    · rfl
    · rw [there]
      exact (grows.trans growsOther).place_eq placed
    · rw [there, held]
      simp

end FileTree

namespace Deposit

/-- What is at the path of a deposit that has landed. -/
def entry (deposit : Deposit) : Entry :=
  match deposit.content with
  | none => .directory
  | some content => .file content

/-- A deposit lands when its path leads to it afterwards. -/
def Lands (deposit : Deposit) (tree : FileTree) : Prop :=
  (tree.install deposit.path deposit.content).find deposit.path = .ok deposit.entry

/-- All deposits land, one after the other. -/
def AllLand : List Deposit → FileTree → Prop
  | [], _ => True
  | deposit :: rest, tree =>
      deposit.Lands tree ∧ AllLand rest (tree.install deposit.path deposit.content)

instance (deposit : Deposit) (tree : FileTree) : Decidable (deposit.Lands tree) :=
  match found : (tree.install deposit.path deposit.content).find deposit.path with
  | .ok entry => decidable_of_iff (entry = deposit.entry) (by simp [Lands, found])
  | .error _ => .isFalse (by simp [Lands, found])

instance decidableAllLand :
    (deposits : List Deposit) → (tree : FileTree) → Decidable (AllLand deposits tree)
  | [], _ => .isTrue trivial
  | deposit :: rest, tree =>
      have := decidableAllLand rest (tree.install deposit.path deposit.content)
      inferInstanceAs (Decidable (_ ∧ _))

theorem Lands.repeats
    {deposit : Deposit}
    {tree : FileTree}
    (lands : deposit.Lands tree) :
    ∃ writes,
      Repeats (fun tree => tree.install deposit.path deposit.content) writes tree ∧
      (deposit.content ≠ none → tree.spelled deposit.path ∈ writes.map Prod.fst) := by
  obtain ⟨path, content⟩ := deposit
  cases content with
  | none =>
      have found : (tree.makeDirectories path).1.find path = .ok .directory := lands
      have isDirectory : (tree.makeDirectories path).1.isDirectory path = true := by
        rw [FileTree.isDirectory, found]
      exact ⟨[], repeats_makeDirectories isDirectory, by simp⟩
  | some content => exact ⟨_, repeats_install_file lands, by simp⟩

/-- Deposits that have landed only overwrite files when they are left behind again. -/
theorem AllLand.repeats
    {deposits : List Deposit}
    {tree : FileTree}
    (lands : AllLand deposits tree) :
    ∃ writes, Repeats (installAll deposits) writes tree ∧
      ∀ deposit ∈ deposits, deposit.content ≠ none →
        tree.spelled deposit.path ∈ writes.map Prod.fst := by
  induction deposits generalizing tree with
  | nil => exact ⟨[], Repeats.nothing tree, by simp⟩
  | cons first rest inductionHypothesis =>
      obtain ⟨early, repeatsFirst, writtenFirst⟩ := lands.1.repeats
      obtain ⟨late, repeatsRest, writtenRest⟩ := inductionHypothesis lands.2
      refine ⟨early ++ late, repeatsFirst.comp repeatsRest, ?_⟩
      intro deposit member isFile
      rw [List.map_append, List.mem_append]
      rcases List.mem_cons.mp member with rfl | later
      · exact Or.inl (writtenFirst isFile)
      · have written := writtenRest deposit later isFile
        rw [repeatsFirst.leaves.grows.spelled_eq] at written
        exact Or.inr written

end Deposit
end SchemaCodegen
