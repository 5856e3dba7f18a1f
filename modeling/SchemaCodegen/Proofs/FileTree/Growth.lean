import SchemaCodegen.FileTree.Access
import SchemaCodegen.Proofs.FileTree.Entries
import SchemaCodegen.Proofs.FileTree.Following

/-!
# Growing file trees

A path that can be followed in a tree leads to the same place in every tree that
keeps its directories.  A tree grows when entries are added and files get new
contents, while whatever is there stays there and stays a directory or a file.
-/

namespace SchemaCodegen
namespace FileTree

/-- Every directory of one tree is one of the other tree. -/
structure KeepsDirectories (before after : FileTree) : Prop where
  /-- The working directory is the same. -/
  workingDirectory : after.workingDirectory = before.workingDirectory
  /-- Every directory is still there. -/
  directory {location : Location} :
    before.entry? location = some .directory → after.entry? location = some .directory

namespace KeepsDirectories

variable {before after : FileTree} (keeps : KeepsDirectories before after)
include keeps

theorem step_eq
    {directory reached : Location}
    {name : FileName}
    (stepped : before.step directory name = .ok reached) :
    after.step directory name = .ok reached := by
  unfold step at stepped ⊢
  by_cases goesUp : name = up
  · simpa [goesUp] using stepped
  · by_cases long : isLongName name = true
    · simp [goesUp, long] at stepped
    · simp only [goesUp, long, if_false, Bool.false_eq_true] at stepped ⊢
      cases held : before.entry? (directory ++ [name]) with
      | none => simp [held] at stepped
      | some entry =>
          cases entry with
          | file content => simp [held] at stepped
          | directory =>
              simp only [held] at stepped
              simp only [keeps.directory held]
              exact stepped

theorem walk_eq
    {directory reached : Location}
    {names : List FileName}
    (walked : before.walk directory names = .ok reached) :
    after.walk directory names = .ok reached := by
  induction names generalizing directory with
  | nil => simpa [walk] using walked
  | cons name names inductionHypothesis =>
      cases stepped : before.step directory name with
      | error refusal => simp [walk, stepped] at walked
      | ok next =>
          simp only [walk, stepped] at walked
          simp only [walk, keeps.step_eq stepped]
          exact inductionHypothesis walked

theorem start_eq (path : Path) : after.start path = before.start path := by
  rw [start, start, keeps.workingDirectory]

theorem spelled_eq (path : Path) : after.spelled path = before.spelled path := by
  rw [spelled, spelled, keeps.start_eq]

theorem place_eq
    {path : Path}
    {place : Place}
    (placed : before.place path = .ok place) :
    after.place path = .ok place := by
  simp only [FileTree.place, follow_eq_walk] at placed ⊢
  by_cases long : pathLimit < (Utf8.encode path.text).length
  · simp [long] at placed
  · simp only [long, if_false] at placed ⊢
    cases walked : before.walk (before.start path) (names path).dropLast with
    | error refusal => simp [walked] at placed
    | ok parent =>
        simp only [walked] at placed
        rw [keeps.start_eq, keeps.walk_eq walked]
        exact placed

theorem isDirectory_eq
    {path : Path}
    (isDirectory : before.isDirectory path = true) :
    after.isDirectory path = true := by
  rw [isDirectory_iff] at isDirectory ⊢
  rcases isDirectory with ⟨location, placed⟩ | ⟨parent, name, placed, held⟩
  · exact Or.inl ⟨location, keeps.place_eq placed⟩
  · exact Or.inr ⟨parent, name, keeps.place_eq placed, keeps.directory held⟩

end KeepsDirectories

/-- A file at a free location does not make a directory of anything. -/
theorem keepsDirectories_of_insert_file
    {tree : FileTree}
    {location : Location}
    (free : tree.entry? location = none)
    (content : List UInt8) :
    KeepsDirectories (tree.insert location (.file content)) tree where
  workingDirectory := (workingDirectory_insert tree location _).symm
  directory {other} held := by
    by_cases here : other = location
    · subst here
      rw [entry?_insert_self (by simp [free])] at held
      simp at held
    · rwa [entry?_insert_of_ne tree here] at held

/-- Directories stay directories, and files stay files with any content. -/
structure Grows (before after : FileTree) : Prop extends
    KeepsDirectories before after where
  /-- Every file is still there. -/
  file {location : Location} {content : List UInt8} :
    before.entry? location = some (.file content) →
      ∃ content, after.entry? location = some (.file content)

namespace Grows

theorem refl (tree : FileTree) : Grows tree tree :=
  ⟨⟨rfl, id⟩, fun held => ⟨_, held⟩⟩

theorem trans
    {first second third : FileTree}
    (early : Grows first second)
    (late : Grows second third) :
    Grows first third where
  workingDirectory := late.workingDirectory.trans early.workingDirectory
  directory held := late.directory (early.directory held)
  file held := by
    obtain ⟨content, held⟩ := early.file held
    exact late.file held

theorem insert_of_free
    {tree : FileTree}
    {location : Location}
    (free : tree.entry? location = none)
    (entry : Entry) :
    Grows tree (tree.insert location entry) where
  workingDirectory := workingDirectory_insert tree location entry
  directory {other} held := by
    have different : other ≠ location := by
      rintro rfl
      simp [free] at held
    rwa [entry?_insert_of_ne tree different]
  file {other content} held := by
    have different : other ≠ location := by
      rintro rfl
      simp [free] at held
    exact ⟨content, by rwa [entry?_insert_of_ne tree different]⟩

theorem setContent
    {tree : FileTree}
    {location : Location}
    (noDirectory : tree.entry? location ≠ some .directory)
    (content : List UInt8) :
    Grows tree (tree.setContent location content) where
  workingDirectory := workingDirectory_insert tree location _
  directory {other} held := by
    have different : other ≠ location := by
      rintro rfl
      exact noDirectory held
    rwa [FileTree.setContent, entry?_insert_of_ne tree different]
  file {other old} held := by
    by_cases same : other = location
    · subst same
      exact ⟨content, entry?_insert_self noDirectory _⟩
    · exact ⟨old, by rwa [FileTree.setContent, entry?_insert_of_ne tree same]⟩

end Grows
end FileTree
end SchemaCodegen
