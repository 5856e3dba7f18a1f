import SchemaCodegen.Proofs.TextFile.Replacement

/-!
# All or nothing

Writing a text file either leaves the whole tree as it is, or puts the encoded text
where the path leads and changes nothing else; no temporary file outlives it.  The
same goes for a file that is read, transformed and written back.
-/

namespace SchemaCodegen
namespace TextFile

open FileTree

/-- The path holds the bytes in the later tree, and no other location has changed. -/
structure OnlyHolds
    (before : FileTree)
    (path : Path)
    (bytes : List UInt8)
    (after : FileTree) : Prop where
  /-- Reading the path gives the bytes. -/
  holds : after.read path = .ok bytes
  /-- Only the location that the path leads to has changed. -/
  others : ∃ parent name, before.place path = .ok (.named parent name) ∧
    ∀ location ≠ parent ++ [name], after.entry? location = before.entry? location
  /-- The working directory is the same. -/
  workingDirectory : after.workingDirectory = before.workingDirectory

/-- Either nothing has changed, or the path holds the text and nothing else has changed. -/
def AllOrNothing
    {α : Type}
    (policy : Utf8.Policy)
    (before : FileTree)
    (path : Path)
    (written : α → Text) :
    FileTree × Except Fault α → Prop
  | (after, .error _) => after = before
  | (after, .ok result) =>
      ∃ bytes, Utf8.encodeWith policy (written result) = .ok bytes ∧
        OnlyHolds before path bytes after

/--
What writing needs: a path that the operating system takes, room for a temporary file
beside it, bytes for the text, and a name that the path leads to and no directory has.
-/
structure CanWrite
    (policy : Utf8.Policy)
    (tree : FileTree)
    (path : Path)
    (content : Text) : Prop where
  /-- The operating system takes the path. -/
  usable : path.fault? = none
  /-- A temporary file can be created. -/
  temporary : ∃ result, tree.createTemporary path = .ok result
  /-- The text can be encoded. -/
  encodable : ∃ bytes, Utf8.encodeWith policy content = .ok bytes
  /-- The path leads to a file or a free name. -/
  target : ∃ parent name, tree.place path = .ok (.named parent name) ∧
    tree.entry? (parent ++ [name]) ≠ some .directory

theorem Replaces.onlyHolds
    {before after : FileTree}
    {path : Path}
    {parent : Location}
    {name : FileName}
    {bytes : List UInt8}
    (replaces : Replaces before path parent name bytes after) :
    OnlyHolds before path bytes after where
  holds := by
    have placed := replaces.grows.place_eq replaces.placed
    exact read_eq_ok_iff.mpr ⟨replaces.usable, parent, name, placed, replaces.entry?_eq⟩
  others := ⟨parent, name, replaces.placed, fun _ => replaces.entry?_of_ne⟩
  workingDirectory := replaces.grows.workingDirectory

section

variable
  (policy : Utf8.Policy)
  (tree : FileTree)
  (path : Path)

theorem allOrNothing_write (content : Text) :
    AllOrNothing policy tree path (fun _ => content) (write policy tree path content) := by
  rcases result : write policy tree path content with ⟨after, fault | done⟩
  · exact write_error result
  · obtain ⟨_, bytes, parent, name, encoded, replaces⟩ := write_ok result
    exact ⟨bytes, encoded, replaces.onlyHolds⟩

theorem allOrNothing_update (transform : Text → Except Fault Text) :
    AllOrNothing policy tree path id (update policy tree path transform) := by
  rcases result : update policy tree path transform with ⟨after, fault | content⟩
  · exact update_error result
  · have updates := update_ok result
    obtain ⟨bytes, parent, name, encoded, replaces⟩ := updates.replaced
    exact ⟨bytes, encoded, replaces.onlyHolds⟩

theorem write_eq_ok_iff (content : Text) :
    (write policy tree path content).2 = .ok () ↔ CanWrite policy tree path content := by
  constructor
  · intro written
    obtain ⟨⟨file, created, made⟩, bytes, parent, name, encoded, replaces⟩ :=
      write_ok (Prod.ext rfl written)
    exact ⟨replaces.usable, ⟨_, made⟩, ⟨bytes, encoded⟩, parent, name, replaces.placed,
      replaces.noDirectory⟩
  · intro can
    obtain ⟨⟨file, created⟩, made⟩ := can.temporary
    obtain ⟨bytes, encoded⟩ := can.encodable
    obtain ⟨parent, name, placed, noDirectory⟩ := can.target
    rw [write_of_createTemporary made encoded can.usable placed noDirectory]

theorem update_eq_ok_iff
    (transform : Text → Except Fault Text)
    (content : Text) :
    (update policy tree path transform).2 = .ok content ↔
      ∃ text, read policy tree path = .ok text ∧ transform text = .ok content ∧
        CanWrite policy tree path content := by
  constructor
  · intro updated
    have updates := update_ok (Prod.ext rfl updated)
    obtain ⟨text, opened, transformed⟩ := updates.transformed
    obtain ⟨bytes, parent, name, encoded, replaces⟩ := updates.replaced
    exact ⟨text, opened, transformed, replaces.usable, updates.temporary, ⟨bytes, encoded⟩,
      parent, name, replaces.placed, replaces.noDirectory⟩
  · rintro ⟨text, opened, transformed, can⟩
    have written := (write_eq_ok_iff policy tree path content).mpr can
    have written_eq : write policy tree path content =
        ((write policy tree path content).1, .ok ()) := Prod.ext rfl written
    unfold update
    simp only [opened, transformed]
    rw [written_eq]

/--
A write and an update are all or nothing, whatever the tree, the path, the text and
the transform are.  A write succeeds exactly when nothing stands in its way, an update
when moreover the file can be read and its text transformed.
-/
theorem write_update_allOrNothing :
    (∀ content,
      AllOrNothing policy tree path (fun _ => content) (write policy tree path content) ∧
        ((write policy tree path content).2 = .ok () ↔ CanWrite policy tree path content)) ∧
      ∀ transform,
        AllOrNothing policy tree path id (update policy tree path transform) ∧
          ∀ content, (update policy tree path transform).2 = .ok content ↔
            ∃ text, read policy tree path = .ok text ∧ transform text = .ok content ∧
              CanWrite policy tree path content := by
  constructor
  · intro content
    exact ⟨allOrNothing_write policy tree path content,
      write_eq_ok_iff policy tree path content⟩
  · intro transform
    exact ⟨allOrNothing_update policy tree path transform,
      update_eq_ok_iff policy tree path transform⟩

end

end TextFile
end SchemaCodegen
