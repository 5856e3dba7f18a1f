import SchemaCodegen.Proofs.FileTree.Temporary
import SchemaCodegen.TextFile

/-!
# Replacing text files

A text file is replaced as a whole or not at all.  On success its location holds
the encoded text and no other location has changed; on failure the tree is as
before.  What can be replaced in a tree can be replaced in every tree that it
grows into.
-/

namespace SchemaCodegen
namespace TextFile

open FileTree

/-- The file that a path names, or the free name it leads to, gets new bytes. -/
structure Replaces
    (before : FileTree)
    (path : Path)
    (parent : Location)
    (name : FileName)
    (content : List UInt8)
    (after : FileTree) : Prop where
  /-- The operating system takes the path. -/
  usable : path.fault? = none
  /-- The path leads to the name. -/
  placed : before.place path = .ok (.named parent name)
  /-- The name is not that of a directory. -/
  noDirectory : before.entry? (parent ++ [name]) ≠ some .directory
  /-- Only the content at that place is new. -/
  after_eq : after = before.setContent (parent ++ [name]) content

namespace Replaces

variable
  {before after : FileTree}
  {path : Path}
  {parent : Location}
  {name : FileName}
  {content : List UInt8}

theorem grows (replaces : Replaces before path parent name content after) :
    Grows before after := by
  rw [replaces.after_eq]
  exact Grows.setContent replaces.noDirectory content

theorem entry?_eq (replaces : Replaces before path parent name content after) :
    after.entry? (parent ++ [name]) = some (.file content) := by
  rw [replaces.after_eq, setContent]
  exact entry?_insert_self replaces.noDirectory _

theorem entry?_of_ne
    (replaces : Replaces before path parent name content after)
    {location : Location}
    (different : location ≠ parent ++ [name]) :
    after.entry? location = before.entry? location := by
  rw [replaces.after_eq, setContent]
  exact entry?_insert_of_ne before different _

end Replaces

section Temporary

variable
  {tree after : FileTree}
  {temporary : Temporary}
  {path : Path}
  {content : List UInt8}

/-- A filled temporary file is moved to where its path leads without it. -/
theorem replaces_of_replace
    (free : tree.entry? temporary.location = none)
    (replaced :
      (tree.insert temporary.location (.file content)).replace temporary path =
        .ok after) :
    ∃ parent name, Replaces tree path parent name content after := by
  have keeps := keepsDirectories_of_insert_file free content
  have grows := Grows.insert_of_free free (.file content)
  unfold replace at replaced
  rw [entry?_insert_self (by simp [free])] at replaced
  cases usable : path.fault? with
  | some fault => simp [usable] at replaced
  | none =>
      cases placed :
          (tree.insert temporary.location (.file content)).place path with
      | error refusal => simp [usable, placed] at replaced
      | ok place =>
          cases place with
          | directory location => simp [usable, placed] at replaced
          | named parent name =>
              simp only [usable, placed] at replaced
              rw [erase_insert (not_stores_of_entry?_eq_none free)] at replaced
              have noDirectory : tree.entry? (parent ++ [name]) ≠ some .directory := by
                intro held
                simp [grows.directory held] at replaced
              refine ⟨parent, name, usable, keeps.place_eq placed, noDirectory, ?_⟩
              split at replaced
              · contradiction
              · exact (Except.ok.inj replaced).symm

/-- A filled temporary file can be moved to every place that is no directory. -/
theorem replace_of_place
    {parent : Location}
    {name : FileName}
    (free : tree.entry? temporary.location = none)
    (usable : path.fault? = none)
    (placed : tree.place path = .ok (.named parent name))
    (noDirectory : tree.entry? (parent ++ [name]) ≠ some .directory) :
    (tree.insert temporary.location (.file content)).replace temporary path =
      .ok (tree.setContent (parent ++ [name]) content) := by
  have keeps := keepsDirectories_of_insert_file free content
  have grows := Grows.insert_of_free free (.file content)
  have stillNone := fun held => noDirectory (keeps.directory held)
  unfold replace
  rw [entry?_insert_self (by simp [free])]
  simp only [usable, grows.place_eq placed]
  rw [erase_insert (not_stores_of_entry?_eq_none free)]
  rfl

end Temporary

section Write

variable
  {policy : Utf8.Policy}
  {tree after : FileTree}
  {path : Path}
  {content : Text}

theorem write_error
    {fault : Fault}
    (failed : write policy tree path content = (after, .error fault)) :
    after = tree := by
  unfold write at failed
  cases made : tree.createTemporary path with
  | error refused => simp_all
  | ok result =>
      obtain ⟨temporary, created⟩ := result
      obtain ⟨_, _, free, rfl⟩ := createTemporary_eq_ok made
      have gone := fun entry =>
        erase_insert (not_stores_of_entry?_eq_none free) entry
      cases encoded : Utf8.encodeWith policy content with
      | error refused => simp_all
      | ok bytes =>
          simp only [made, encoded, setContent, insert_insert] at failed
          cases replaced :
              (tree.insert temporary.location (.file bytes)).replace temporary path with
          | error refused => simp_all
          | ok result => simp [replaced] at failed

theorem write_ok
    (written : write policy tree path content = (after, .ok ())) :
    (∃ temporary created, tree.createTemporary path = .ok (temporary, created)) ∧
      ∃ bytes parent name, Utf8.encodeWith policy content = .ok bytes ∧
        Replaces tree path parent name bytes after := by
  unfold write at written
  cases made : tree.createTemporary path with
  | error refused => simp [made] at written
  | ok result =>
      obtain ⟨temporary, created⟩ := result
      obtain ⟨_, _, free, rfl⟩ := createTemporary_eq_ok made
      cases encoded : Utf8.encodeWith policy content with
      | error refused => simp [made, encoded] at written
      | ok bytes =>
          simp only [made, encoded, setContent, insert_insert] at written
          cases replaced :
              (tree.insert temporary.location (.file bytes)).replace temporary path with
          | error refused => simp [replaced] at written
          | ok result =>
              simp only [replaced, Prod.mk.injEq, and_true] at written
              subst written
              obtain ⟨parent, name, replaces⟩ := replaces_of_replace free replaced
              exact ⟨⟨temporary, _, rfl⟩, bytes, parent, name, rfl, replaces⟩

/-- A text can be written wherever a temporary file can be created beside its place. -/
theorem write_of_createTemporary
    {temporary : Temporary}
    {created : FileTree}
    {bytes : List UInt8}
    {parent : Location}
    {name : FileName}
    (made : tree.createTemporary path = .ok (temporary, created))
    (encoded : Utf8.encodeWith policy content = .ok bytes)
    (usable : path.fault? = none)
    (placed : tree.place path = .ok (.named parent name))
    (noDirectory : tree.entry? (parent ++ [name]) ≠ some .directory) :
    write policy tree path content = (tree.setContent (parent ++ [name]) bytes, .ok ()) := by
  obtain ⟨_, _, free, rfl⟩ := createTemporary_eq_ok made
  unfold write
  simp only [made, encoded, setContent, insert_insert]
  rw [replace_of_place free usable placed noDirectory]
  rfl

end Write

section Update

variable
  {policy : Utf8.Policy}
  {before after : FileTree}
  {path : Path}
  {transform : Text → Except Fault Text}

/-- A file that cannot be updated leaves the tree as it is. -/
theorem update_error
    {fault : Fault}
    (failed : update policy before path transform = (after, .error fault)) :
    after = before := by
  unfold update at failed
  cases opened : read policy before path with
  | error refused => simp_all
  | ok text =>
      cases transformed : transform text with
      | error refused => simp_all
      | ok content =>
          simp only [opened, transformed] at failed
          rcases written : write policy before path content with ⟨result, refused | done⟩
          · simp only [written, Prod.mk.injEq] at failed
            rw [← failed.1]
            exact write_error written
          · simp [written] at failed

theorem read_eq_ok
    {text : Text}
    (opened : read policy before path = .ok text) :
    ∃ bytes decoded, before.read path = .ok bytes ∧
      Utf8.decodeWith policy bytes = .ok decoded ∧ text = decoded.normalizeLineEndings := by
  unfold read at opened
  cases found : before.read path with
  | error fault => simp [found] at opened
  | ok bytes =>
      cases decoded : Utf8.decodeWith policy bytes with
      | error fault => simp [found, decoded] at opened
      | ok text =>
          simp only [found, decoded, Except.ok.injEq] at opened
          exact ⟨bytes, text, rfl, decoded, opened.symm⟩

/-- A text that is read and transformed is written wherever a temporary file can be created. -/
theorem update_of_createTemporary
    {temporary : Temporary}
    {created : FileTree}
    {text content : Text}
    {bytes : List UInt8}
    {parent : Location}
    {name : FileName}
    (opened : read policy before path = .ok text)
    (transformed : transform text = .ok content)
    (made : before.createTemporary path = .ok (temporary, created))
    (encoded : Utf8.encodeWith policy content = .ok bytes)
    (placed : before.place path = .ok (.named parent name))
    (noDirectory : before.entry? (parent ++ [name]) ≠ some .directory) :
    update policy before path transform =
      (before.setContent (parent ++ [name]) bytes, .ok content) := by
  obtain ⟨_, _, found, _, _⟩ := read_eq_ok opened
  obtain ⟨usable, _⟩ := read_eq_ok_iff.mp found
  have written := write_of_createTemporary made encoded usable placed noDirectory
  unfold update
  simp only [opened, transformed, written]

/-- What an update does: the text is read, transformed, encoded and put in place. -/
structure Updates
    (policy : Utf8.Policy)
    (before : FileTree)
    (path : Path)
    (transform : Text → Except Fault Text)
    (after : FileTree)
    (content : Text) : Prop where
  /-- The new content is made of what the file held. -/
  transformed : ∃ text, read policy before path = .ok text ∧ transform text = .ok content
  /-- A temporary file could be created. -/
  temporary : ∃ result, before.createTemporary path = .ok result
  /-- The file holds the new content. -/
  replaced : ∃ bytes parent name, Utf8.encodeWith policy content = .ok bytes ∧
    Replaces before path parent name bytes after

theorem update_ok
    {content : Text}
    (updated : update policy before path transform = (after, .ok content)) :
    Updates policy before path transform after content := by
  unfold update at updated
  cases opened : read policy before path with
  | error refused => simp [opened] at updated
  | ok text =>
      cases transformed : transform text with
      | error refused => simp [opened, transformed] at updated
      | ok new =>
          simp only [opened, transformed] at updated
          rcases written : write policy before path new with ⟨result, refused | done⟩
          · simp [written] at updated
          · simp only [written, Prod.mk.injEq, Except.ok.injEq] at updated
            obtain ⟨rfl, rfl⟩ := updated
            obtain ⟨⟨temporary, created, made⟩, replaced⟩ := write_ok written
            exact ⟨⟨text, opened, transformed⟩, ⟨_, made⟩, replaced⟩

/--
An update that succeeds in a tree succeeds in every tree that it grows into, as
long as the file still has the same content, and it writes the same bytes.
-/
theorem Updates.again
    {content : Text}
    (updates : Updates policy before path transform after content) :
    ∃ bytes parent name, Replaces before path parent name bytes after ∧
      ∀ other, Grows before other →
        FileTree.entry? other (parent ++ [name]) = before.entry? (parent ++ [name]) →
        update policy other path transform =
          (other.setContent (parent ++ [name]) bytes, .ok content) := by
  obtain ⟨text, opened, transformed⟩ := updates.transformed
  obtain ⟨⟨temporary, created⟩, made⟩ := updates.temporary
  obtain ⟨bytes, parent, name, encoded, replaces⟩ := updates.replaced
  refine ⟨bytes, parent, name, replaces, fun other grows same => ?_⟩
  obtain ⟨old, decoded, found, isText, text_eq⟩ := read_eq_ok opened
  obtain ⟨usable, parent', name', placed, held⟩ := read_eq_ok_iff.mp found
  obtain ⟨rfl, rfl⟩ := eq_of_place placed replaces.placed
  rw [held] at same
  have placedAgain := grows.place_eq placed
  have foundAgain : other.read path = .ok old :=
    read_eq_ok_iff.mpr ⟨usable, _, _, placedAgain, same⟩
  have openedAgain : read policy other path = .ok text := by
    rw [read, foundAgain, text_eq]
    simp [isText]
  obtain ⟨_, ⟨directory, last, _, placedBeside, _, _⟩, _, _⟩ := createTemporary_eq_ok made
  have shown_eq : other.shownTemporary path = before.shownTemporary path := by
    rw [shownTemporary, shownTemporary, grows.workingDirectory]
  obtain ⟨free, isFree⟩ := exists_freeName_of_place placedAgain same directory
  have beside : other.place (other.shownTemporary path) = .ok (.named directory last) := by
    rw [shown_eq]
    exact grows.place_eq placedBeside
  have madeAgain := createTemporary_of_place (fault?_temporaryPath usable) beside isFree
  exact update_of_createTemporary openedAgain transformed madeAgain encoded placedAgain
    (by simp [same])

end Update

end TextFile
end SchemaCodegen
