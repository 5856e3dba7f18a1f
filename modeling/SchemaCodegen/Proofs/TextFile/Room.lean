import Mathlib.Control.Monad.Basic
import SchemaCodegen.Proofs.FileTree.Beside
import SchemaCodegen.Proofs.TextFile.AllOrNothing
import SchemaCodegen.Rename

/-!
# Room for a new text

What can be read is not always written again: the new text first goes to a temporary file,
whose name is longer than that of the file.  An update of a readable file by a transform
that gives an encodable text succeeds exactly when there is room for that name, and is
refused otherwise.
-/

namespace SchemaCodegen
namespace TextFile

open FileTree

variable
  {policy : Utf8.Policy}
  {tree : FileTree}
  {path : Path}
  {transform : Text → Except Fault Text}
  {text content : Text}
  {bytes : List UInt8}

/-- What can be decoded is the text of a file that the path leads to. -/
theorem exists_bytes_of_read (opened : read policy tree path = .ok text) :
    ∃ bytes, tree.read path = .ok bytes := by
  obtain ⟨bytes, _, holds, _⟩ := read_eq_ok opened
  exact ⟨bytes, holds⟩

theorem createTemporary_of_not_hasRoom
    (proper : tree.IsProper)
    (crowded : ¬tree.HasRoom path)
    (holds : tree.read path = .ok bytes) :
    tree.createTemporary path = .error (refuse (tree.shownTemporary path) .nameTooLong) := by
  obtain ⟨usable, parent, name, placed, _⟩ := read_eq_ok_iff.mp holds
  unfold createTemporary
  simp only [fault?_temporaryPath usable,
    place_shownTemporary_of_not_hasRoom proper placed crowded]

/-- With room for the temporary file, one tree comes of every update to the same bytes. -/
theorem exists_onlyHolds_of_hasRoom
    (proper : tree.IsProper)
    (room : tree.HasRoom path)
    (holds : tree.read path = .ok bytes)
    (new : List UInt8) :
    ∃ after, OnlyHolds tree path new after ∧
      ∀ {policy : Utf8.Policy} {transform : Text → Except Fault Text} {text content : Text},
        read policy tree path = .ok text →
        transform text = .ok content →
        Utf8.encodeWith policy content = .ok new →
        update policy tree path transform = (after, .ok content) := by
  obtain ⟨usable, parent, name, placed, held⟩ := read_eq_ok_iff.mp holds
  obtain ⟨⟨temporary, created⟩, made⟩ := exists_createTemporary proper room holds
  have noDirectory : tree.entry? (parent ++ [name]) ≠ some .directory := by simp [held]
  have replaces : Replaces tree path parent name new _ := ⟨usable, placed, noDirectory, rfl⟩
  refine ⟨_, replaces.onlyHolds, fun opened transformed encoded => ?_⟩
  exact update_of_createTemporary opened transformed made encoded placed noDirectory

section

variable
  (proper : tree.IsProper)
  (opened : read policy tree path = .ok text)
  (transformed : transform text = .ok content)
include proper opened transformed

theorem update_of_hasRoom
    (room : tree.HasRoom path)
    (encoded : Utf8.encodeWith policy content = .ok bytes) :
    ∃ after, update policy tree path transform = (after, .ok content) ∧
      OnlyHolds tree path bytes after := by
  obtain ⟨old, holds⟩ := exists_bytes_of_read opened
  obtain ⟨after, onlyHolds, updated⟩ := exists_onlyHolds_of_hasRoom proper room holds bytes
  exact ⟨after, updated opened transformed encoded, onlyHolds⟩

theorem update_of_not_hasRoom (crowded : ¬tree.HasRoom path) :
    update policy tree path transform =
      (tree, .error (.access (refuse (tree.shownTemporary path) .nameTooLong))) := by
  obtain ⟨old, holds⟩ := exists_bytes_of_read opened
  unfold update write
  simp only [opened, transformed, createTemporary_of_not_hasRoom proper crowded holds]

/--
A file that can be read, by a transform that gives an encodable text, is replaced as long as
its name has at most 241 bytes and the path of the temporary file is not too long.  Any
other file stays as it is, and the name of the temporary file is told to be too long.
-/
theorem update_replaces_or_isRefused (encoded : Utf8.encodeWith policy content = .ok bytes) :
    ((Utf8.encode path.name).length ≤ 241 ∧
        (Utf8.encode (tree.shownTemporary path).text).length ≤ pathLimit →
      ∃ after, update policy tree path transform = (after, .ok content) ∧
        OnlyHolds tree path bytes after) ∧
      (¬((Utf8.encode path.name).length ≤ 241 ∧
          (Utf8.encode (tree.shownTemporary path).text).length ≤ pathLimit) →
        update policy tree path transform =
          (tree, .error (.access (refuse (tree.shownTemporary path) .nameTooLong)))) := by
  rw [← hasRoom_iff]
  exact ⟨fun room => update_of_hasRoom proper opened transformed room encoded,
    update_of_not_hasRoom proper opened transformed⟩

end

/-- Bindings whose name has exactly 241 bytes are still renamed. -/
theorem update_replaces_or_isRefused_edge :
    let name : Text := List.replicate 232 (.char 'm') ++ Text.ofString ".capnp.go"
    let path : Path := ⟨.none, [name]⟩
    let tree : FileTree := ⟨["work"], [(["work", Utf8.encode name], .file [0x55])]⟩
    let transform := Rename.renameWith .anywhere (.string "é") [Text.ofString "U"]
    tree.IsProper ∧
      read .strict tree path = .ok (Text.ofString "U") ∧
      transform (Text.ofString "U") = .ok (Text.ofString "Ué") ∧
      Utf8.encodeWith .strict (Text.ofString "Ué") = .ok [0x55, 0xC3, 0xA9] ∧
      (Utf8.encode path.name).length = 241 ∧
      ∃ after, update .strict tree path transform = (after, .ok (Text.ofString "Ué")) ∧
        OnlyHolds tree path [0x55, 0xC3, 0xA9] after := by
  intro name path tree transform
  have proper : tree.IsProper := by decide +kernel
  have holds : tree.read path = .ok [0x55] :=
    read_eq_ok_of_entry? (by decide +kernel) (by decide +kernel) (by decide +kernel)
      (by decide +kernel)
  have opened : read .strict tree path = .ok (Text.ofString "U") := by
    rw [read, holds]
    decide +kernel
  have transformed : transform (Text.ofString "U") = .ok (Text.ofString "Ué") := by
    decide +kernel
  have encoded : Utf8.encodeWith .strict (Text.ofString "Ué") = .ok [0x55, 0xC3, 0xA9] := by
    decide +kernel
  have size_eq : (Utf8.encode path.name).length = 241 := by decide +kernel
  have fits : (Utf8.encode (tree.shownTemporary path).text).length ≤ pathLimit := by decide +kernel
  exact ⟨proper, opened, transformed, encoded, size_eq,
    (update_replaces_or_isRefused proper opened transformed encoded).1 ⟨by omega, fits⟩⟩

/-- Bindings whose name has one byte more can be read, but not be written again. -/
theorem readable_update_isRefused :
    let name : Text := List.replicate 233 (.char 'm') ++ Text.ofString ".capnp.go"
    let path : Path := ⟨.none, [name]⟩
    let tree : FileTree := ⟨["work"], [(["work", Utf8.encode name], .file [0x55])]⟩
    let transform := Rename.renameWith .anywhere (.string "é") [Text.ofString "U"]
    (Utf8.encode name).length = 242 ∧
      read .strict tree path = .ok (Text.ofString "U") ∧
      transform (Text.ofString "U") = .ok (Text.ofString "Ué") ∧
      Utf8.encodeWith .strict (Text.ofString "Ué") = .ok [0x55, 0xC3, 0xA9] ∧
      ∃ shown, update .strict tree path transform =
        (tree, .error (.access (.refused .nameTooLong shown none))) := by
  intro name path tree transform
  have proper : tree.IsProper := by decide +kernel
  have holds : tree.read path = .ok [0x55] :=
    read_eq_ok_of_entry? (by decide +kernel) (by decide +kernel) (by decide +kernel)
      (by decide +kernel)
  have opened : read .strict tree path = .ok (Text.ofString "U") := by
    rw [read, holds]
    decide +kernel
  have transformed : transform (Text.ofString "U") = .ok (Text.ofString "Ué") := by
    decide +kernel
  have size_eq : (Utf8.encode name).length = 242 := by decide +kernel
  have crowded : ¬tree.HasRoom path := by
    rw [hasRoom_iff]
    rintro ⟨short, _⟩
    have same : path.name = name := rfl
    rw [same, size_eq] at short
    omega
  exact ⟨size_eq, opened, transformed, by decide +kernel, _,
    update_of_not_hasRoom proper opened transformed crowded⟩

end TextFile
end SchemaCodegen
