import SchemaCodegen.Proofs.Rename.Insertion
import SchemaCodegen.Proofs.Text.Validity
import SchemaCodegen.Proofs.TextFile.Room

/-!
# Kept bytes

An update writes back every byte that its transform leaves alone, whether it belongs to
valid UTF-8 or not.  Renaming adds whole copies of the suffix; line endings, which are
turned into newlines when the file is read, are the only bytes that change.
-/

namespace SchemaCodegen
namespace TextFile

open FileTree

/-- An update leaves some bytes behind, changes nothing else and can be read back. -/
structure Rewrites
    (policy : Utf8.Policy)
    (before : FileTree)
    (path : Path)
    (transform : Text → Except Fault Text)
    (bytes : List UInt8)
    (after : FileTree)
    (content : Text) : Prop where
  /-- The update succeeds. -/
  updated : update policy before path transform = (after, .ok content)
  /-- The path holds the bytes, and nothing else has changed. -/
  onlyHolds : OnlyHolds before path bytes after
  /-- Reading the file gives the text that the update has given. -/
  readBack : read policy after path = .ok content

section

variable
  {policy : Utf8.Policy}
  {tree : FileTree}
  {path : Path}
  {bytes : List UInt8}

theorem read_of_accepts
    (holds : tree.read path = .ok bytes)
    (accepted : policy.Accepts bytes) :
    read policy tree path = .ok (Utf8.decode (Utf8.normalizeLineEndings bytes)) := by
  rw [read, holds, Utf8.decode_normalizeLineEndings]
  simp [Utf8.decodeWith_of_accepts accepted]

theorem update_of_not_accepts
    (holds : tree.read path = .ok bytes)
    (refused : ¬policy.Accepts bytes)
    (transform : Text → Except Fault Text) :
    ∃ fault, update policy tree path transform = (tree, .error (.undecodable fault)) := by
  obtain ⟨fault, faulty⟩ := Utf8.decodeWith_of_not_accepts refused
  refine ⟨fault, ?_⟩
  unfold update read
  simp [holds, faulty]

end

/-- A text that comes from the bytes of a file when some characters are inserted. -/
abbrev Inserts (characters : List Char) (bytes : List UInt8) (new : Text) : Prop :=
  Insertions (characters.map .char) (Utf8.decode (Utf8.normalizeLineEndings bytes)) new

namespace Inserts

variable
  {characters : List Char}
  {bytes : List UInt8}
  {new : Text}
  (inserts : Inserts characters bytes new)
include inserts

theorem stable : Utf8.Stable new :=
  (Utf8.stable_decode _).of_insertions inserts

theorem isUnicode (unicode : (Utf8.decode bytes).IsUnicode) : new.IsUnicode := by
  refine Text.IsUnicode.of_insertions inserts (Text.isUnicode_map_char characters) ?_
  rwa [Utf8.decode_normalizeLineEndings, Text.isUnicode_normalizeLineEndings]

theorem insertions_bytes :
    Insertions (characters.flatMap Utf8.encodeChar) (Utf8.normalizeLineEndings bytes)
      (Utf8.encode new) := by
  simpa using Utf8.insertions_encode inserts

theorem normalizeLineEndings_eq (noReturn : '\r' ∉ characters) :
    new.normalizeLineEndings = new := by
  apply Text.normalizeLineEndings_of_not_mem
  intro member
  rcases inserts.mem_or_mem member with old | inserted
  · rw [Utf8.decode_normalizeLineEndings] at old
    exact Text.return_not_mem_normalizeLineEndings _ old
  · simp [noReturn] at inserted

/-- What is written by inserting characters is read back. -/
theorem read_eq
    {policy : Utf8.Policy}
    {tree : FileTree}
    {path : Path}
    (noReturn : '\r' ∉ characters)
    (accepted : policy.Accepts bytes)
    (holds : tree.read path = .ok (Utf8.encode new)) :
    read policy tree path = .ok new := by
  have stillAccepted := Utf8.accepts_encode inserts.stable accepted inserts.isUnicode
  rw [read_of_accepts holds stillAccepted, Utf8.decode_normalizeLineEndings,
    inserts.stable.decode_encode, inserts.normalizeLineEndings_eq noReturn]

end Inserts

section

variable
  {tree : FileTree}
  {path : Path}
  {bytes : List UInt8}
  (proper : tree.IsProper)
  (room : tree.HasRoom path)
  (holds : tree.read path = .ok bytes)
include proper room holds

/-- Inserting characters into the text of a file inserts their bytes into the file. -/
theorem rewrites_of_inserts
    (transform : Text → Except Fault Text)
    {characters : List Char}
    {new : Text}
    (transformed :
      transform (Utf8.decode (Utf8.normalizeLineEndings bytes)) = .ok new)
    (noReturn : '\r' ∉ characters)
    (inserts : Inserts characters bytes new) :
    ∃ after, ∀ policy : Utf8.Policy, policy.Accepts bytes →
      Rewrites policy tree path transform (Utf8.encode new) after new := by
  obtain ⟨after, onlyHolds, updated⟩ :=
    exists_onlyHolds_of_hasRoom proper room holds (Utf8.encode new)
  refine ⟨after, fun policy accepted => ⟨?_, onlyHolds, ?_⟩⟩
  · have encoded := Utf8.encodeWith_of_accepts inserts.stable accepted inserts.isUnicode
    exact updated (read_of_accepts holds accepted) transformed encoded
  · exact inserts.read_eq noReturn accepted onlyHolds.holds

/--
Updating a file without changing its text leaves its bytes with newlines as line
endings.  Renaming leaves them with whole copies of the bytes of the suffix inserted,
whatever the names are, and what the renaming has given is read back.  Both policies do
the same where both decode the file; otherwise the strict one leaves it as it is.
-/
theorem update_keepsBytes :
    (∃ after content, ∀ policy : Utf8.Policy, policy.Accepts bytes →
      Rewrites policy tree path .ok (Utf8.normalizeLineEndings bytes) after content) ∧
    (∀ (mode : Rename.Mode) (suffix : String) (names : List Text),
      '\r' ∉ suffix.toList →
      ∃ new after content,
        Insertions (Utf8.bytesOf suffix) (Utf8.normalizeLineEndings bytes) new ∧
        ∀ policy : Utf8.Policy, policy.Accepts bytes →
          Rewrites policy tree path (Rename.renameWith mode (.string suffix) names) new
            after content) ∧
    (¬Utf8.IsValid bytes → ∀ transform : Text → Except Fault Text,
      ∃ fault, update .strict tree path transform =
        (tree, .error (.undecodable fault))) := by
  refine ⟨?_, fun mode suffix names noReturn => ?_, fun invalid transform => ?_⟩
  · have untouched : Inserts [] bytes _ := .none
    obtain ⟨after, rewrites⟩ :=
      rewrites_of_inserts proper room holds .ok rfl List.not_mem_nil untouched
    rw [Utf8.encode_decode] at rewrites
    exact ⟨after, _, rewrites⟩
  · have renamed : Inserts suffix.toList bytes _ :=
      Rename.insertions_rename mode (Text.ofString suffix) names _
    obtain ⟨after, rewrites⟩ :=
      rewrites_of_inserts proper room holds
        (Rename.renameWith mode (.string suffix) names) rfl noReturn renamed
    exact ⟨_, after, _, renamed.insertions_bytes, rewrites⟩
  · have refused : ¬Utf8.Policy.strict.Accepts bytes := invalid
    exact update_of_not_accepts holds refused transform

end

/--
The bytes of a broken character stay broken when a suffix comes between them and the
name before them, and a carriage return becomes a newline.
-/
theorem update_keepsBytes_broken :
    let path : Path := .ofText "a.go"
    let bytes : List UInt8 := [0xE2, 0x55, 0x82, 0xAC, 0x0D]
    let tree : FileTree := ⟨["work"], [(["work", "a.go"], .file bytes)]⟩
    let renamed : List UInt8 := [0xE2, 0x55, 0xC3, 0xA9, 0x82, 0xAC, 0x0A]
    let transform := Rename.renameWith .anywhere (.string "é") [Text.ofString "U"]
    tree.IsProper ∧ tree.HasRoom path ∧ tree.read path = .ok bytes ∧
      ¬Utf8.IsValid bytes ∧
      (∃ after content,
        Rewrites .preserve tree path .ok [0xE2, 0x55, 0x82, 0xAC, 0x0A] after content) ∧
      (∃ after content, Rewrites .preserve tree path transform renamed after content) ∧
      ∃ fault, update .strict tree path transform =
        (tree, .error (.undecodable fault)) := by
  intro path bytes tree renamed transform
  have proper : tree.IsProper := by decide +kernel
  have room : tree.HasRoom path := ⟨by decide +kernel, by decide +kernel⟩
  have holds : tree.read path = .ok bytes := by rfl
  have invalid : ¬Utf8.IsValid bytes := by
    rw [Utf8.isValid_iff]
    decide +kernel
  obtain ⟨⟨after, content, untouched⟩, renames, refused⟩ :=
    update_keepsBytes proper room holds
  obtain ⟨new, renamedAfter, renamedContent, _, rewrites⟩ :=
    renames .anywhere "é" [Text.ofString "U"] (by decide +kernel)
  have rewritten := rewrites .preserve trivial
  have new_eq : new = renamed := by
    have computed :
        ((update .preserve tree path transform).1.read path).toOption = some renamed := by
      decide +kernel
    rw [rewritten.updated, rewritten.onlyHolds.holds] at computed
    exact Option.some.inj computed
  subst new_eq
  exact ⟨proper, room, holds, invalid, ⟨after, content, untouched .preserve trivial⟩,
    ⟨renamedAfter, renamedContent, rewritten⟩, refused invalid transform⟩

end TextFile
end SchemaCodegen
