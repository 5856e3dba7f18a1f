import SchemaCodegen.Proofs.Artifact.Naming
import SchemaCodegen.Proofs.Path.Reading

/-!
# Where artifacts are placed

The path of a schema is spelled out without its root, the extension gives way to the
ending of an artifact, and the result is read as a path again.  The parts come back as
they were but for the last one, so artifacts lie below the output directory like their
schemas below the root, and different schemas have different artifacts.
-/

namespace SchemaCodegen
namespace Artifact

open SchemaCodegen.Path (IsProperPart joinParts)

/-- The parts that name an artifact, beside the parts of the path of its schema. -/
inductive NamedAfter (ending : Text) : List Text → List Text → Prop
  /-- The extension of the last part gives way to the ending. -/
  | extension (above : List Text) (stem : Text) :
      NamedAfter ending (above ++ [stem ++ ".capnp"]) (above ++ [stem ++ ending])
  /-- A last part without the extension keeps everything before the ending. -/
  | whole {last : Text} (above : List Text) :
      (∀ stem, last ≠ stem ++ ".capnp") →
      NamedAfter ending (above ++ [last]) (above ++ [last ++ ending])
  /-- A path without parts is named by a dot. -/
  | dot : NamedAfter ending [] ["." ++ ending]

/-- A relative path that ends in the extension of schemas. -/
structure IsRelativeSchema (path : Path) : Prop where
  /-- The path starts at the working directory. -/
  relative : path.isAbsolute = false
  /-- The spelling of the path ends in the extension. -/
  ends : Text.ofString ".capnp" <:+ path.text

instance (path : Path) : Decidable (IsRelativeSchema path) :=
  decidable_of_iff (path.isAbsolute = false ∧ Text.ofString ".capnp" <:+ path.text)
    ⟨fun ⟨relative, ends⟩ => ⟨relative, ends⟩, fun ⟨relative, ends⟩ => ⟨relative, ends⟩⟩

/-! ## Parts -/

section Parts

variable {ending : Text} {parts named : List Text}

theorem exists_namedAfter (ending : Text) (parts : List Text) :
    ∃ named, NamedAfter ending parts named := by
  rcases List.eq_nil_or_concat parts with rfl | ⟨above, last, rfl⟩
  · exact ⟨_, .dot⟩
  · rw [List.concat_eq_append]
    by_cases ends : ∃ stem, last = stem ++ ".capnp"
    · obtain ⟨stem, rfl⟩ := ends
      exact ⟨_, .extension above stem⟩
    · exact ⟨_, .whole above (not_exists.mp ends)⟩

/-- The last part always changes. -/
theorem NamedAfter.append_ne
    (after : NamedAfter ending parts named)
    (nonempty : ending ≠ [])
    (other : ending ≠ ".capnp")
    (front : List Text) :
    front ++ named ≠ parts := by
  intro same
  cases after with
  | extension above stem =>
      rw [← List.append_assoc] at same
      have last_eq := (List.append_inj' same rfl).2
      exact other (by simpa using last_eq)
  | whole above _ =>
      rw [← List.append_assoc] at same
      have last_eq := (List.append_inj' same rfl).2
      exact nonempty (by simpa using last_eq)
  | dot => simp at same

theorem NamedAfter.isProperPart
    (after : NamedAfter ending parts named)
    (noSlash : slash ∉ ending)
    (long : 2 ≤ ending.length)
    (proper : ∀ part ∈ parts, IsProperPart part) :
    ∀ part ∈ named, IsProperPart part := by
  cases after with
  | extension above stem =>
      rw [List.forall_mem_append, List.forall_mem_singleton] at proper ⊢
      refine ⟨proper.1, Path.isProperPart_append ?_ noSlash long⟩
      have lastNoSlash := proper.2.noSlash
      rw [List.mem_append, not_or] at lastNoSlash
      exact lastNoSlash.1
  | whole above _ =>
      rw [List.forall_mem_append, List.forall_mem_singleton] at proper ⊢
      exact ⟨proper.1, Path.isProperPart_append proper.2.noSlash noSlash long⟩
  | dot =>
      rw [List.forall_mem_singleton]
      exact Path.isProperPart_append (by decide) noSlash long

end Parts

/-! ## Names -/

theorem dropExtension_append (stem : Text) :
    Schema.dropExtension (stem ++ Schema.extension) = stem := by
  have ends : Schema.extension.isSuffixOf (stem ++ Schema.extension) = true := by
    rw [List.isSuffixOf_iff_suffix]
    exact List.suffix_append stem Schema.extension
  simp [Schema.dropExtension, ends]

theorem dropExtension_of_not_isSuffix
    {text : Text}
    (without : ¬Schema.extension <:+ text) :
    Schema.dropExtension text = text := by
  rw [Schema.dropExtension, if_neg (by rwa [List.isSuffixOf_iff_suffix])]

theorem name_of_ne_nil
    {source : Schema.Source}
    (nonempty : source.path.parts ≠ []) :
    source.name = Schema.dropExtension (joinParts source.path.parts) := by
  simp [Schema.Source.name, Path.withoutRoot, Path.text, nonempty, Root.text]

theorem name_of_eq_nil
    {source : Schema.Source}
    (empty : source.path.parts = []) :
    source.name = "." := by
  rw [Schema.Source.name, Path.withoutRoot, empty]
  decide

/-- With the ending, the name of a schema spells the parts that name the artifact. -/
theorem NamedAfter.name_append
    {source : Schema.Source}
    {ending : Text}
    {named : List Text}
    (after : NamedAfter ending source.path.parts named) :
    source.name ++ ending = joinParts named := by
  generalize parts_eq : source.path.parts = parts at after
  cases after with
  | extension above stem =>
      have spelled : joinParts (above ++ [stem ++ ".capnp"]) =
          joinParts (above ++ [stem]) ++ Schema.extension :=
        Path.joinParts_append_last above stem ".capnp"
      rw [name_of_ne_nil (by simp [parts_eq]), parts_eq, spelled, dropExtension_append,
        Path.joinParts_append_last]
  | @whole last above different =>
      have without : ¬Schema.extension <:+ joinParts (above ++ [last]) := by
        intro ends
        have lastEnds := Path.isSuffix_of_isSuffix_joinParts (by decide) ends
        obtain ⟨stem, last_eq⟩ := lastEnds
        exact different stem last_eq.symm
      rw [name_of_ne_nil (by simp [parts_eq]), parts_eq, dropExtension_of_not_isSuffix without,
        Path.joinParts_append_last]
  | dot => rw [name_of_eq_nil parts_eq, joinParts]

theorem IsRelativeSchema.root_eq
    {path : Path}
    (schema : IsRelativeSchema path) :
    path.root = .none := by
  simpa [Path.isAbsolute] using schema.relative

theorem IsRelativeSchema.exists_parts_eq
    {path : Path}
    (schema : IsRelativeSchema path) :
    ∃ above stem, path.parts = above ++ [stem ++ Text.ofString ".capnp"] := by
  have root_eq := schema.root_eq
  have ends := schema.ends
  rcases List.eq_nil_or_concat path.parts with none | ⟨above, last, parts_eq⟩
  · rw [Path.text, if_pos ⟨root_eq, none⟩] at ends
    exact absurd ends (by decide)
  · rw [List.concat_eq_append] at parts_eq
    have text_eq : path.text = joinParts (above ++ [last]) := by
      simp [Path.text, root_eq, parts_eq, Root.text]
    rw [text_eq] at ends
    obtain ⟨stem, last_eq⟩ := Path.isSuffix_of_isSuffix_joinParts (by decide) ends
    exact ⟨above, stem, by rw [parts_eq, last_eq]⟩

/-! ## Paths -/

theorem not_mem_ending (artifact : Artifact) : slash ∉ artifact.ending := by
  cases artifact <;> decide

theorem two_le_length_ending (artifact : Artifact) : 2 ≤ artifact.ending.length := by
  cases artifact <;> decide

/-- The artifact lies below the output directory at the parts that are named after the schema. -/
theorem path_of_namedAfter
    (outputDir : Path)
    {spelling : Text}
    {text : Text}
    {artifact : Artifact}
    {named : List Text}
    (after : NamedAfter artifact.ending (Path.ofText spelling).parts named) :
    artifact.path outputDir ⟨.ofText spelling, text⟩ =
      ⟨outputDir.root, outputDir.parts ++ named⟩ := by
  have proper : ∀ part ∈ named, IsProperPart part :=
    after.isProperPart artifact.not_mem_ending artifact.two_le_length_ending
      fun part member => Path.isProperPart_of_mem member
  have name_eq : Schema.Source.name ⟨.ofText spelling, text⟩ ++ artifact.ending =
      joinParts named :=
    NamedAfter.name_append after
  rw [path, name_eq, Path.ofText_joinParts proper, Path.join, if_neg (by simp [Path.isAbsolute])]

theorem path_ne_schema
    (outputDir : Path)
    (spelling : Text)
    (text : Text)
    (artifact : Artifact) :
    artifact.path outputDir ⟨.ofText spelling, text⟩ ≠ .ofText spelling := by
  obtain ⟨named, after⟩ := exists_namedAfter artifact.ending (Path.ofText spelling).parts
  have nonempty : artifact.ending ≠ [] := by cases artifact <;> decide
  have other : artifact.ending ≠ ".capnp" := by cases artifact <;> decide
  intro same
  rw [path_of_namedAfter outputDir after] at same
  exact after.append_ne nonempty other outputDir.parts (congrArg Path.parts same)

/-- Schemas with the extension are told apart by their artifacts. -/
theorem schema_eq_of_path_eq
    {outputDir : Path}
    {spelling otherSpelling : Text}
    {text otherText : Text}
    {artifact : Artifact}
    (schema : IsRelativeSchema (.ofText spelling))
    (otherSchema : IsRelativeSchema (.ofText otherSpelling))
    (same : artifact.path outputDir ⟨.ofText otherSpelling, otherText⟩ =
      artifact.path outputDir ⟨.ofText spelling, text⟩) :
    Path.ofText otherSpelling = Path.ofText spelling := by
  obtain ⟨above, stem, parts_eq⟩ := schema.exists_parts_eq
  obtain ⟨otherAbove, otherStem, otherParts_eq⟩ := otherSchema.exists_parts_eq
  have after : NamedAfter artifact.ending (Path.ofText spelling).parts
      (above ++ [stem ++ artifact.ending]) := by
    rw [parts_eq]
    exact .extension above stem
  have otherAfter : NamedAfter artifact.ending (Path.ofText otherSpelling).parts
      (otherAbove ++ [otherStem ++ artifact.ending]) := by
    rw [otherParts_eq]
    exact .extension otherAbove otherStem
  rw [path_of_namedAfter outputDir after, path_of_namedAfter outputDir otherAfter] at same
  have named_eq := List.append_cancel_left (congrArg Path.parts same)
  obtain ⟨above_eq, last_eq⟩ := List.append_inj' named_eq rfl
  have stem_eq : otherStem = stem := by simpa using last_eq
  have sameParts : (Path.ofText otherSpelling).parts = (Path.ofText spelling).parts := by
    rw [parts_eq, otherParts_eq, above_eq, stem_eq]
  have sameRoot : (Path.ofText otherSpelling).root = (Path.ofText spelling).root := by
    rw [schema.root_eq, otherSchema.root_eq]
  rw [Path.mk.injEq]
  exact ⟨sameRoot, sameParts⟩

/--
An artifact lies below the output directory where its schema lies below the root, with the
ending in place of the extension.  The artifacts of a schema differ from each other and
from the schema, and no two relative schemas with the extension share an artifact.
-/
theorem path_namedAfter
    (outputDir : Path)
    (spelling : Text)
    (text : Text)
    (artifact : Artifact) :
    (∃ named, NamedAfter artifact.ending (Path.ofText spelling).parts named ∧
      artifact.path outputDir ⟨.ofText spelling, text⟩ =
        ⟨outputDir.root, outputDir.parts ++ named⟩) ∧
      (∀ other : Artifact,
        other.path outputDir ⟨.ofText spelling, text⟩ =
          artifact.path outputDir ⟨.ofText spelling, text⟩ →
        other = artifact) ∧
      artifact.path outputDir ⟨.ofText spelling, text⟩ ≠ .ofText spelling ∧
      ∀ (otherSpelling : Text) (otherText : Text),
        IsRelativeSchema (.ofText spelling) →
        IsRelativeSchema (.ofText otherSpelling) →
        artifact.path outputDir ⟨.ofText otherSpelling, otherText⟩ =
          artifact.path outputDir ⟨.ofText spelling, text⟩ →
        Path.ofText otherSpelling = Path.ofText spelling := by
  refine ⟨?_, fun other same => ?_, ?_, fun otherSpelling otherText schema otherSchema => ?_⟩
  · obtain ⟨named, after⟩ :=
      exists_namedAfter artifact.ending (Path.ofText spelling).parts
    exact ⟨named, after, path_of_namedAfter outputDir after⟩
  · exact path_text_injective outputDir _ (congrArg Path.text same)
  · exact path_ne_schema outputDir spelling text artifact
  · exact schema_eq_of_path_eq schema otherSchema

/-- A name of dots is kept as it is, and two spellings of one path share their artifact. -/
theorem path_namedAfter_dots :
    let outputDir := Path.ofText "out/"
    let spelling : Text := "a/..capnp"
    let otherSpelling : Text := "./a//..capnp"
    IsRelativeSchema (.ofText spelling) ∧ IsRelativeSchema (.ofText otherSpelling) ∧
      plain.path outputDir ⟨.ofText otherSpelling, []⟩ =
        plain.path outputDir ⟨.ofText spelling, []⟩ ∧
      Path.ofText otherSpelling = Path.ofText spelling := by
  intro outputDir spelling otherSpelling
  have schema : IsRelativeSchema (.ofText spelling) := by decide +kernel
  have otherSchema : IsRelativeSchema (.ofText otherSpelling) := by decide +kernel
  have same : plain.path outputDir ⟨.ofText otherSpelling, []⟩ =
      plain.path outputDir ⟨.ofText spelling, []⟩ := by
    decide +kernel
  exact ⟨schema, otherSchema, same, (path_namedAfter outputDir spelling [] plain).2.2.2
    otherSpelling [] schema otherSchema same⟩

end Artifact
end SchemaCodegen
