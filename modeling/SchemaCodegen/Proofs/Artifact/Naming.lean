import SchemaCodegen.Artifact.Naming
import SchemaCodegen.Proofs.Path.Spelling

/-!
# Artifacts side by side

The artifacts of a schema lie in one directory and share the first part of their
names, so no two of them have the same path.  They can be named to the operating system
when the directory and the schema can.
-/

namespace SchemaCodegen
namespace Artifact

theorem ending_injective
    {first second : Artifact}
    (same : first.ending = second.ending) :
    first = second := by
  cases first <;> cases second <;> first | rfl | exact absurd same (by decide)

/-- The artifacts of a schema differ only in the endings of their names. -/
theorem exists_path_eq
    (outputDir : Path)
    (source : Schema.Source) :
    ∃ root above stem, ∀ artifact : Artifact,
      artifact.path outputDir source = ⟨root, above ++ [stem ++ artifact.ending]⟩ := by
  obtain ⟨root, above, stem, named⟩ := Path.exists_ofText_append source.name
  have spelled : ∀ artifact : Artifact,
      Path.ofText (source.name ++ artifact.ending) =
        ⟨root, above ++ [stem ++ artifact.ending]⟩ := by
    intro artifact
    apply named
    · cases artifact <;> decide
    · cases artifact <;> decide
  cases root with
  | none =>
      refine ⟨outputDir.root, outputDir.parts ++ above, stem, fun artifact => ?_⟩
      rw [path, spelled, Path.join, if_neg (by simp [Path.isAbsolute]), List.append_assoc]
  | single =>
      refine ⟨.single, above, stem, fun artifact => ?_⟩
      rw [path, spelled, Path.join, if_pos (by simp [Path.isAbsolute])]
  | double =>
      refine ⟨.double, above, stem, fun artifact => ?_⟩
      rw [path, spelled, Path.join, if_pos (by simp [Path.isAbsolute])]

/-- No two artifacts are spelled alike. -/
theorem path_text_injective
    (outputDir : Path)
    (source : Schema.Source)
    {first second : Artifact}
    (same : (first.path outputDir source).text = (second.path outputDir source).text) :
    first = second := by
  obtain ⟨root, above, stem, path_eq⟩ := exists_path_eq outputDir source
  obtain ⟨front, text_eq⟩ := Path.exists_text_append root above
  rw [path_eq, path_eq, text_eq, text_eq, List.append_right_inj, List.append_right_inj]
    at same
  exact ending_injective same

/-- An artifact can be named to the operating system when its directory and schema can. -/
theorem fault?_path
    (artifact : Artifact)
    {outputDir : Path}
    {source : Schema.Source}
    (directoryUsable : outputDir.fault? = none)
    (schemaUsable : source.path.fault? = none) :
    (artifact.path outputDir source).fault? = none := by
  have relativeUsable : source.path.withoutRoot.fault? = none := by
    rwa [Path.fault?_eq_none_iff] at schemaUsable ⊢
  have nameUsable : source.name.handoverFault? = none := by
    refine Text.handoverFault?_of_subset ?_ relativeUsable
    unfold Schema.Source.name Schema.dropExtension
    split
    case isTrue => exact List.take_subset _ _
    case isFalse => exact List.Subset.refl _
  have endingUsable : artifact.ending.handoverFault? = none := by
    cases artifact <;> decide
  apply Path.fault?_join directoryUsable
  exact Path.fault?_ofText
    (Text.handoverFault?_append_eq_none_iff.mpr ⟨nameUsable, endingUsable⟩)

end Artifact
end SchemaCodegen
