import SchemaCodegen.Proofs.Artifact.Placement
import SchemaCodegen.Proofs.FileTree.Following
import SchemaCodegen.Proofs.Path.Descent

/-!
# Artifacts inside of the output directory

Without its root a path still goes up where it is spelled to.  So an artifact stays inside
of the output directory exactly when the directories of its schema stay inside of the one
that they start at; a schema directly above the root has its artifacts outside.
-/

namespace SchemaCodegen
namespace Artifact

open SchemaCodegen.Path (StaysInside NeverAbove)

theorem append_ending_ne_up (stem : Text) (artifact : Artifact) :
    stem ++ artifact.ending ≠ Path.up := by
  intro up
  have lengths := congrArg List.length up
  have dots : Path.up.length = 2 := by decide
  have long : 3 ≤ artifact.ending.length := by cases artifact <;> decide
  rw [List.length_append] at lengths
  omega

/-- The directories of an artifact are named as those of its schema. -/
theorem NamedAfter.exists_eq
    {ending : Text}
    {parts named : List Text}
    (after : NamedAfter ending parts named) :
    ∃ stem, named = parts.dropLast ++ [stem ++ ending] := by
  cases after with
  | extension above stem => exact ⟨stem, by rw [List.dropLast_concat]⟩
  | @whole last above _ => exact ⟨last, by rw [List.dropLast_concat]⟩
  | dot => exact ⟨".", rfl⟩

theorem staysInside_iff_of_namedAfter
    {artifact : Artifact}
    {parts named : List Text}
    (after : NamedAfter artifact.ending parts named) :
    StaysInside named ↔ NeverAbove parts.dropLast := by
  obtain ⟨stem, rfl⟩ := after.exists_eq
  rw [Path.staysInside_iff, Path.neverAbove_append_iff (append_ending_ne_up stem artifact)]

/-- The names of parts go up where the parts do. -/
theorem neverAbove_names
    {parts : List Text}
    (never : NeverAbove parts)
    (front : List FileName)
    (isFront : front <+: parts.map Utf8.encode) :
    2 * front.count FileTree.up ≤ front.length + ([] : List FileName).length := by
  obtain ⟨leading, isLeading, rfl⟩ := List.prefix_map_iff.mp isFront
  have same : (fun part => Utf8.encode part == FileTree.up) = (· == Path.up) := by
    funext part
    rw [Bool.eq_iff_iff, beq_iff_eq, beq_iff_eq, FileTree.encode_eq_up_iff]
  have counted := never leading isLeading
  rw [List.count_eq_countP, List.countP_map, Function.comp_def, same, ← List.count_eq_countP,
    List.length_map]
  exact counted

/-- What is below a directory by its spelling lies below it in every tree. -/
theorem isPrefix_of_neverAbove
    {outputDir path : Path}
    {named : List Text}
    (path_eq : path = ⟨outputDir.root, outputDir.parts ++ named⟩)
    (never : NeverAbove named)
    {tree : FileTree}
    {parent : Location}
    {name : FileName}
    (placed : tree.place path = .ok (.named parent name)) :
    tree.spelled outputDir <+: parent ++ [name] := by
  have start_eq : tree.start path = tree.start outputDir := by rw [path_eq]; rfl
  have spelled := (FileTree.leadsTo_of_place placed).spelled_eq
  have names_eq : FileTree.names path =
      FileTree.names outputDir ++ named.map Utf8.encode := by
    rw [path_eq, FileTree.names, List.map_append]
    rfl
  rw [FileTree.spelled, start_eq, names_eq, Path.collapse_append] at spelled
  rw [← spelled, ← List.append_nil (Path.collapse _ _ (FileTree.names outputDir))]
  exact Path.isPrefix_collapse (neverAbove_names never)

/--
The path of an artifact starts with the parts of the output directory.  What follows never
leaves that directory exactly when no front of the directories of the schema has more ways
up than down, and then the artifact lies inside of the output directory in every tree.
-/
theorem path_staysInside_iff
    (outputDir : Path)
    (spelling : Text)
    (text : Text)
    (artifact : Artifact) :
    ∃ named,
      artifact.path outputDir ⟨.ofText spelling, text⟩ =
        ⟨outputDir.root, outputDir.parts ++ named⟩ ∧
      (StaysInside named ↔ NeverAbove (Path.ofText spelling).parts.dropLast) ∧
      (NeverAbove (Path.ofText spelling).parts.dropLast →
        ∀ (tree : FileTree) (parent : Location) (name : FileName),
          tree.place (artifact.path outputDir ⟨.ofText spelling, text⟩) =
            .ok (.named parent name) →
          tree.spelled outputDir <+: parent ++ [name]) := by
  obtain ⟨named, after⟩ := exists_namedAfter artifact.ending (Path.ofText spelling).parts
  have path_eq : artifact.path outputDir ⟨.ofText spelling, text⟩ =
      ⟨outputDir.root, outputDir.parts ++ named⟩ :=
    path_of_namedAfter outputDir after
  have stays_iff := staysInside_iff_of_namedAfter after
  refine ⟨named, path_eq, stays_iff, fun never tree parent name placed => ?_⟩
  rw [← stays_iff, Path.staysInside_iff] at never
  exact isPrefix_of_neverAbove path_eq never placed

/-- A path that goes up below the root has its artifacts inside of the output directory. -/
theorem path_staysInside_detour :
    let spelling : Text := "/a/../m.capnp"
    let outputDir : Path := .ofText "out"
    let tree : FileTree :=
      ⟨["work"], [(["work", "out"], .directory), (["work", "out", "a"], .directory)]⟩
    NeverAbove (Path.ofText spelling).parts.dropLast ∧
      tree.place (plain.path outputDir ⟨.ofText spelling, []⟩) =
        .ok (.named ["work", "out"] "m.go") ∧
      tree.spelled outputDir <+: ["work", "out"] ++ ["m.go"] := by
  intro spelling outputDir tree
  have never : NeverAbove (Path.ofText spelling).parts.dropLast := by decide +kernel
  have path_eq : plain.path outputDir ⟨.ofText spelling, []⟩ =
      ⟨.none, ["out", "a", "..", "m.go"]⟩ := by
    decide +kernel
  have placed : tree.place (plain.path outputDir ⟨.ofText spelling, []⟩) =
      .ok (.named ["work", "out"] "m.go") := by
    rw [path_eq, FileTree.place, if_neg (by decide +kernel)]
    rfl
  obtain ⟨_, _, _, inside⟩ := path_staysInside_iff outputDir spelling [] plain
  exact ⟨never, placed, inside never tree _ _ placed⟩

/-- An absolute path that goes up from the root has its artifacts beside the output directory. -/
theorem path_leaves_outputDir :
    let source : Schema.Source := ⟨.ofText "/../m.capnp", []⟩
    let outputDir : Path := .ofText "out"
    let tree : FileTree := ⟨["work"], [(["work", "out"], .directory)]⟩
    let named : List Text := ["..", "m.go"]
    source.path.isAbsolute = true ∧
      plain.path outputDir source = ⟨outputDir.root, outputDir.parts ++ named⟩ ∧
      ¬StaysInside named ∧
      tree.place (plain.path outputDir source) = .ok (.named ["work"] "m.go") ∧
      ¬tree.spelled outputDir <+: ["work", "m.go"] := by
  intro source outputDir tree named
  have path_eq : plain.path outputDir source = ⟨.none, ["out", "..", "m.go"]⟩ := by
    decide +kernel
  refine ⟨by decide +kernel, path_eq, ?_, ?_, by decide +kernel⟩
  · rw [Path.staysInside_iff]
    decide +kernel
  · rw [path_eq, FileTree.place, if_neg (by decide +kernel)]
    rfl

end Artifact
end SchemaCodegen
