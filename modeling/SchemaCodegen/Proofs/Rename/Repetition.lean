import Mathlib.Data.List.Infix
import SchemaCodegen.Proofs.Rename.Insertion
import SchemaCodegen.Proofs.Text.Cutting

/-!
# Renaming twice

A second pass for the same name finds it where the first pass has found it, and puts
another suffix behind it.  It finds more if a tail of the suffix meets the name: the name
may stand in the suffix, or start in it and end in the text behind.
-/

namespace SchemaCodegen
namespace Rename

open Occurrence (Cut replaceFrom)

/-- No nonempty tail of the suffix starts the name or starts with it. -/
def Inert (name suffix : Text) : Prop :=
  ∀ tail, tail <:+ suffix → tail ≠ [] → ¬tail <+: name ∧ ¬name <+: tail

instance (name suffix : Text) : Decidable (Inert name suffix) :=
  decidable_of_iff
    (∀ tail ∈ suffix.tails, tail ≠ [] → ¬tail <+: name ∧ ¬name <+: tail)
    (by simp only [List.mem_tails, Inert])

variable {name suffix : Text}

/-- The name does not start in an inert suffix, whatever follows. -/
theorem Inert.not_starts
    (inert : Inert name suffix)
    {tail : Text}
    (isTail : tail <:+ suffix)
    (nonempty : tail ≠ [])
    (rest : Text) :
    ¬name <+: tail ++ rest := by
  intro starts
  obtain ⟨startsNone, startsWithNone⟩ := inert tail isTail nonempty
  rcases List.prefix_or_prefix_of_prefix starts (List.prefix_append tail rest) with
    within | beyond
  · exact startsWithNone within
  · exact startsNone beyond

/-- Unless the suffix is inert, the name occurs behind it before a full name fits in there. -/
theorem exists_occurs_of_not_inert
    (nameNonempty : name ≠ [])
    (active : ¬Inert name suffix) :
    ∃ rest, rest.length < name.length ∧ name <:+: suffix ++ rest := by
  simp only [Inert, not_forall, not_and_or, not_not] at active
  obtain ⟨tail, ⟨early, rfl⟩, tailNonempty, ⟨rest, rfl⟩ | within⟩ := active
  · refine ⟨rest, ?_, early, [], by simp⟩
    have positive := List.length_pos_of_ne_nil tailNonempty
    rw [List.length_append]
    omega
  · refine ⟨[], List.length_pos_of_ne_nil nameNonempty, ?_⟩
    rw [List.append_nil]
    exact within.isInfix.trans (List.suffix_append early tail).isInfix

section Pass

variable (nameNonempty : name ≠ [])
include nameNonempty

theorem rename_singleton (text : Text) :
    rename .anywhere suffix [name] text = replaceFrom name (name ++ suffix) 0 text := by
  have alone : distinctNames [name] = [name] := by
    simp [distinctNames, nameNonempty]
  rw [rename, alone, List.foldl_cons, List.foldl_nil, renameOne,
    Occurrence.replace_of_ne_nil _ nameNonempty]

/-- Behind an inert suffix the search goes on where it has gone on before. -/
theorem replaceFrom_intercalate
    (inert : Inert name suffix)
    (replacement : Text)
    {text : Text}
    {gaps : List Text}
    (cut : Cut name text gaps) :
    replaceFrom name replacement 0 ((name ++ suffix).intercalate gaps) =
      (replacement ++ suffix).intercalate gaps := by
  induction cut with
  | @last gap absent =>
      rw [List.intercalate_singleton, List.intercalate_singleton,
        Occurrence.replaceFrom_of_not_occurs replacement absent]
  | @found gap rest gaps first cut inductionHypothesis =>
      rw [List.intercalate_cons_of_ne_nil cut.gaps_ne_nil,
        List.intercalate_cons_of_ne_nil cut.gaps_ne_nil]
      generalize (name ++ suffix).intercalate gaps = later at inductionHypothesis ⊢
      have passed : replaceFrom name replacement 0 (suffix ++ later) =
          suffix ++ replaceFrom name replacement 0 later :=
        Occurrence.replaceFrom_append_of_not_starts replacement
          fun tail isTail nonempty => inert.not_starts isTail nonempty later
      calc
        replaceFrom name replacement 0 (gap ++ (name ++ suffix) ++ later)
        _ = replaceFrom name replacement 0 (gap ++ name ++ (suffix ++ later)) := by
          simp only [List.append_assoc]
        _ = gap ++ replacement ++ replaceFrom name replacement 0 (suffix ++ later) :=
          Occurrence.replaceFrom_of_isFirst replacement nameNonempty
            (first.of_rest (suffix ++ later))
        _ = gap ++ (replacement ++ suffix) ++ (replacement ++ suffix).intercalate gaps := by
          rw [passed, inductionHypothesis]
          simp only [List.append_assoc]

theorem replaceFrom_ne_of_occurs
    (suffixNonempty : suffix ≠ [])
    {text : Text}
    (occurs : name <:+: text) :
    replaceFrom name (name ++ suffix) 0 text ≠ text := by
  obtain ⟨gap, rest, rfl, first⟩ := Occurrence.exists_isFirst occurs
  have grows := (suffixed_replaceFrom nameNonempty suffix 0 rest).insertions.sublist.length_le
  have positive := List.length_pos_of_ne_nil suffixNonempty
  intro same
  rw [Occurrence.replaceFrom_of_isFirst _ nameNonempty first] at same
  have length_eq := congrArg List.length same
  simp only [List.length_append, List.drop_zero] at length_eq grows
  omega

/-- A name that occurs behind the suffix is renamed where the first pass has not found it. -/
theorem replaceFrom_replaceFrom_ne
    (suffixNonempty : suffix ≠ [])
    {rest : Text}
    (absent : ¬name <:+: rest)
    (occurs : name <:+: suffix ++ rest) :
    replaceFrom name (name ++ suffix) 0 (replaceFrom name (name ++ suffix) 0 (name ++ rest)) ≠
      name ++ suffix ++ suffix ++ rest := by
  rw [Occurrence.replaceFrom_pattern _ nameNonempty,
    Occurrence.replaceFrom_of_not_occurs _ absent, List.append_assoc,
    Occurrence.replaceFrom_pattern _ nameNonempty, List.append_assoc (name ++ suffix)]
  intro same
  exact replaceFrom_ne_of_occurs nameNonempty suffixNonempty occurs
    (List.append_cancel_left same)

end Pass

/--
Renaming twice puts two suffixes behind every place where the name is found in the text at
first, for all texts, if and only if no nonempty tail of the suffix starts the name or
starts with it.
-/
theorem rename_rename_iff
    (name suffix : Text)
    (nameNonempty : name ≠ [])
    (suffixNonempty : suffix ≠ []) :
    (∀ text, ∃ gaps, Cut name text gaps ∧
      rename .anywhere suffix [name] (rename .anywhere suffix [name] text) =
        (name ++ suffix ++ suffix).intercalate gaps) ↔
      ∀ tail, tail <:+ suffix → tail ≠ [] → ¬tail <+: name ∧ ¬name <+: tail := by
  simp only [rename_singleton nameNonempty]
  constructor
  · intro law
    by_contra active
    -- In this text the first pass finds the name at the head only, the second finds it again.
    obtain ⟨rest, short, occurs⟩ := exists_occurs_of_not_inert nameNonempty active
    have absent : ¬name <:+: rest := fun within => by
      have fits := within.length_le
      omega
    have cut : Cut name (name ++ rest) [[], rest] :=
      .found (Occurrence.isFirst_nil rest) (.last absent)
    obtain ⟨gaps, otherCut, twice⟩ := law (name ++ rest)
    rw [otherCut.unique cut] at twice
    apply replaceFrom_replaceFrom_ne nameNonempty suffixNonempty absent occurs
    simpa [List.intercalate] using twice
  · intro inert text
    obtain ⟨gaps, cut⟩ := Occurrence.exists_cut nameNonempty text
    refine ⟨gaps, cut, ?_⟩
    have once := Occurrence.replace_of_cut (name ++ suffix) nameNonempty cut
    rw [Occurrence.replace_of_ne_nil _ nameNonempty] at once
    rw [once, replaceFrom_intercalate nameNonempty inert _ cut]

/-- A suffix that starts with the first letter of a name is fine, one that ends with it not. -/
theorem rename_rename_iff_node :
    let name := Text.ofString "Node"
    let starting := Text.ofString "Nx"
    let ending := Text.ofString "xN"
    name ≠ [] ∧ starting ≠ [] ∧ ending ≠ [] ∧
      (∀ text, ∃ gaps, Cut name text gaps ∧
        rename .anywhere starting [name] (rename .anywhere starting [name] text) =
          (name ++ starting ++ starting).intercalate gaps) ∧
      ¬∀ text, ∃ gaps, Cut name text gaps ∧
        rename .anywhere ending [name] (rename .anywhere ending [name] text) =
          (name ++ ending ++ ending).intercalate gaps := by
  intro name starting ending
  have nameNonempty : name ≠ [] := by decide +kernel
  have startingNonempty : starting ≠ [] := by decide +kernel
  have endingNonempty : ending ≠ [] := by decide +kernel
  have inert : Inert name starting := by decide +kernel
  have active : ¬Inert name ending := by decide +kernel
  refine ⟨nameNonempty, startingNonempty, endingNonempty, ?_, ?_⟩
  · exact (rename_rename_iff name starting nameNonempty startingNonempty).mpr inert
  · exact mt (rename_rename_iff name ending nameNonempty endingNonempty).mp active

end Rename
end SchemaCodegen
