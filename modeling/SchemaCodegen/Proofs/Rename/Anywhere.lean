import Mathlib.Logic.Relation
import SchemaCodegen.Proofs.Rename.WholeIdentifier
import SchemaCodegen.Proofs.Text.Cutting

/-!
# Renaming wherever a name stands

A pass for one name cuts the text at the name and joins the gaps by the name with its
suffix.  The passes follow each other in the order in which the names are first seen.
So a renamed text arises by insertions of the suffix, each of them right behind a name.
-/

namespace SchemaCodegen
namespace Rename

open Occurrence (Cut)
open Relation (ReflTransGen)

/-! ## Passes -/

/-- Passes for single names, each over the text that the one before has left. -/
inductive Passes (suffix : Text) : List Text → Text → Text → Prop
  /-- There is no further name. -/
  | done {text : Text} : Passes suffix [] text text
  /-- The text is cut at a name, and every occurrence gets the suffix. -/
  | pass {name text after : Text} {names gaps : List Text} :
      Cut name text gaps →
      Passes suffix names ((name ++ suffix).intercalate gaps) after →
      Passes suffix (name :: names) text after

theorem renameOne_anywhere
    (suffix : Text)
    {name text : Text}
    {gaps : List Text}
    (nonempty : name ≠ [])
    (cut : Cut name text gaps) :
    renameOne .anywhere suffix text name = (name ++ suffix).intercalate gaps :=
  Occurrence.replace_of_cut (name ++ suffix) nonempty cut

theorem passes_iff_eq_foldl
    {suffix : Text}
    {names : List Text}
    (nonempty : ∀ name ∈ names, name ≠ [])
    (text after : Text) :
    Passes suffix names text after ↔
      after = names.foldl (renameOne .anywhere suffix) text := by
  induction names generalizing text with
  | nil =>
      rw [List.foldl_nil]
      constructor
      · rintro ⟨⟩
        rfl
      · rintro rfl
        exact .done
  | cons name names inductionHypothesis =>
      rw [List.forall_mem_cons] at nonempty
      obtain ⟨gaps, cut⟩ := Occurrence.exists_cut nonempty.1 text
      have once := renameOne_anywhere suffix nonempty.1 cut
      rw [List.foldl_cons, once, ← inductionHypothesis nonempty.2]
      constructor
      · rintro (_ | ⟨otherCut, passes⟩)
        rwa [cut.unique otherCut]
      · exact .pass cut

/-! ## Insertions -/

/-- A copy of the suffix is put right behind an occurrence of a listed name. -/
inductive InsertsBehind (names : List Text) (suffix : Text) : Text → Text → Prop
  /-- The name is not empty, and it stands in the text already. -/
  | insert {name : Text} (front back : Text) :
      name ∈ names →
      name ≠ [] →
      InsertsBehind names suffix (front ++ name ++ back) (front ++ name ++ suffix ++ back)

namespace InsertsBehind

variable {names : List Text} {suffix before after : Text}

theorem append_left
    (inserts : InsertsBehind names suffix before after)
    (early : Text) :
    InsertsBehind names suffix (early ++ before) (early ++ after) := by
  cases inserts with
  | insert front back listed nonempty =>
      simpa using insert (early ++ front) back listed nonempty

theorem sublist (inserts : InsertsBehind names suffix before after) :
    before.Sublist after := by
  cases inserts with
  | insert front back _ _ =>
      exact (List.sublist_append_left _ suffix).append (List.Sublist.refl back)

end InsertsBehind

section Insertions

variable {names : List Text} {suffix text after : Text}

/-- A pass is a sequence of insertions, from the first occurrence to the last. -/
theorem insertsBehind_of_cut
    {name : Text}
    {gaps : List Text}
    (listed : name ∈ names)
    (nonempty : name ≠ [])
    (cut : Cut name text gaps) :
    ReflTransGen (InsertsBehind names suffix) text ((name ++ suffix).intercalate gaps) := by
  induction cut with
  | @last gap _ =>
      rw [List.intercalate_singleton]
  | @found gap rest gaps _ cut inductionHypothesis =>
      rw [List.intercalate_cons_of_ne_nil cut.gaps_ne_nil]
      have first : InsertsBehind names suffix (gap ++ name ++ rest)
          (gap ++ (name ++ suffix) ++ rest) := by
        simpa using InsertsBehind.insert gap rest listed nonempty
      have others : ReflTransGen (InsertsBehind names suffix)
          (gap ++ (name ++ suffix) ++ rest)
          (gap ++ (name ++ suffix) ++ (name ++ suffix).intercalate gaps) :=
        inductionHypothesis.lift (gap ++ (name ++ suffix) ++ ·)
          fun _ _ inserts => inserts.append_left _
      exact .head first others

theorem insertsBehind_of_passes
    {passed : List Text}
    (listed : ∀ name ∈ passed, name ∈ names ∧ name ≠ [])
    (passes : Passes suffix passed text after) :
    ReflTransGen (InsertsBehind names suffix) text after := by
  induction passes with
  | done => exact .refl
  | pass cut _ inductionHypothesis =>
      rw [List.forall_mem_cons] at listed
      exact (insertsBehind_of_cut listed.1.1 listed.1.2 cut).trans
        (inductionHypothesis listed.2)

theorem sublist_of_insertsBehind
    (inserts : ReflTransGen (InsertsBehind names suffix) text after) :
    text.Sublist after := by
  induction inserts with
  | refl => exact List.Sublist.refl text
  | tail _ last inductionHypothesis => exact inductionHypothesis.trans last.sublist

end Insertions

/-! ## Names that make no difference -/

theorem eraseDups_append_cons_of_mem
    {name : Text}
    {front : List Text}
    (known : name ∈ front)
    (back : List Text) :
    (front ++ name :: back).eraseDups = (front ++ back).eraseDups := by
  have dropped : (name :: back).removeAll front = back.removeAll front := by
    simp [List.removeAll, known]
  rw [List.eraseDups_append, List.eraseDups_append, dropped]

theorem filter_eraseDups
    (keeps : Text → Bool)
    (names : List Text) :
    names.eraseDups.filter keeps = (names.filter keeps).eraseDups := by
  induction length_eq : names.length using Nat.strong_induction_on generalizing names with
  | _ length inductionHypothesis =>
      cases names with
      | nil => rfl
      | cons name names =>
          have shorter : (names.filter (!· == name)).length < length := by
            have le := List.length_filter_le (!· == name) names
            rw [List.length_cons] at length_eq
            omega
          rw [List.eraseDups_cons, List.filter_cons, List.filter_cons,
            inductionHypothesis _ shorter _ rfl, List.filter_filter]
          by_cases kept : keeps name
          · rw [if_pos kept, if_pos kept, List.eraseDups_cons, List.filter_filter]
            simp only [Bool.and_comm]
          · rw [if_neg kept, if_neg kept]
            congr 1
            apply List.filter_congr
            intro other _
            by_cases same : other = name <;> simp [same, kept]

theorem distinctNames_append_cons_nil (front back : List Text) :
    distinctNames (front ++ [] :: back) = distinctNames (front ++ back) := by
  rw [distinctNames_eq, distinctNames_eq, filter_eraseDups, filter_eraseDups]
  simp

/--
Renaming applies the passes of the distinct nonempty names in first-seen order.  It only
inserts copies of the suffix behind listed names; repeated and empty names do nothing.
-/
theorem rename_anywhere
    (suffix : Text)
    (names : List Text)
    (text : Text) :
    (∀ name ∈ names, name ≠ [] → ∀ text : Text, ∃! gaps, Cut name text gaps) ∧
      (∀ after, Passes suffix (names.eraseDups.filter (· ≠ [])) text after ↔
        after = rename .anywhere suffix names text) ∧
      text.Sublist (rename .anywhere suffix names text) ∧
      ReflTransGen (InsertsBehind names suffix) text (rename .anywhere suffix names text) ∧
      ∀ front back, names = front ++ back →
        (∀ name ∈ front, rename .anywhere suffix (front ++ name :: back) text =
          rename .anywhere suffix names text) ∧
        rename .anywhere suffix (front ++ [] :: back) text =
          rename .anywhere suffix names text := by
  have listed : ∀ name ∈ names.eraseDups.filter (· ≠ []), name ∈ names ∧ name ≠ [] := by
    intro name member
    obtain ⟨known, nonempty⟩ := List.mem_filter.mp member
    exact ⟨List.mem_eraseDups.mp known, by simpa using nonempty⟩
  have passes_iff : ∀ after, Passes suffix (names.eraseDups.filter (· ≠ [])) text after ↔
      after = rename .anywhere suffix names text := by
    intro after
    rw [passes_iff_eq_foldl (fun name member => (listed name member).2), rename,
      distinctNames_eq]
  have inserts := insertsBehind_of_passes listed ((passes_iff _).mpr rfl)
  refine ⟨fun name _ nonempty text => Occurrence.existsUnique_cut nonempty text,
    passes_iff, sublist_of_insertsBehind inserts, inserts, ?_⟩
  rintro front back rfl
  refine ⟨fun name known => ?_, ?_⟩
  · unfold rename
    rw [distinctNames_eq, distinctNames_eq, eraseDups_append_cons_of_mem known]
  · unfold rename
    rw [distinctNames_append_cons_nil]

/-- A later pass may cut a suffix that an earlier one has inserted. -/
example :
    rename .anywhere (Text.ofString "Capn") [Text.ofString "User", Text.ofString "Ca"]
        (Text.ofString "UserProfile") =
      Text.ofString "UserCaCapnpnProfile" := by
  decide +kernel

end Rename
end SchemaCodegen
