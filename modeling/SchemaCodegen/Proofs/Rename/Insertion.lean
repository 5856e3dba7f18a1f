import SchemaCodegen.Proofs.Text.Insertion
import SchemaCodegen.Rename

/-!
# Renaming inserts suffixes

A pass for one name puts the suffix behind some of the places where the name stands
and keeps everything else.  So several passes only insert copies of the suffix.
-/

namespace SchemaCodegen
namespace Rename

/-- A suffix is put behind some occurrences of a name, and nothing else changes. -/
inductive Suffixed (name suffix : Text) : Text → Text → Prop
  /-- Nothing is left. -/
  | nil : Suffixed name suffix [] []
  /-- A symbol is kept. -/
  | kept {before after : Text} (symbol : Symbol) :
      Suffixed name suffix before after →
      Suffixed name suffix (symbol :: before) (symbol :: after)
  /-- An occurrence of the name gets the suffix. -/
  | suffixed {before after : Text} :
      Suffixed name suffix before after →
      Suffixed name suffix (name ++ before) (name ++ suffix ++ after)

theorem Suffixed.insertions
    {name suffix before after : Text}
    (suffixed : Suffixed name suffix before after) :
    Insertions suffix before after := by
  induction suffixed with
  | nil => exact .none
  | kept symbol _ inductionHypothesis => exact inductionHypothesis.append_left [symbol]
  | suffixed _ inductionHypothesis => exact (inductionHypothesis.append_left name).insert

section Pass

variable {name : Text} (nonempty : name ≠ []) (suffix : Text)
include nonempty

/-- What follows a name at the head of a text, in terms of what follows the first symbol. -/
theorem drop_eq_of_append_eq
    {symbol : Symbol}
    {rest remaining : Text}
    (found : name ++ remaining = symbol :: rest) :
    rest.drop (name.length - 1) = remaining := by
  cases name with
  | nil => contradiction
  | cons first others =>
      obtain ⟨_, rfl⟩ := List.cons.inj found
      simp

theorem suffixed_replaceFrom (consumed : Nat) (text : Text) :
    Suffixed name suffix (text.drop consumed)
      (Occurrence.replaceFrom name (name ++ suffix) consumed text) := by
  induction text generalizing consumed with
  | nil => simpa [Occurrence.replaceFrom] using Suffixed.nil
  | cons symbol rest inductionHypothesis =>
      cases consumed with
      | succ consumed => exact inductionHypothesis consumed
      | zero =>
          rw [Occurrence.replaceFrom, List.drop_zero]
          split
          case isTrue found =>
            obtain ⟨remaining, split⟩ := List.isPrefixOf_iff_prefix.mp found
            have later := inductionHypothesis (name.length - 1)
            rw [drop_eq_of_append_eq nonempty split] at later
            rw [← split]
            exact .suffixed later
          case isFalse => exact .kept symbol (inductionHypothesis 0)

theorem suffixed_replaceIdentifiersFrom (consumed : Nat) (inside : Bool) (text : Text) :
    Suffixed name suffix (text.drop consumed)
      (replaceIdentifiersFrom name (name ++ suffix) consumed inside text) := by
  induction text generalizing consumed inside with
  | nil => simpa [replaceIdentifiersFrom] using Suffixed.nil
  | cons symbol rest inductionHypothesis =>
      cases consumed with
      | succ consumed => exact inductionHypothesis consumed _
      | zero =>
          rw [replaceIdentifiersFrom, List.drop_zero]
          split
          case isTrue found =>
            simp only [isIdentifierAt, Bool.and_eq_true, List.isPrefixOf_iff_prefix] at found
            obtain ⟨remaining, split⟩ := found.1.2
            have later := inductionHypothesis (name.length - 1) symbol.isIdentifier
            rw [drop_eq_of_append_eq nonempty split] at later
            rw [← split]
            exact .suffixed later
          case isFalse => exact .kept symbol (inductionHypothesis 0 _)

theorem suffixed_renameOne (mode : Mode) (text : Text) :
    Suffixed name suffix text (renameOne mode suffix text name) := by
  cases mode with
  | anywhere =>
      have named : ¬name.isEmpty = true := by simpa using nonempty
      rw [renameOne, Occurrence.replace, if_neg named]
      exact suffixed_replaceFrom nonempty suffix 0 text
  | wholeIdentifier => exact suffixed_replaceIdentifiersFrom nonempty suffix 0 false text

end Pass

theorem insertions_foldl_renameOne
    (mode : Mode)
    (suffix : Text)
    {names : List Text}
    (nonempty : ∀ name ∈ names, name ≠ [])
    (text : Text) :
    Insertions suffix text (names.foldl (renameOne mode suffix) text) := by
  induction names generalizing text with
  | nil => exact .none
  | cons name others inductionHypothesis =>
      rw [List.forall_mem_cons] at nonempty
      exact (suffixed_renameOne nonempty.1 suffix mode text).insertions.trans
        (inductionHypothesis nonempty.2 _)

/-- Renaming inserts copies of the suffix and changes nothing else. -/
theorem insertions_rename
    (mode : Mode)
    (suffix : Text)
    (names : List Text)
    (text : Text) :
    Insertions suffix text (rename mode suffix names text) := by
  apply insertions_foldl_renameOne
  intro name member
  simpa using (List.mem_filter.mp member).2

end Rename
end SchemaCodegen
