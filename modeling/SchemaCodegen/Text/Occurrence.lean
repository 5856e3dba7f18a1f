/-!
# Occurrences

Searching and replacing a pattern in a list.  Occurrences are taken from the
left and do not overlap.
-/

namespace SchemaCodegen
namespace Occurrence

variable {α : Type} [DecidableEq α]

/-- Whether the pattern occurs somewhere in the list. -/
def contains (pattern : List α) : List α → Bool
  | [] => pattern.isEmpty
  | item :: rest => pattern.isPrefixOf (item :: rest) || contains pattern rest

theorem contains_iff_isInfix (pattern list : List α) :
    contains pattern list = true ↔ pattern <:+: list := by
  induction list with
  | nil => simp [contains]
  | cons item rest inductionHypothesis =>
      rw [contains, Bool.or_eq_true, List.isPrefixOf_iff_prefix, inductionHypothesis,
        List.infix_cons_iff]

/--
Replaces the occurrences of a nonempty pattern behind the next `consumed` items,
which belong to an occurrence that is already replaced.
-/
def replaceFrom (pattern replacement : List α) : (consumed : Nat) → List α → List α
  | _, [] => []
  | consumed + 1, _ :: rest => replaceFrom pattern replacement consumed rest
  | 0, item :: rest =>
      if pattern.isPrefixOf (item :: rest) then
        replacement ++ replaceFrom pattern replacement (pattern.length - 1) rest
      else item :: replaceFrom pattern replacement 0 rest

/-- Puts the separator before, between and behind the items. -/
def interleave (separator : List α) : List α → List α
  | [] => separator
  | item :: rest => separator ++ item :: interleave separator rest

/-- Replaces every occurrence; the empty pattern occurs at every position. -/
def replace (pattern replacement list : List α) : List α :=
  if pattern.isEmpty then interleave replacement list
  else replaceFrom pattern replacement 0 list

end Occurrence
end SchemaCodegen
