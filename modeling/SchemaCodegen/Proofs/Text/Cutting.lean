import Mathlib.Data.List.Infix
import Mathlib.Logic.ExistsUnique
import SchemaCodegen.Text.Occurrence

/-!
# Cutting at first occurrences

A list is cut at the first occurrence of a pattern, what follows it is cut in the same
way, and so on until the pattern does not occur any more.  There is exactly one such
cut, and replacing the pattern joins the gaps by the replacement.
-/

namespace SchemaCodegen
namespace Occurrence

variable {α : Type} {pattern : List α}

/-- The pattern stands behind the gap, and nowhere before. -/
def IsFirst (pattern gap rest : List α) : Prop :=
  ∀ front back, gap ++ pattern ++ rest = front ++ pattern ++ back → gap.length ≤ front.length

/-- A pattern is cut out at its first occurrence, and again from what follows it. -/
inductive Cut (pattern : List α) : List α → List (List α) → Prop
  /-- The pattern does not occur. -/
  | last {gap : List α} :
      ¬pattern <:+: gap →
      Cut pattern gap [gap]
  /-- The pattern occurs behind a gap for the first time. -/
  | found {gap rest : List α} {gaps : List (List α)} :
      IsFirst pattern gap rest →
      Cut pattern rest gaps →
      Cut pattern (gap ++ pattern ++ rest) (gap :: gaps)

/-! ## First occurrences -/

theorem isFirst_nil (rest : List α) : IsFirst pattern [] rest :=
  fun front _ _ => Nat.zero_le front.length

theorem isFirst_cons_iff
    {item : α}
    {gap rest : List α} :
    IsFirst pattern (item :: gap) rest ↔
      ¬pattern <+: item :: (gap ++ pattern ++ rest) ∧ IsFirst pattern gap rest := by
  constructor
  · intro first
    constructor
    · rintro ⟨back, stands⟩
      have early := first [] back (by simpa using stands.symm)
      simp at early
    · intro front back found
      have behind := first (item :: front) back (by simpa using found)
      simpa using behind
  · rintro ⟨absent, first⟩ front back found
    cases front with
    | nil => exact absurd ⟨back, by simpa using found.symm⟩ absent
    | cons other front =>
        have tail_eq : gap ++ pattern ++ rest = front ++ pattern ++ back := by
          simpa using (List.cons.inj found).2
        simpa using first front back tail_eq

/-- A pattern that occurs has a first occurrence. -/
theorem exists_isFirst
    {list : List α}
    (occurs : pattern <:+: list) :
    ∃ gap rest, list = gap ++ pattern ++ rest ∧ IsFirst pattern gap rest := by
  induction list with
  | nil =>
      obtain rfl := List.infix_nil.mp occurs
      exact ⟨[], [], rfl, isFirst_nil []⟩
  | cons item list inductionHypothesis =>
      by_cases here : pattern <+: item :: list
      · obtain ⟨rest, found⟩ := here
        exact ⟨[], rest, by simpa using found.symm, isFirst_nil rest⟩
      · obtain ⟨gap, rest, rfl, first⟩ :=
          inductionHypothesis ((List.infix_cons_iff.mp occurs).resolve_left here)
        exact ⟨item :: gap, rest, by simp, isFirst_cons_iff.mpr ⟨here, first⟩⟩

/-- There is only one place where a pattern occurs first. -/
theorem IsFirst.unique
    {gap otherGap rest otherRest : List α}
    (first : IsFirst pattern gap rest)
    (other : IsFirst pattern otherGap otherRest)
    (same : gap ++ pattern ++ rest = otherGap ++ pattern ++ otherRest) :
    gap = otherGap ∧ rest = otherRest := by
  have length_eq : gap.length = otherGap.length :=
    Nat.le_antisymm (first otherGap otherRest same) (other gap rest same.symm)
  rw [List.append_assoc, List.append_assoc] at same
  obtain ⟨gap_eq, behind⟩ := List.append_inj same length_eq
  exact ⟨gap_eq, List.append_cancel_left behind⟩

/-- Where a pattern occurs first does not depend on what follows it. -/
theorem IsFirst.of_rest
    {gap rest : List α}
    (first : IsFirst pattern gap rest)
    (other : List α) :
    IsFirst pattern gap other := by
  intro front back found
  by_contra early
  have shorter : (front ++ pattern).length ≤ (gap ++ pattern).length := by
    simp only [List.length_append]
    omega
  have starts : front ++ pattern <+: gap ++ pattern :=
    List.prefix_of_prefix_length_le ⟨back, found.symm⟩ ⟨other, rfl⟩ shorter
  obtain ⟨between, within⟩ := starts
  exact early (first front (between ++ rest) (by rw [← within, List.append_assoc]))

/-- A pattern does not start in the gap before its first occurrence. -/
theorem IsFirst.not_starts
    {gap rest tail : List α}
    (first : IsFirst pattern gap rest)
    (isTail : tail <:+ gap)
    (tailNonempty : tail ≠ []) :
    ¬pattern <+: tail ++ (pattern ++ rest) := by
  obtain ⟨early, rfl⟩ := isTail
  rintro ⟨back, stands⟩
  have notEarlier := first early back (by simp only [List.append_assoc, stands])
  have positive := List.length_pos_of_ne_nil tailNonempty
  rw [List.length_append] at notEarlier
  omega

/-! ## Cuts -/

theorem Cut.gaps_ne_nil
    {list : List α}
    {gaps : List (List α)}
    (cut : Cut pattern list gaps) :
    gaps ≠ [] := by
  cases cut <;> simp

theorem Cut.unique
    {list : List α}
    {gaps otherGaps : List (List α)}
    (cut : Cut pattern list gaps)
    (other : Cut pattern list otherGaps) :
    gaps = otherGaps := by
  induction cut generalizing otherGaps with
  | @last gap absent =>
      cases other with
      | last _ => rfl
      | @found otherGap rest _ _ _ => exact absurd ⟨otherGap, rest, rfl⟩ absent
  | @found gap rest gaps first _ inductionHypothesis =>
      generalize same : gap ++ pattern ++ rest = list at other
      cases other with
      | last absent => exact absurd ⟨gap, rest, same⟩ absent
      | found otherFirst otherCut =>
          obtain ⟨rfl, rfl⟩ := first.unique otherFirst same
          rw [inductionHypothesis otherCut]

theorem exists_cut
    (nonempty : pattern ≠ [])
    (list : List α) :
    ∃ gaps, Cut pattern list gaps := by
  -- What follows an occurrence is shorter, because the pattern is not empty.
  induction length_eq : list.length using Nat.strong_induction_on generalizing list with
  | _ length inductionHypothesis =>
      by_cases occurs : pattern <:+: list
      · obtain ⟨gap, rest, rfl, first⟩ := exists_isFirst occurs
        have shorter : rest.length < length := by
          have positive := List.length_pos_of_ne_nil nonempty
          simp only [List.length_append] at length_eq
          omega
        obtain ⟨gaps, cut⟩ := inductionHypothesis rest.length shorter rest rfl
        exact ⟨gap :: gaps, .found first cut⟩
      · exact ⟨[list], .last occurs⟩

/-- A list can be cut at a nonempty pattern in exactly one way. -/
theorem existsUnique_cut
    (nonempty : pattern ≠ [])
    (list : List α) :
    ∃! gaps, Cut pattern list gaps := by
  obtain ⟨gaps, cut⟩ := exists_cut nonempty list
  exact ⟨gaps, cut, fun _ other => other.unique cut⟩

/-! ## Replacing -/

section Replacing

variable [DecidableEq α] (replacement : List α)

theorem replaceFrom_consumed (front rest : List α) :
    replaceFrom pattern replacement front.length (front ++ rest) =
      replaceFrom pattern replacement 0 rest := by
  induction front with
  | nil => rfl
  | cons item front inductionHypothesis => exact inductionHypothesis

theorem replaceFrom_cons_of_not_starts
    {item : α}
    {rest : List α}
    (absent : ¬pattern <+: item :: rest) :
    replaceFrom pattern replacement 0 (item :: rest) =
      item :: replaceFrom pattern replacement 0 rest := by
  rw [replaceFrom, if_neg (by rwa [List.isPrefixOf_iff_prefix])]

theorem replaceFrom_pattern
    (nonempty : pattern ≠ [])
    (rest : List α) :
    replaceFrom pattern replacement 0 (pattern ++ rest) =
      replacement ++ replaceFrom pattern replacement 0 rest := by
  cases pattern with
  | nil => contradiction
  | cons item others =>
      have here : (item :: others).isPrefixOf (item :: (others ++ rest)) = true := by
        rw [List.isPrefixOf_iff_prefix]
        exact List.prefix_append (item :: others) rest
      rw [List.cons_append, replaceFrom, if_pos here, List.length_cons, Nat.add_sub_cancel,
        replaceFrom_consumed]

/-- A front in which no occurrence starts is kept. -/
theorem replaceFrom_append_of_not_starts
    {front rest : List α}
    (absent : ∀ tail, tail <:+ front → tail ≠ [] → ¬pattern <+: tail ++ rest) :
    replaceFrom pattern replacement 0 (front ++ rest) =
      front ++ replaceFrom pattern replacement 0 rest := by
  induction front with
  | nil => rfl
  | cons item front inductionHypothesis =>
      have here := absent (item :: front) (List.suffix_refl _) (List.cons_ne_nil item front)
      have later := inductionHypothesis fun tail isTail =>
        absent tail (isTail.trans (List.suffix_cons item front))
      rw [List.cons_append] at here
      rw [List.cons_append, replaceFrom_cons_of_not_starts replacement here, later]
      rfl

theorem replaceFrom_of_not_occurs
    {list : List α}
    (absent : ¬pattern <:+: list) :
    replaceFrom pattern replacement 0 list = list := by
  have kept : replaceFrom pattern replacement 0 (list ++ []) =
      list ++ replaceFrom pattern replacement 0 [] := by
    apply replaceFrom_append_of_not_starts
    intro tail isTail _ starts
    rw [List.append_nil] at starts
    exact absent (starts.isInfix.trans isTail.isInfix)
  simpa [replaceFrom] using kept

theorem replaceFrom_of_isFirst
    (nonempty : pattern ≠ [])
    {gap rest : List α}
    (first : IsFirst pattern gap rest) :
    replaceFrom pattern replacement 0 (gap ++ pattern ++ rest) =
      gap ++ replacement ++ replaceFrom pattern replacement 0 rest := by
  rw [List.append_assoc,
    replaceFrom_append_of_not_starts replacement fun tail => first.not_starts,
    replaceFrom_pattern replacement nonempty, List.append_assoc]

theorem replace_of_ne_nil
    (nonempty : pattern ≠ [])
    (list : List α) :
    replace pattern replacement list = replaceFrom pattern replacement 0 list := by
  rw [replace, if_neg (by simpa using nonempty)]

/-- Replacing a pattern puts the replacement between the gaps. -/
theorem replace_of_cut
    (nonempty : pattern ≠ [])
    {list : List α}
    {gaps : List (List α)}
    (cut : Cut pattern list gaps) :
    replace pattern replacement list = replacement.intercalate gaps := by
  rw [replace_of_ne_nil replacement nonempty]
  induction cut with
  | @last gap absent =>
      rw [replaceFrom_of_not_occurs replacement absent, List.intercalate_singleton]
  | found first cut inductionHypothesis =>
      rw [replaceFrom_of_isFirst replacement nonempty first, inductionHypothesis,
        List.intercalate_cons_of_ne_nil cut.gaps_ne_nil]

end Replacing
end Occurrence
end SchemaCodegen
