import SchemaCodegen.Proofs.Path.Spelling

/-!
# Reading paths back

A path that is read from a spelling holds proper parts only: they lead somewhere and hold
no slash.  Such parts come back when they are joined by slashes and read again.
-/

namespace SchemaCodegen
namespace Path

/-- A part that leads somewhere and holds no slash. -/
structure IsProperPart (part : Text) : Prop where
  /-- The part is neither empty nor a single dot. -/
  leads : isPart part = true
  /-- The part is one piece of a spelling. -/
  noSlash : slash ∉ part

theorem not_mem_of_mem_pieces
    {text piece : Text}
    (member : piece ∈ pieces text) :
    slash ∉ piece := by
  induction text generalizing piece with
  | nil =>
      rw [pieces, List.mem_singleton] at member
      simp [member]
  | cons symbol rest inductionHypothesis =>
      rw [pieces] at member
      split at member
      case isTrue =>
        rcases List.mem_cons.mp member with rfl | later
        · exact List.not_mem_nil
        · exact inductionHypothesis later
      case isFalse different =>
        split at member
        case h_1 =>
          rw [List.mem_singleton] at member
          simpa [member] using Ne.symm different
        case h_2 first others rest_eq =>
          rw [rest_eq] at inductionHypothesis
          rcases List.mem_cons.mp member with rfl | later
          · rw [List.mem_cons, not_or]
            exact ⟨Ne.symm different, inductionHypothesis List.mem_cons_self⟩
          · exact inductionHypothesis (List.mem_cons_of_mem first later)

theorem isProperPart_of_mem
    {spelling part : Text}
    (member : part ∈ (ofText spelling).parts) :
    IsProperPart part := by
  obtain ⟨known, leads⟩ := List.mem_filter.mp member
  exact ⟨leads, not_mem_of_mem_pieces known⟩

/-- A stem with an ending of two symbols or more is a proper part. -/
theorem isProperPart_append
    {stem ending : Text}
    (stemNoSlash : slash ∉ stem)
    (endingNoSlash : slash ∉ ending)
    (long : 2 ≤ ending.length) :
    IsProperPart (stem ++ ending) := by
  refine ⟨isPart_of_two_le_length ?_, by simp [stemNoSlash, endingNoSlash]⟩
  rw [List.length_append]
  omega

theorem pieces_append_slash
    {front : Text}
    (noSlash : slash ∉ front)
    (rest : Text) :
    pieces (front ++ slash :: rest) = front :: pieces rest := by
  induction front with
  | nil => rfl
  | cons symbol front inductionHypothesis =>
      rw [List.mem_cons, not_or] at noSlash
      rw [List.cons_append, pieces, if_neg (Ne.symm noSlash.1), inductionHypothesis noSlash.2]

theorem partsOf_joinParts
    {parts : List Text}
    (proper : ∀ part ∈ parts, IsProperPart part) :
    partsOf (joinParts parts) = parts := by
  induction parts with
  | nil => rfl
  | cons part rest inductionHypothesis =>
      rw [List.forall_mem_cons] at proper
      obtain ⟨⟨leads, noSlash⟩, properRest⟩ := proper
      by_cases more : rest = []
      · subst more
        rw [joinParts, partsOf, pieces_of_not_mem noSlash, List.filter_cons_of_pos leads]
        rfl
      · have later := inductionHypothesis properRest
        rw [partsOf] at later
        rw [joinParts_cons more, partsOf, pieces_append_slash noSlash,
          List.filter_cons_of_pos leads, later]

theorem rootOf_joinParts
    {parts : List Text}
    (proper : ∀ part ∈ parts, IsProperPart part) :
    rootOf (joinParts parts) = .none := by
  cases parts with
  | nil => rfl
  | cons part rest =>
      obtain ⟨leads, noSlash⟩ := proper part List.mem_cons_self
      cases part with
      | nil => contradiction
      | cons first others =>
          have different : first ≠ slash := fun same => noSlash (by simp [same])
          by_cases more : rest = []
          · simp [more, joinParts, rootOf, different]
          · simp [joinParts_cons more, rootOf, different]

/-- Proper parts are read back from their spelling. -/
theorem ofText_joinParts
    {parts : List Text}
    (proper : ∀ part ∈ parts, IsProperPart part) :
    ofText (joinParts parts) = ⟨.none, parts⟩ := by
  rw [ofText, rootOf_joinParts proper, partsOf_joinParts proper]

/-- What stands behind the spelling of parts belongs to the last one. -/
theorem joinParts_append_last
    (above : List Text)
    (stem ending : Text) :
    joinParts (above ++ [stem ++ ending]) = joinParts (above ++ [stem]) ++ ending := by
  by_cases direct : above = []
  · subst direct
    rfl
  · simp only [joinParts_append direct, List.append_assoc, List.cons_append]

/-- An ending without slashes that the parts end in is an ending of the last one. -/
theorem isSuffix_of_isSuffix_joinParts
    {above : List Text}
    {last ending : Text}
    (noSlash : slash ∉ ending)
    (ends : ending <:+ joinParts (above ++ [last])) :
    ending <:+ last := by
  by_cases direct : above = []
  · rwa [direct] at ends
  · rw [joinParts_append direct] at ends
    rcases List.suffix_or_suffix_of_suffix ends (List.suffix_append _ _) with within | beyond
    · rcases List.suffix_cons_iff.mp within with rfl | behind
      · exact absurd List.mem_cons_self noSlash
      · exact behind
    · exact absurd (beyond.mem List.mem_cons_self) noSlash

end Path
end SchemaCodegen
