import Mathlib.Data.List.TakeWhile
import SchemaCodegen.CommandLine.Echo

/-!
# Text without control sequences

A text is echoed from left to right: a control sequence of a terminal is left out as a
whole, and a symbol that starts none is kept.  So a text without control sequences is
echoed as it is.
-/

namespace SchemaCodegen
namespace CommandLine
namespace Echo

/-- A control sequence: an escape and a bracket, parameters, intermediates and a final. -/
inductive IsControlSequence : Text → Prop
  /-- There may be no parameters and no intermediate symbols. -/
  | ofParts {parameters intermediates : Text} {last : Symbol} :
      (∀ symbol ∈ parameters, isParameter symbol = true) →
      (∀ symbol ∈ intermediates, isIntermediate symbol = true) →
      isFinal last = true →
      IsControlSequence
        (escapeSymbol :: openingBracket :: (parameters ++ (intermediates ++ [last])))

/-- How a text is echoed, from left to right. -/
inductive Echoes : Text → Text → Prop
  /-- Nothing is left. -/
  | nil : Echoes [] []
  /-- A control sequence is left out. -/
  | dropped {sequence rest echoed : Text} :
      IsControlSequence sequence →
      Echoes rest echoed →
      Echoes (sequence ++ rest) echoed
  /-- A symbol that starts no control sequence is kept. -/
  | kept {symbol : Symbol} {rest echoed : Text} :
      (∀ sequence, IsControlSequence sequence → ¬sequence <+: symbol :: rest) →
      Echoes rest echoed →
      Echoes (symbol :: rest) (symbol :: echoed)

/-! ## The length of a control sequence -/

/-- No symbol belongs to two of the three parts, as their ranges lie apart. -/
theorem isBetween_eq_false
    {first last otherFirst otherLast : Char}
    {symbol : Symbol}
    (isBetween_eq : isBetween otherFirst otherLast symbol = true)
    (apart : last < otherFirst ∨ otherLast < first) :
    isBetween first last symbol = false := by
  cases symbol with
  | raw | half => rfl
  | char character =>
      simp only [isBetween, Bool.and_eq_true, decide_eq_true_eq, Bool.and_eq_false_iff,
        decide_eq_false_iff_not, Char.le_def, Char.lt_def, UInt32.le_iff_toNat_le,
        UInt32.lt_iff_toNat_lt] at isBetween_eq apart ⊢
      omega

theorem takeWhile_append_cons
    {accepts : Symbol → Bool}
    {front : Text}
    {symbol : Symbol}
    (accepted : ∀ symbol ∈ front, accepts symbol = true)
    (refused : accepts symbol = false)
    (rest : Text) :
    (front ++ symbol :: rest).takeWhile accepts = front := by
  rw [List.takeWhile_append_of_pos accepted, List.takeWhile_cons, if_neg (by simp [refused]),
    List.append_nil]

/-- The parts of a control sequence end where the next part starts. -/
theorem sequenceLength_append
    {sequence : Text}
    (control : IsControlSequence sequence)
    (rest : Text) :
    sequenceLength (sequence ++ rest) = sequence.length := by
  obtain @⟨parameters, intermediates, last, areParameters, areIntermediates, isLast⟩ := control
  have notIntermediate : isIntermediate last = false :=
    isBetween_eq_false isLast (by decide)
  have intermediates_eq := takeWhile_append_cons areIntermediates notIntermediate rest
  have parameters_eq :
      (parameters ++ (intermediates ++ last :: rest)).takeWhile isParameter = parameters := by
    cases intermediates with
    | nil =>
        apply takeWhile_append_cons areParameters
        exact isBetween_eq_false isLast (by decide)
    | cons intermediate others =>
        apply takeWhile_append_cons areParameters
        have first := areIntermediates intermediate List.mem_cons_self
        exact isBetween_eq_false first (by decide)
  have shape : escapeSymbol :: openingBracket :: (parameters ++ (intermediates ++ [last])) ++ rest =
      escapeSymbol :: openingBracket :: (parameters ++ (intermediates ++ last :: rest)) := by
    simp
  rw [shape, sequenceLength]
  simp only [parameters_eq, List.drop_left, intermediates_eq, isLast, and_self, if_true,
    List.length_cons, List.length_append, List.length_nil]
  omega

theorem takeWhile_append_drop (accepts : Symbol → Bool) (text : Text) :
    text.takeWhile accepts ++ text.drop (text.takeWhile accepts).length = text :=
  List.prefix_iff_eq_append.mp (List.takeWhile_prefix accepts)

theorem exists_isControlSequence
    {text : Text}
    (found : sequenceLength text ≠ 0) :
    ∃ sequence rest, IsControlSequence sequence ∧ text = sequence ++ rest := by
  unfold sequenceLength at found
  split at found
  case h_2 => contradiction
  case h_1 first second rest =>
    have parameters_eq := takeWhile_append_drop isParameter rest
    simp only at found
    generalize rest.drop (rest.takeWhile isParameter).length = behind at found parameters_eq
    have intermediates_eq := takeWhile_append_drop isIntermediate behind
    split at found
    case h_2 => contradiction
    case h_1 last after last_eq =>
      rw [last_eq] at intermediates_eq
      split at found
      case isFalse => contradiction
      case isTrue isSequence =>
        obtain ⟨rfl, rfl, isLast⟩ := isSequence
        have areParameters : ∀ symbol ∈ rest.takeWhile isParameter,
            isParameter symbol = true := fun _ member => List.mem_takeWhile_imp member
        have areIntermediates : ∀ symbol ∈ behind.takeWhile isIntermediate,
            isIntermediate symbol = true := fun _ member => List.mem_takeWhile_imp member
        refine ⟨_, after, .ofParts areParameters areIntermediates isLast, ?_⟩
        simp [intermediates_eq, parameters_eq]

/-! ## Echoing -/

theorem IsControlSequence.ne_nil
    {sequence : Text}
    (control : IsControlSequence sequence) :
    sequence ≠ [] := by
  cases control
  simp

theorem plainFrom_consumed (sequence rest : Text) :
    plainFrom sequence.length (sequence ++ rest) = plainFrom 0 rest := by
  induction sequence with
  | nil => rfl
  | cons symbol sequence inductionHypothesis => exact inductionHypothesis

theorem plainFrom_append
    {sequence : Text}
    (control : IsControlSequence sequence)
    (rest : Text) :
    plainFrom 0 (sequence ++ rest) = plainFrom 0 rest := by
  have length_eq := sequenceLength_append control rest
  cases sequence with
  | nil => exact absurd rfl control.ne_nil
  | cons symbol others =>
      rw [List.cons_append] at length_eq ⊢
      rw [plainFrom, length_eq, List.length_cons]
      exact plainFrom_consumed others rest

theorem plainFrom_cons
    {symbol : Symbol}
    {rest : Text}
    (starts : ∀ sequence, IsControlSequence sequence → ¬sequence <+: symbol :: rest) :
    plainFrom 0 (symbol :: rest) = symbol :: plainFrom 0 rest := by
  have length_eq : sequenceLength (symbol :: rest) = 0 := by
    by_contra found
    obtain ⟨sequence, after, control, text_eq⟩ := exists_isControlSequence found
    exact starts sequence control ⟨after, text_eq.symm⟩
  rw [plainFrom, length_eq]

/-- There is only one way to echo a text. -/
theorem Echoes.eq_plainFrom
    {text echoed : Text}
    (echoes : Echoes text echoed) :
    echoed = plainFrom 0 text := by
  induction echoes with
  | nil => rfl
  | dropped control _ inductionHypothesis =>
      rw [plainFrom_append control, inductionHypothesis]
  | kept starts _ inductionHypothesis =>
      rw [plainFrom_cons starts, inductionHypothesis]

theorem echoes_plainFrom (text : Text) : Echoes text (plainFrom 0 text) := by
  -- What follows a control sequence is shorter, because no control sequence is empty.
  induction length_eq : text.length using Nat.strong_induction_on generalizing text with
  | _ length inductionHypothesis =>
      cases text with
      | nil => exact .nil
      | cons symbol rest =>
          by_cases starts : ∀ sequence, IsControlSequence sequence →
              ¬sequence <+: symbol :: rest
          · rw [plainFrom_cons starts]
            have shorter : rest.length < length := by
              rw [← length_eq, List.length_cons]
              omega
            exact .kept starts (inductionHypothesis rest.length shorter rest rfl)
          · simp only [not_forall, not_not] at starts
            obtain ⟨sequence, control, after, text_eq⟩ := starts
            have shorter : after.length < length := by
              have positive := List.length_pos_iff.mpr control.ne_nil
              rw [← length_eq, ← text_eq, List.length_append]
              omega
            rw [← text_eq, plainFrom_append control]
            exact .dropped control (inductionHypothesis after.length shorter after rfl)

theorem echoes_iff
    {text echoed : Text} :
    Echoes text echoed ↔ echoed = plainFrom 0 text := by
  constructor
  · exact Echoes.eq_plainFrom
  · rintro rfl
    exact echoes_plainFrom text

/-- A text in which no control sequence occurs is echoed as it is. -/
theorem Echoes.eq_of_free
    {text echoed : Text}
    (echoes : Echoes text echoed)
    (free : ∀ sequence, IsControlSequence sequence → ¬sequence <:+: text) :
    echoed = text := by
  induction echoes with
  | nil => rfl
  | @dropped sequence rest _ control _ _ =>
      exact absurd (List.prefix_append sequence rest).isInfix (free sequence control)
  | kept _ _ inductionHypothesis =>
      rw [inductionHypothesis]
      exact fun sequence control found => free sequence control (List.infix_cons found)

theorem plainFrom_append_of_not_mem
    {front : Text}
    (absent : escapeSymbol ∉ front)
    (rest : Text) :
    plainFrom 0 (front ++ rest) = front ++ plainFrom 0 rest := by
  induction front with
  | nil => rfl
  | cons symbol front inductionHypothesis =>
      rw [List.mem_cons, not_or] at absent
      have starts : ∀ sequence, IsControlSequence sequence →
          ¬sequence <+: symbol :: (front ++ rest) := by
        rintro _ ⟨⟩ ⟨after, text_eq⟩
        exact absent.1 (List.cons.inj text_eq).1
      rw [List.cons_append, plainFrom_cons starts, inductionHypothesis absent.2,
        List.cons_append]

/-- An error is echoed behind a fixed word, on a line of its own. -/
theorem error_eq (message : Text) :
    error message = "Error: " ++ (plainFrom 0 message).shown ++ "\n" := by
  have absent : escapeSymbol ∉ Text.ofString "Error: " := by decide
  rw [error, plain, plainFrom_append_of_not_mem absent, Text.shown_append,
    Text.shown_ofString]

end Echo
end CommandLine
end SchemaCodegen
