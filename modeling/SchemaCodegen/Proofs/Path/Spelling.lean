import SchemaCodegen.Path.Basic
import SchemaCodegen.Proofs.Text.Handover

/-!
# Spellings of paths

What is put behind a spelling belongs to its last part, so paths that are spelled
alike up to their endings differ only in the ends of their last parts.
-/

namespace SchemaCodegen
namespace Path

theorem pieces_of_not_mem
    {text : Text}
    (noSlash : slash ∉ text) :
    pieces text = [text] := by
  induction text with
  | nil => rfl
  | cons symbol rest inductionHypothesis =>
      rw [List.mem_cons, not_or] at noSlash
      rw [pieces, if_neg (Ne.symm noSlash.1), inductionHypothesis noSlash.2]

/-- An ending without slashes lengthens the last piece. -/
theorem exists_pieces_append (text : Text) :
    ∃ front last, pieces text = front ++ [last] ∧
      ∀ ending, slash ∉ ending → pieces (text ++ ending) = front ++ [last ++ ending] := by
  induction text with
  | nil => exact ⟨[], [], rfl, fun ending noSlash => pieces_of_not_mem noSlash⟩
  | cons symbol rest inductionHypothesis =>
      obtain ⟨front, last, rest_eq, append_eq⟩ := inductionHypothesis
      by_cases isSlash : symbol = slash
      · refine ⟨[] :: front, last, by simp [pieces, isSlash, rest_eq], ?_⟩
        intro ending noSlash
        simp [pieces, isSlash, append_eq ending noSlash]
      · cases front with
        | nil =>
            refine ⟨[], symbol :: last, by simp [pieces, isSlash, rest_eq], ?_⟩
            intro ending noSlash
            simp [pieces, isSlash, append_eq ending noSlash]
        | cons piece front =>
            refine ⟨(symbol :: piece) :: front, last, by simp [pieces, isSlash, rest_eq], ?_⟩
            intro ending noSlash
            simp [pieces, isSlash, append_eq ending noSlash]

theorem rootOf_append
    {ending : Text}
    (noSlash : slash ∉ ending)
    (text : Text) :
    rootOf (text ++ ending) = rootOf text := by
  have noLeading : ending.takeWhile (· == slash) = [] := by
    cases ending with
    | nil => rfl
    | cons first rest =>
        have different : first ≠ slash := fun same => noSlash (by simp [same])
        simp [different]
  have leading_eq :
      (text ++ ending).takeWhile (· == slash) = text.takeWhile (· == slash) := by
    induction text with
    | nil => simpa using noLeading
    | cons first rest inductionHypothesis =>
        simp only [List.cons_append, List.takeWhile_cons, inductionHypothesis]
  rw [rootOf, rootOf, leading_eq]

theorem isPart_of_two_le_length
    {piece : Text}
    (long : 2 ≤ piece.length) :
    isPart piece = true := by
  match piece with
  | [] => simp at long
  | [single] => simp at long
  | first :: second :: rest => simp [isPart, Text.ofString]

/-- An ending of two symbols or more, none of them a slash, lengthens the last part. -/
theorem exists_ofText_append (text : Text) :
    ∃ root above stem, ∀ ending : Text, slash ∉ ending → 2 ≤ ending.length →
      ofText (text ++ ending) = ⟨root, above ++ [stem ++ ending]⟩ := by
  obtain ⟨front, last, _, append_eq⟩ := exists_pieces_append text
  refine ⟨rootOf text, front.filter isPart, last, ?_⟩
  intro ending noSlash long
  have isPart_last : isPart (last ++ ending) = true := by
    apply isPart_of_two_le_length
    rw [List.length_append]
    omega
  rw [ofText, rootOf_append noSlash, partsOf, append_eq _ noSlash, List.filter_append,
    List.filter_cons_of_pos isPart_last, List.filter_nil]

theorem joinParts_cons
    {rest : List Text}
    (more : rest ≠ [])
    (part : Text) :
    joinParts (part :: rest) = part ++ slash :: joinParts rest := by
  cases rest with
  | nil => contradiction
  | cons second rest => rfl

theorem joinParts_append
    {parts : List Text}
    (nonempty : parts ≠ [])
    (last : Text) :
    joinParts (parts ++ [last]) = joinParts parts ++ slash :: last := by
  induction parts with
  | nil => contradiction
  | cons part rest inductionHypothesis =>
      by_cases more : rest = []
      · subst more
        rfl
      · rw [List.cons_append, joinParts_cons (by simp), inductionHypothesis more,
          joinParts_cons more, List.append_assoc, List.cons_append]

theorem exists_text_append (root : Root) (above : List Text) :
    ∃ front, ∀ last, text ⟨root, above ++ [last]⟩ = front ++ last := by
  by_cases direct : above = []
  · exact ⟨root.text, fun last => by simp [text, direct, joinParts]⟩
  · refine ⟨root.text ++ (joinParts above ++ [slash]), fun last => ?_⟩
    simp [text, joinParts_append direct]

theorem handoverFault?_joinParts_eq_none_iff {parts : List Text} :
    (joinParts parts).handoverFault? = none ↔ ∀ part ∈ parts, part.handoverFault? = none := by
  have between : slash.IsHandable := by decide
  induction parts with
  | nil => simp [joinParts]
  | cons part rest inductionHypothesis =>
      by_cases more : rest = []
      · simp [more, joinParts]
      · simp [joinParts_cons more, between, inductionHypothesis]

/-- A path is taken exactly when each of its parts is. -/
theorem fault?_eq_none_iff {path : Path} :
    path.fault? = none ↔ ∀ part ∈ path.parts, part.handoverFault? = none := by
  rw [← handoverFault?_joinParts_eq_none_iff, fault?, text]
  by_cases here : path.root = .none ∧ path.parts = []
  · rw [if_pos here, here.2]
    exact iff_of_true (by decide) (by decide)
  · have root_eq : path.root.text.handoverFault? = none := by cases path.root <;> decide
    simp [here, root_eq]

theorem subset_of_mem_pieces
    {text piece : Text}
    (member : piece ∈ pieces text) :
    piece ⊆ text := by
  induction text generalizing piece with
  | nil =>
      rw [pieces, List.mem_singleton] at member
      rw [member]
      exact List.nil_subset []
  | cons symbol rest inductionHypothesis =>
      rw [pieces] at member
      split at member
      case isTrue =>
        rcases List.mem_cons.mp member with rfl | later
        · exact List.nil_subset _
        · exact List.subset_cons_of_subset symbol (inductionHypothesis later)
      case isFalse =>
        split at member
        case h_1 =>
          rw [List.mem_singleton.mp member]
          exact List.cons_subset_cons symbol (List.nil_subset rest)
        case h_2 first others rest_eq =>
          rw [rest_eq] at inductionHypothesis
          rcases List.mem_cons.mp member with rfl | later
          · exact List.cons_subset_cons symbol (inductionHypothesis List.mem_cons_self)
          · exact List.subset_cons_of_subset symbol
              (inductionHypothesis (List.mem_cons_of_mem first later))

/-- A path is taken when the text that it is read from is. -/
theorem fault?_ofText
    {text : Text}
    (usable : text.handoverFault? = none) :
    (ofText text).fault? = none := by
  rw [fault?_eq_none_iff]
  intro part member
  exact Text.handoverFault?_of_subset (subset_of_mem_pieces (List.mem_filter.mp member).1)
    usable

theorem fault?_join
    {path following : Path}
    (usable : path.fault? = none)
    (followingUsable : following.fault? = none) :
    (path.join following).fault? = none := by
  unfold join
  split
  case isTrue => exact followingUsable
  case isFalse =>
    rw [fault?_eq_none_iff] at usable followingUsable ⊢
    exact List.forall_mem_append.mpr ⟨usable, followingUsable⟩

/-- The directory of a path is not spelled with more bytes, except for a single dot. -/
theorem length_encode_text_parent_le (path : Path) :
    (Utf8.encode path.parent.text).length ≤ max 1 (Utf8.encode path.text).length := by
  obtain ⟨root, parts⟩ := path
  rcases List.eq_nil_or_concat parts with rfl | ⟨above, last, rfl⟩
  · exact Nat.le_max_right _ _
  · have parent_eq : Path.parent ⟨root, above ++ [last]⟩ = ⟨root, above⟩ := by
      simp [parent]
    rw [List.concat_eq_append, parent_eq]
    by_cases direct : above = []
    · subst direct
      by_cases relative : root = .none
      · subst relative
        exact Nat.le_max_left _ _
      · simp only [text, relative, false_and, if_false, joinParts, List.nil_append,
          List.append_nil, Utf8.encode_append, List.length_append]
        omega
    · simp only [text, direct, joinParts_append direct, Utf8.encode_append,
        List.length_append, List.append_eq_nil_iff, List.cons_ne_nil, and_false, if_false]
      omega

end Path
end SchemaCodegen
