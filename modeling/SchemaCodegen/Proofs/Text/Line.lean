import Mathlib.Data.List.Basic
import SchemaCodegen.Text.Symbol

/-!
# Lines

A text is cut into lines at its newlines and nowhere else.  What holds no newline
lies in one line, wherever it stands in the text.
-/

namespace SchemaCodegen
namespace Text

/-- The lines of a text, the last one ended by the text itself. -/
def lines (text : Text) : List Text :=
  text.splitOn .newline

@[simp] theorem lines_nil : lines [] = [[]] := rfl

@[simp] theorem lines_newline_cons (rest : Text) :
    lines (.newline :: rest) = [] :: lines rest := by
  simp [lines, List.splitOn, List.splitOnP_cons_eq_if_modifyHead]

theorem lines_cons_of_ne
    {symbol : Symbol}
    (different : symbol ≠ .newline)
    (rest : Text) :
    lines (symbol :: rest) = (lines rest).modifyHead (symbol :: ·) := by
  simp [lines, List.splitOn, List.splitOnP_cons_eq_if_modifyHead, different]

theorem lines_ne_nil (text : Text) : lines text ≠ [] :=
  List.splitOnP_ne_nil _ text

theorem exists_lines_eq (text : Text) :
    ∃ first others, lines text = first :: others :=
  List.exists_cons_of_ne_nil (lines_ne_nil text)

theorem exists_lines_eq_append (text : Text) :
    ∃ earlier last, lines text = earlier ++ [last] :=
  ⟨_, _, (List.dropLast_append_getLast (lines_ne_nil text)).symm⟩

theorem intercalate_lines (text : Text) :
    List.intercalate [.newline] (lines text) = text :=
  List.intercalate_splitOn Symbol.newline

/-- A newline at the end stands before one more line, an empty one. -/
theorem intercalate_append_nil
    {parts : List Text}
    (nonempty : parts ≠ []) :
    List.intercalate [.newline] (parts ++ [[]]) =
      List.intercalate [.newline] parts ++ [.newline] := by
  induction parts with
  | nil => contradiction
  | cons line rest inductionHypothesis =>
      by_cases last : rest = []
      · subst last
        simp [List.intercalate_cons_cons]
      · rw [List.cons_append, List.intercalate_cons_of_ne_nil (by simp),
          inductionHypothesis last, List.intercalate_cons_of_ne_nil last]
        simp only [List.append_assoc]

/-- The symbol in a column of a line, both counted from zero. -/
def symbolAt? (text : Text) (line column : Nat) : Option Symbol :=
  (lines text)[line]?.bind fun symbols => symbols[column]?

theorem prefix_of_lines_eq
    {text first : Text}
    {others : List Text}
    (split : lines text = first :: others) :
    first <+: text := by
  induction text generalizing first others with
  | nil =>
      obtain ⟨rfl, rfl⟩ := List.cons.inj split
      exact List.nil_prefix
  | cons symbol rest inductionHypothesis =>
      by_cases ends : symbol = .newline
      · subst ends
        rw [lines_newline_cons, List.cons.injEq] at split
        rw [← split.1]
        exact List.nil_prefix
      · obtain ⟨next, later, rest_eq⟩ := exists_lines_eq rest
        rw [lines_cons_of_ne ends, rest_eq, List.modifyHead_cons, List.cons.injEq] at split
        rw [← split.1, List.prefix_cons_inj]
        exact inductionHypothesis rest_eq

/-- A pattern without newlines at the head of a text is at the head of its first line. -/
theorem prefix_first_of_prefix
    {pattern text first : Text}
    {others : List Text}
    (noNewline : .newline ∉ pattern)
    (split : lines text = first :: others)
    (stands : pattern <+: text) :
    pattern <+: first := by
  induction pattern generalizing text first others with
  | nil => exact List.nil_prefix
  | cons symbol pattern inductionHypothesis =>
      rw [List.mem_cons, not_or] at noNewline
      obtain ⟨rest, rfl⟩ := stands
      obtain ⟨next, later, rest_eq⟩ := exists_lines_eq (pattern ++ rest)
      rw [List.cons_append, lines_cons_of_ne (Ne.symm noNewline.1), rest_eq,
        List.modifyHead_cons, List.cons.injEq] at split
      rw [← split.1, List.prefix_cons_inj]
      exact inductionHypothesis noNewline.2 rest_eq (List.prefix_append pattern rest)

/-- A pattern without newlines stands in a text exactly when it stands in one of the lines. -/
theorem isInfix_iff_exists_line
    {pattern : Text}
    (noNewline : .newline ∉ pattern)
    (text : Text) :
    pattern <:+: text ↔ ∃ line ∈ lines text, pattern <:+: line := by
  induction text with
  | nil => simp
  | cons symbol rest inductionHypothesis =>
      rw [List.infix_cons_iff, inductionHypothesis]
      by_cases ends : symbol = .newline
      · subst ends
        have atHead : pattern <+: .newline :: rest ↔ pattern <:+: [] := by
          constructor
          · intro stands
            have inFirst := prefix_first_of_prefix noNewline (lines_newline_cons rest) stands
            exact inFirst.isInfix
          · intro empty
            rw [List.infix_nil.mp empty]
            exact List.nil_prefix
        simp [atHead]
      · obtain ⟨first, others, rest_eq⟩ := exists_lines_eq rest
        have split : lines (symbol :: rest) = (symbol :: first) :: others := by
          rw [lines_cons_of_ne ends, rest_eq, List.modifyHead_cons]
        have atHead : pattern <+: symbol :: rest ↔ pattern <+: symbol :: first := by
          constructor
          · exact prefix_first_of_prefix noNewline split
          · exact fun stands => stands.trans (prefix_of_lines_eq split)
        simp only [split, rest_eq, atHead, List.mem_cons, exists_eq_or_imp,
          List.infix_cons_iff, or_assoc]

end Text
end SchemaCodegen
