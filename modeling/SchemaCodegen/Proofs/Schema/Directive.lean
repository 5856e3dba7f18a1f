import SchemaCodegen.Proofs.Text.Line
import SchemaCodegen.Schema.Directive

/-!
# Markers outside comments

Dropping the comments of a schema cuts each of its lines at the first number sign.
A marker lies in one line, so it is found exactly when a line holds it before its
first number sign.
-/

namespace SchemaCodegen
namespace Schema

open Text (lines)

/-- The part of a line before its comment. -/
def code (line : Text) : Text :=
  line.takeWhile (· ≠ numberSign)

@[simp] theorem code_nil : code [] = [] := rfl

@[simp] theorem code_numberSign_cons (rest : Text) : code (numberSign :: rest) = [] := by
  simp [code]

theorem code_cons_of_ne
    {symbol : Symbol}
    (different : symbol ≠ numberSign)
    (rest : Text) :
    code (symbol :: rest) = symbol :: code rest := by
  simp [code, different]

/-- Cuts every line at its comment; a comment in the last line leaves an empty line behind. -/
def cutLines : List Text → List Text
  | [] => []
  | [last] => code last :: if numberSign ∈ last then [[]] else []
  | line :: next :: rest => code line :: cutLines (next :: rest)

theorem cutLines_cons
    {rest : List Text}
    (nonempty : rest ≠ [])
    (line : Text) :
    cutLines (line :: rest) = code line :: cutLines rest := by
  cases rest with
  | nil => contradiction
  | cons next rest => rfl

/-- What stands in the comment of the first line makes no difference. -/
theorem cutLines_numberSign_cons
    (first second : Text)
    (others : List Text) :
    cutLines ((numberSign :: first) :: others) =
      cutLines ((numberSign :: second) :: others) := by
  cases others <;> simp [cutLines]

theorem cutLines_cons_of_ne
    {symbol : Symbol}
    (different : symbol ≠ numberSign)
    (first : Text)
    (others : List Text) :
    cutLines ((symbol :: first) :: others) =
      (cutLines (first :: others)).modifyHead (symbol :: ·) := by
  cases others <;> simp [cutLines, code_cons_of_ne different, Ne.symm different]

theorem exists_mem_cutLines_iff
    {pattern : Text}
    (nonempty : pattern ≠ [])
    (parts : List Text) :
    (∃ line ∈ cutLines parts, pattern <:+: line) ↔
      ∃ line ∈ parts, pattern <:+: code line := by
  induction parts with
  | nil => simp [cutLines]
  | cons line rest inductionHypothesis =>
      cases rest with
      | nil => by_cases cut : numberSign ∈ line <;> simp [cutLines, cut, nonempty]
      | cons next rest =>
          rw [cutLines]
          simp only [List.mem_cons, exists_eq_or_imp] at inductionHypothesis ⊢
          rw [inductionHypothesis]

/-! ## Comments -/

section Comments

variable (text : Text)

/-- Within a comment the rest of the line is passed over. -/
theorem lines_withoutCommentsFrom :
    lines (withoutCommentsFrom false text) = cutLines (lines text) ∧
      lines (.newline :: withoutCommentsFrom true text) =
        cutLines (lines (numberSign :: text)) := by
  have notNewline : numberSign ≠ .newline := by decide
  induction text with
  | nil => exact ⟨rfl, rfl⟩
  | cons symbol rest inductionHypothesis =>
      obtain ⟨outside, inComment⟩ := inductionHypothesis
      obtain ⟨first, others, split⟩ := Text.exists_lines_eq rest
      constructor
      · by_cases starts : symbol = numberSign
        · rw [withoutCommentsFrom, if_pos starts, inComment, starts]
        · rw [withoutCommentsFrom, if_neg starts]
          by_cases ends : symbol = .newline
          · subst ends
            rw [Text.lines_newline_cons, Text.lines_newline_cons, outside,
              cutLines_cons (Text.lines_ne_nil rest), code_nil]
          · rw [Text.lines_cons_of_ne ends, Text.lines_cons_of_ne ends, outside, split,
              List.modifyHead_cons, cutLines_cons_of_ne starts]
      · rw [withoutCommentsFrom, Text.lines_cons_of_ne notNewline]
        by_cases ends : symbol = .newline
        · subst ends
          rw [Text.lines_newline_cons, Text.lines_newline_cons, List.modifyHead_cons,
            cutLines_cons (Text.lines_ne_nil rest), code_numberSign_cons, ← outside]
          rfl
        · have continues : (symbol != .newline) = true := by simpa using ends
          rw [continues, inComment, Text.lines_cons_of_ne notNewline,
            Text.lines_cons_of_ne ends, split]
          exact cutLines_numberSign_cons first (symbol :: first) others

/-- Dropping comments is a cut of every line. -/
theorem lines_withoutComments :
    lines (withoutComments text) = cutLines (lines text) :=
  (lines_withoutCommentsFrom text).1

end Comments

/--
A pattern without newlines is found outside of comments where a line has it before its
comment.
-/
theorem contains_withoutComments_iff
    {pattern : Text}
    (nonempty : pattern ≠ [])
    (noNewline : .newline ∉ pattern)
    (text : Text) :
    Occurrence.contains pattern (withoutComments text) = true ↔
      ∃ line ∈ lines text, pattern <:+: code line := by
  rw [Occurrence.contains_iff_isInfix, Text.isInfix_iff_exists_line noNewline,
    lines_withoutComments, exists_mem_cutLines_iff nonempty]

/--
A codec is asked for exactly when some line holds its marker before its first number
sign.  The other codec has no part in this: every choice of codecs is asked for by
some schema.
-/
theorem ofText_iff_exists_line :
    (∀ text : Text,
      ((Directives.ofText text).capnp = true ↔
        ∃ line ∈ text.splitOn .newline,
          Text.ofString capnpMarker <:+: line.takeWhile (· ≠ numberSign)) ∧
        ((Directives.ofText text).msgp = true ↔
          ∃ line ∈ text.splitOn .newline,
            Text.ofString msgpMarker <:+: line.takeWhile (· ≠ numberSign))) ∧
      ∀ directives, ∃ text, Directives.ofText text = directives := by
  constructor
  · intro text
    constructor
    · apply contains_withoutComments_iff
      · decide +kernel
      · decide +kernel
    · apply contains_withoutComments_iff
      · decide +kernel
      · decide +kernel
  · rintro ⟨capnp, msgp⟩
    refine ⟨(if capnp then Text.ofString capnpMarker else []) ++
      if msgp then Text.ofString msgpMarker else [], ?_⟩
    cases capnp <;> cases msgp <;> decide +kernel

end Schema
end SchemaCodegen
