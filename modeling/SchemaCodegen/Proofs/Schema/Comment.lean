import SchemaCodegen.Proofs.Schema.Directive

/-!
# Texts without their comments

Dropping the comments of a text cuts each of its lines before the first number sign; a
comment at the end of the text leaves a newline behind.  So what stands outside of comments
keeps its line and its column, and nothing else is left.
-/

namespace SchemaCodegen
namespace Schema

open Text (lines)

/-- A place belongs to a comment when a number sign stands there or before it in its line. -/
def IsCommented (text : Text) (line column : Nat) : Prop :=
  ∃ start ≤ column, text.symbolAt? line start = some numberSign

/-! ## One line -/

/-- What is left of a line is what no number sign stands at or before. -/
theorem getElem?_code_eq_some_iff
    (symbols : Text)
    (column : Nat)
    (symbol : Symbol) :
    (code symbols)[column]? = some symbol ↔
      symbols[column]? = some symbol ∧
        ¬∃ start ≤ column, symbols[start]? = some numberSign := by
  induction symbols generalizing column with
  | nil => simp
  | cons head rest inductionHypothesis =>
      by_cases starts : head = numberSign
      · subst starts
        have commented : ∃ start ≤ column, (numberSign :: rest)[start]? = some numberSign :=
          ⟨0, Nat.zero_le column, rfl⟩
        simp [commented]
      · rw [code_cons_of_ne starts]
        cases column with
        | zero => simp [starts]
        | succ column =>
            have later :
                (∃ start ≤ column + 1, (head :: rest)[start]? = some numberSign) ↔
                  ∃ start ≤ column, rest[start]? = some numberSign := by
              rw [← Nat.or_exists_add_one]
              simp [starts]
            rw [List.getElem?_cons_succ, List.getElem?_cons_succ, later, inductionHypothesis]

/-! ## All lines -/

theorem cutLines_append_singleton (earlier : List Text) (last : Text) :
    cutLines (earlier ++ [last]) =
      (earlier ++ [last]).map code ++ if numberSign ∈ last then [[]] else [] := by
  induction earlier with
  | nil => rfl
  | cons line earlier inductionHypothesis =>
      rw [List.cons_append, cutLines_cons (by simp), inductionHypothesis]
      rfl

/-- The line that a comment at the end leaves behind holds no symbol. -/
theorem getElem?_cutLines_bind
    (parts : List Text)
    (line column : Nat) :
    ((cutLines parts)[line]?.bind fun symbols => symbols[column]?) =
      parts[line]?.bind fun symbols => (code symbols)[column]? := by
  induction parts generalizing line with
  | nil => simp [cutLines]
  | cons first rest inductionHypothesis =>
      by_cases last : rest = []
      · subst last
        rw [cutLines]
        rcases line with _ | _ | line
        · rfl
        · split <;> rfl
        · split <;> rfl
      · rw [cutLines_cons last]
        cases line with
        | zero => rfl
        | succ line => exact inductionHypothesis line

/-! ## The whole text -/

theorem withoutComments_eq_intercalate (text : Text) :
    withoutComments text = List.intercalate [.newline] (cutLines (lines text)) := by
  rw [← lines_withoutComments, Text.intercalate_lines]

theorem withoutComments_of_lines_eq
    {text last : Text}
    {earlier : List Text}
    (split : lines text = earlier ++ [last]) :
    withoutComments text =
      List.intercalate [.newline] ((earlier ++ [last]).map code) ++
        if numberSign ∈ last then [.newline] else [] := by
  rw [withoutComments_eq_intercalate, split, cutLines_append_singleton]
  by_cases commented : numberSign ∈ last
  · rw [if_pos commented, if_pos commented, Text.intercalate_append_nil (by simp)]
  · rw [if_neg commented, if_neg commented, List.append_nil, List.append_nil]

theorem numberSign_not_mem_withoutCommentsFrom (inComment : Bool) (text : Text) :
    numberSign ∉ withoutCommentsFrom inComment text := by
  have notNewline : numberSign ≠ .newline := by decide
  fun_induction withoutCommentsFrom inComment text with
  | case1 => simp
  | case2 symbol rest inductionHypothesis => exact inductionHypothesis
  | case3 rest inductionHypothesis => simp [notNewline, inductionHypothesis]
  | case4 symbol rest different inductionHypothesis =>
      simp [Ne.symm different, inductionHypothesis]

theorem withoutComments_of_not_mem
    {text : Text}
    (uncommented : numberSign ∉ text) :
    withoutComments text = text := by
  unfold withoutComments
  induction text with
  | nil => rfl
  | cons symbol rest inductionHypothesis =>
      rw [List.mem_cons, not_or] at uncommented
      rw [withoutCommentsFrom, if_neg (Ne.symm uncommented.1), inductionHypothesis uncommented.2]

theorem withoutComments_eq_self_iff (text : Text) :
    withoutComments text = text ↔ numberSign ∉ text := by
  refine ⟨fun unchanged => ?_, withoutComments_of_not_mem⟩
  rw [← unchanged]
  exact numberSign_not_mem_withoutCommentsFrom false text

/-- What stands outside of comments keeps its place, and nothing else is left. -/
theorem symbolAt?_withoutComments_eq_some_iff
    (text : Text)
    (line column : Nat)
    (symbol : Symbol) :
    (withoutComments text).symbolAt? line column = some symbol ↔
      text.symbolAt? line column = some symbol ∧ ¬IsCommented text line column := by
  rw [Text.symbolAt?, lines_withoutComments, getElem?_cutLines_bind]
  unfold IsCommented Text.symbolAt?
  cases (lines text)[line]? with
  | none => simp
  | some symbols => exact getElem?_code_eq_some_iff symbols column symbol

/--
Without its comments a text consists of its lines, each cut before the first number sign,
and of a newline at the end exactly if the last line has a comment.  So no number sign is
left, only a text without number signs stays as it is, and dropping comments twice is the
same as once.  Every symbol outside of comments keeps its line and its column, and there is
no other symbol in any line.
-/
theorem withoutComments_cutsLines (text : Text) :
    (∃ earlier last, text.splitOn .newline = earlier ++ [last] ∧
      withoutComments text =
        List.intercalate [.newline] ((earlier ++ [last]).map code) ++
          if numberSign ∈ last then [.newline] else []) ∧
      numberSign ∉ withoutComments text ∧
      (withoutComments text = text ↔ numberSign ∉ text) ∧
      withoutComments (withoutComments text) = withoutComments text ∧
      ∀ line column symbol,
        (withoutComments text).symbolAt? line column = some symbol ↔
          text.symbolAt? line column = some symbol ∧ ¬IsCommented text line column := by
  have signless : numberSign ∉ withoutComments text :=
    numberSign_not_mem_withoutCommentsFrom false text
  obtain ⟨earlier, last, split⟩ := Text.exists_lines_eq_append text
  refine ⟨⟨earlier, last, split, withoutComments_of_lines_eq split⟩, signless,
    withoutComments_eq_self_iff text, (withoutComments_eq_self_iff _).mpr signless, ?_⟩
  exact symbolAt?_withoutComments_eq_some_iff text

/-- Two number signs in a line, a line that is a comment, an empty one, a comment at the end. -/
example :
    withoutComments (Text.ofString "a#b#c\n#\n\nd#e") = Text.ofString "a\n\n\nd\n" := by
  decide +kernel

end Schema
end SchemaCodegen
