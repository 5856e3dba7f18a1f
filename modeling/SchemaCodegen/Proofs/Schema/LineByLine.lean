import SchemaCodegen.Proofs.Schema.Directive
import SchemaCodegen.Proofs.Schema.Search

/-!
# Declarations line by line

No declaration goes over the end of a line or over a number sign.  So the names that a
text declares are those of its lines, and dropping the comments only drops names.
-/

namespace SchemaCodegen
namespace Schema

open Text (lines)

/-! ## Symbols that end a declaration -/

/-- A symbol that no declaration holds: it is no letter and does not stand in `struct `. -/
structure Separates (symbol : Symbol) : Prop where
  /-- The symbol is no letter. -/
  notLetter : symbol.isLetter = false
  /-- The symbol does not stand in `struct `. -/
  notKeyword : symbol ∉ structKeyword

theorem separates_newline : Separates .newline := ⟨by decide, by decide⟩

theorem separates_numberSign : Separates numberSign := ⟨by decide, by decide⟩

theorem length_declaredName_add_le
    {text : Text}
    (found : declaredName text ≠ []) :
    structKeyword.length + (declaredName text).length ≤ text.length := by
  obtain ⟨rest, text_eq, name_eq⟩ := declaredName_eq_of_ne_nil found
  have bound := (List.takeWhile_prefix (l := rest) Symbol.isLetter).length_le
  rw [name_eq, text_eq, List.length_append]
  omega

section Separator

variable
  {separator : Symbol}
  (separates : Separates separator)
include separates

theorem takeWhile_append_separator (front rest : Text) :
    (front ++ separator :: rest).takeWhile Symbol.isLetter =
      front.takeWhile Symbol.isLetter := by
  rw [List.takeWhile_append]
  split
  case isTrue whole =>
    have front_eq := (List.takeWhile_prefix Symbol.isLetter).eq_of_length whole
    rw [List.takeWhile_cons_of_neg (by simp [separates.notLetter]), List.append_nil, front_eq]
  case isFalse => rfl

theorem structKeyword_prefix_append_iff (front rest : Text) :
    structKeyword <+: front ++ separator :: rest ↔ structKeyword <+: front := by
  refine ⟨fun stands => ?_, fun stands => stands.trans (List.prefix_append front _)⟩
  rcases List.prefix_or_prefix_of_prefix stands (List.prefix_append front _) with
    within | ⟨behind, keyword_eq⟩
  · exact within
  · rw [← keyword_eq, List.prefix_append_right_inj] at stands
    cases behind with
    | nil => simp [← keyword_eq]
    | cons first others =>
        obtain ⟨rfl, _⟩ := List.cons_prefix_cons.mp stands
        exact absurd (by simp [← keyword_eq]) separates.notKeyword

theorem declaredName_append_separator (front rest : Text) :
    declaredName (front ++ separator :: rest) = declaredName front := by
  by_cases stands : structKeyword <+: front
  · obtain ⟨behind, rfl⟩ := stands
    rw [List.append_assoc, declaredName_keyword_append, declaredName_keyword_append,
      takeWhile_append_separator separates]
  · have beyond := mt (structKeyword_prefix_append_iff separates front rest).mp stands
    rw [declaredName, declaredName, if_neg (by simpa using beyond), if_neg (by simpa using stands)]

/-- The search starts anew behind the symbol: the name found last ends before it. -/
theorem typeNamesFrom_append_separator
    (front rest : Text)
    {consumed : Nat}
    (bound : consumed ≤ front.length) :
    typeNamesFrom consumed (front ++ separator :: rest) =
      typeNamesFrom consumed front ++ typeNames rest := by
  induction front generalizing consumed with
  | nil =>
      obtain rfl : consumed = 0 := by simpa using bound
      have none : declaredName (separator :: rest) = [] :=
        declaredName_append_separator separates [] rest
      simp [typeNamesFrom, none, typeNames]
  | cons symbol front inductionHypothesis =>
      cases consumed with
      | succ consumed => exact inductionHypothesis (Nat.le_of_succ_le_succ bound)
      | zero =>
          have same := declaredName_append_separator separates (symbol :: front) rest
          rw [List.cons_append] at same ⊢
          rw [typeNamesFrom, typeNamesFrom, same]
          by_cases none : declaredName (symbol :: front) = []
          · simp only [none, List.isEmpty_nil, if_true]
            exact inductionHypothesis (Nat.zero_le _)
          · have inFront := length_declaredName_add_le none
            rw [List.length_cons] at inFront
            simp only [List.isEmpty_iff, none, if_false, List.cons_append]
            rw [inductionHypothesis (by omega)]

theorem typeNames_append_separator (front rest : Text) :
    typeNames (front ++ separator :: rest) = typeNames front ++ typeNames rest :=
  typeNamesFrom_append_separator separates front rest (Nat.zero_le _)

end Separator

/-! ## Lines and comments -/

theorem typeNames_intercalate (parts : List Text) :
    typeNames (List.intercalate [.newline] parts) = parts.flatMap typeNames := by
  induction parts with
  | nil => rfl
  | cons line rest inductionHypothesis =>
      cases rest with
      | nil => simp
      | cons next rest =>
          rw [List.intercalate_cons_cons, List.append_assoc, List.singleton_append,
            typeNames_append_separator separates_newline, inductionHypothesis]
          rfl

/-- The names of a text are those of its lines. -/
theorem typeNames_eq_flatMap_lines (text : Text) :
    typeNames text = (lines text).flatMap typeNames := by
  rw [← typeNames_intercalate, Text.intercalate_lines]

theorem code_eq_or_exists (line : Text) :
    code line = line ∨ ∃ comment, line = code line ++ numberSign :: comment := by
  induction line with
  | nil => exact Or.inl rfl
  | cons symbol rest inductionHypothesis =>
      by_cases starts : symbol = numberSign
      · subst starts
        exact Or.inr ⟨rest, by simp⟩
      · rw [code_cons_of_ne starts]
        rcases inductionHypothesis with whole | ⟨comment, rest_eq⟩
        · exact Or.inl (by rw [whole])
        · exact Or.inr ⟨comment, by rw [List.cons_append, ← rest_eq]⟩

theorem typeNames_code_sublist (line : Text) :
    (typeNames (code line)).Sublist (typeNames line) := by
  rcases code_eq_or_exists line with whole | ⟨comment, line_eq⟩
  · rw [whole]
  · have names_eq := typeNames_append_separator separates_numberSign (code line) comment
    rw [← line_eq] at names_eq
    rw [names_eq]
    exact List.sublist_append_left _ _

theorem typeNames_cutLines_sublist (parts : List Text) :
    ((cutLines parts).flatMap typeNames).Sublist (parts.flatMap typeNames) := by
  induction parts with
  | nil => exact List.Sublist.refl _
  | cons line rest inductionHypothesis =>
      by_cases last : rest = []
      · subst last
        have nothing : (if numberSign ∈ line then [[]] else []).flatMap typeNames = [] := by
          split <;> rfl
        rw [cutLines, List.flatMap_cons, nothing, List.append_nil, List.flatMap_singleton]
        exact typeNames_code_sublist line
      · rw [cutLines_cons last, List.flatMap_cons, List.flatMap_cons]
        exact (typeNames_code_sublist line).append inductionHypothesis

/--
The names are those at the places that a search from the left finds; there is one such
list of places.  Each name is a run of letters.  The names of two texts on lines of their
own are the names of the one and then those of the other, and without its comments a text
declares some of its names in the same order.
-/
theorem typeNames_found_byLine (text : Text) :
    (∃ found, typeNames text = found.map Declaration.name ∧
      ∀ other, Searches text 0 other ↔ other = found) ∧
      (∀ name ∈ typeNames text, name ≠ [] ∧ name.all Symbol.isLetter = true) ∧
      (∀ next, typeNames (text ++ .newline :: next) = typeNames text ++ typeNames next) ∧
      (typeNames (withoutComments text)).Sublist (typeNames text) := by
  refine ⟨?_, fun name => isLetters_of_mem_typeNamesFrom, ?_, ?_⟩
  · obtain ⟨found, searches, names⟩ := exists_searches [] text 0
    refine ⟨found, names.symm, fun other => ⟨fun otherSearches => ?_, ?_⟩⟩
    · exact otherSearches.unique searches
    · rintro rfl
      exact searches
  · exact typeNames_append_separator separates_newline text
  · rw [typeNames_eq_flatMap_lines (withoutComments text), lines_withoutComments,
      typeNames_eq_flatMap_lines text]
    exact typeNames_cutLines_sublist (lines text)

/-- A word `struct ` at the end of a name declares nothing, one in a comment does. -/
theorem typeNames_found_byLine_overlapping :
    let text := Text.ofString "struct astruct B\nstruct C # struct D"
    let name := Text.ofString "astruct"
    typeNames text = [name, Text.ofString "C", Text.ofString "D"] ∧
      typeNames (withoutComments text) = [name, Text.ofString "C"] ∧
      name ∈ typeNames text ∧ name ≠ [] ∧ name.all Symbol.isLetter = true := by
  intro text name
  have names_eq : typeNames text = [name, Text.ofString "C", Text.ofString "D"] := by
    decide +kernel
  have member : name ∈ typeNames text := by
    rw [names_eq]
    exact List.mem_cons_self
  exact ⟨names_eq, by decide +kernel, member,
    (typeNames_found_byLine text).2.1 name member⟩

end Schema
end SchemaCodegen
