import Mathlib.Data.List.TakeWhile
import SchemaCodegen.Schema.TypeName

/-!
# Declared names

A schema declares a name where an identifier that starts with a letter follows the
word `struct` and a blank.  The search finds runs of letters only, so it finds the
declared names that have no other symbols, except where the word `struct` is
itself the end of the name found before.
-/

namespace SchemaCodegen
namespace Schema

/-- Behind the front of the schema and `struct ` stands the name, as a whole identifier. -/
def DeclaresBehind (front schema name : Text) : Prop :=
  ∃ rest, schema = front ++ (structKeyword ++ rest) ∧
    rest.takeWhile Symbol.isIdentifier = name ∧
    name.head?.any Symbol.isLetter = true

/-- Somewhere in the schema the name is declared. -/
def Declares (schema name : Text) : Prop :=
  ∃ front, DeclaresBehind front schema name

/-- The front of a schema ends with `struct ` and letters, so a name may go on behind it. -/
def EndsInName (front : Text) : Prop :=
  ∃ earlier letters, front = earlier ++ (structKeyword ++ letters) ∧
    letters.all Symbol.isLetter = true

theorem EndsInName.cons
    {front : Text}
    (ends : EndsInName front)
    (symbol : Symbol) :
    EndsInName (symbol :: front) := by
  obtain ⟨earlier, letters, rfl, isLetters⟩ := ends
  exact ⟨symbol :: earlier, letters, rfl, isLetters⟩

section Declared

variable {schema name : Text}

theorem Declares.ne_nil (declares : Declares schema name) : name ≠ [] := by
  obtain ⟨_, _, _, _, starts⟩ := declares
  rintro rfl
  simp at starts

theorem Declares.isIdentifier (declares : Declares schema name) :
    name.all Symbol.isIdentifier = true := by
  obtain ⟨_, _, _, rfl, _⟩ := declares
  exact List.all_takeWhile

end Declared

/-! ## What is found -/

theorem declaredName_keyword_append (rest : Text) :
    declaredName (structKeyword ++ rest) = rest.takeWhile Symbol.isLetter := by
  have stands : structKeyword.isPrefixOf (structKeyword ++ rest) = true := by
    rw [List.isPrefixOf_iff_prefix]
    exact List.prefix_append structKeyword rest
  rw [declaredName, if_pos stands, List.drop_left]

theorem declaredName_eq_of_ne_nil
    {text : Text}
    (found : declaredName text ≠ []) :
    ∃ rest, text = structKeyword ++ rest ∧
      declaredName text = rest.takeWhile Symbol.isLetter := by
  by_cases stands : structKeyword.isPrefixOf text = true
  · obtain ⟨rest, rfl⟩ := List.isPrefixOf_iff_prefix.mp stands
    exact ⟨rest, rfl, declaredName_keyword_append rest⟩
  · simp [declaredName, stands] at found

/-- Every name that is found is a nonempty run of letters. -/
theorem isLetters_of_mem_typeNamesFrom
    {consumed : Nat}
    {text name : Text}
    (member : name ∈ typeNamesFrom consumed text) :
    name ≠ [] ∧ name.all Symbol.isLetter = true := by
  induction text generalizing consumed with
  | nil => cases consumed <;> simp [typeNamesFrom] at member
  | cons symbol rest inductionHypothesis =>
      cases consumed with
      | succ consumed => exact inductionHypothesis member
      | zero =>
          by_cases none : declaredName (symbol :: rest) = []
          · simp only [typeNamesFrom, none, List.isEmpty_nil, if_true] at member
            exact inductionHypothesis member
          · simp only [typeNamesFrom, List.isEmpty_iff, none, if_false,
              List.mem_cons] at member
            rcases member with rfl | later
            · obtain ⟨behind, _, name_eq⟩ := declaredName_eq_of_ne_nil none
              refine ⟨none, ?_⟩
              rw [name_eq]
              exact List.all_takeWhile
            · exact inductionHypothesis later

theorem ne_nil_of_mem_typeNames
    {schema name : Text}
    (member : name ∈ typeNames schema) :
    name ≠ [] :=
  (isLetters_of_mem_typeNamesFrom member).1

theorem isIdentifier_of_mem_typeNames
    {schema name : Text}
    (member : name ∈ typeNames schema) :
    name.all Symbol.isIdentifier = true := by
  have letters := (isLetters_of_mem_typeNamesFrom member).2
  rw [List.all_eq_true] at letters ⊢
  intro symbol symbolMember
  exact Symbol.isIdentifier_of_isLetter (letters symbol symbolMember)

/-! ## What is not missed -/

/-- The word `struct` and its blank do not overlap with themselves. -/
theorem structKeyword_getElem?_ne
    {position : Nat}
    (positive : 0 < position)
    (bound : position < structKeyword.length) :
    structKeyword[position]? ≠ structKeyword[0]? := by
  have isBounded : position < 7 := bound
  have apart : ∀ place < 7, 0 < place → structKeyword[place]? ≠ structKeyword[0]? := by
    decide
  exact apart position isBounded positive

/-- Before a second word `struct ` the whole first one stands. -/
theorem exists_front_eq
    {front rest behind : Text}
    (nonempty : front ≠ [])
    (text_eq : front ++ (structKeyword ++ rest) = structKeyword ++ behind) :
    ∃ between, front = structKeyword ++ between ∧
      behind = between ++ (structKeyword ++ rest) := by
  rcases List.append_eq_append_iff.mp text_eq with
    ⟨between, keyword_eq, rest_eq⟩ | ⟨between, front_eq, behind_eq⟩
  · by_cases touches : between = []
    · subst touches
      rw [List.append_nil] at keyword_eq
      rw [List.nil_append] at rest_eq
      exact ⟨[], by rw [← keyword_eq, List.append_nil], rest_eq.symm⟩
    · have frontPositive := List.length_pos_iff.mpr nonempty
      have betweenPositive := List.length_pos_iff.mpr touches
      have lengths := congrArg List.length keyword_eq
      rw [List.length_append] at lengths
      have shorter : front.length < structKeyword.length := by omega
      have here := congrArg (fun text => text[front.length]?) text_eq
      simp only [List.getElem?_append_right (Nat.le_refl _), Nat.sub_self,
        List.getElem?_append_left shorter] at here
      refine absurd ?_ (structKeyword_getElem?_ne frontPositive shorter)
      rw [← here]
      rfl
  · exact ⟨between, front_eq, behind_eq⟩

/-- A name found before a declaration ends before it, unless the front ends in a name. -/
theorem length_declaredName_le
    {front rest : Text}
    (nonempty : front ≠ [])
    (apart : ¬EndsInName front)
    (found : declaredName (front ++ (structKeyword ++ rest)) ≠ []) :
    structKeyword.length + (declaredName (front ++ (structKeyword ++ rest))).length ≤
      front.length := by
  obtain ⟨behind, text_eq, name_eq⟩ := declaredName_eq_of_ne_nil found
  obtain ⟨between, rfl, rfl⟩ := exists_front_eq nonempty text_eq
  rw [name_eq, List.takeWhile_append]
  split
  case isTrue all =>
    have whole := (List.takeWhile_prefix Symbol.isLetter).eq_of_length all
    refine absurd ⟨[], between, rfl, ?_⟩ apart
    rw [← whole]
    exact List.all_takeWhile
  case isFalse =>
    have bound := (List.takeWhile_prefix (l := between) Symbol.isLetter).length_le
    rw [List.length_append]
    omega

theorem declaredName_mem_typeNamesFrom
    {text : Text}
    (found : declaredName text ≠ []) :
    declaredName text ∈ typeNamesFrom 0 text := by
  cases text with
  | nil => exact absurd rfl found
  | cons symbol rest => simp [typeNamesFrom, found]

/-- The search does not pass over a declaration that no name runs into. -/
theorem mem_typeNamesFrom_of_apart
    {front rest : Text}
    (apart : ¬EndsInName front)
    (found : rest.takeWhile Symbol.isLetter ≠ [])
    {consumed : Nat}
    (bound : consumed ≤ front.length) :
    rest.takeWhile Symbol.isLetter ∈
      typeNamesFrom consumed (front ++ (structKeyword ++ rest)) := by
  induction front generalizing consumed with
  | nil =>
      obtain rfl : consumed = 0 := by simpa using bound
      rw [← declaredName_keyword_append] at found ⊢
      exact declaredName_mem_typeNamesFrom found
  | cons symbol front inductionHypothesis =>
      have apartBehind : ¬EndsInName front := fun ends => apart (ends.cons symbol)
      rw [List.cons_append]
      cases consumed with
      | succ consumed =>
          exact inductionHypothesis apartBehind (by simpa using bound)
      | zero =>
          rw [typeNamesFrom]
          by_cases none : declaredName (symbol :: (front ++ (structKeyword ++ rest))) = []
          · simp only [none, List.isEmpty_nil, if_true]
            exact inductionHypothesis apartBehind (Nat.zero_le _)
          · simp only [List.isEmpty_iff, none, if_false]
            apply List.mem_cons_of_mem
            apply inductionHypothesis apartBehind
            have nonempty : symbol :: front ≠ [] := List.cons_ne_nil symbol front
            have short := length_declaredName_le nonempty apart none
            rw [List.cons_append, List.length_cons] at short
            omega

/-- A declared name of letters only is found, unless a name before it may run into its `struct`. -/
theorem mem_typeNames_of_declaresBehind
    {front schema name : Text}
    (declares : DeclaresBehind front schema name)
    (apart : ¬EndsInName front)
    (letters : name.all Symbol.isLetter = true) :
    name ∈ typeNames schema := by
  have nonempty := Declares.ne_nil ⟨front, declares⟩
  obtain ⟨rest, rfl, rfl, _⟩ := declares
  have name_eq :
      rest.takeWhile Symbol.isLetter = rest.takeWhile Symbol.isIdentifier := by
    rw [List.all_eq_true] at letters
    rw [← List.takeWhile_eq_self_iff.mpr letters, List.takeWhile_takeWhile]
    congr 1
    funext symbol
    cases letter : symbol.isLetter with
    | false => simp
    | true => simp [Symbol.isIdentifier_of_isLetter letter]
  rw [← name_eq] at nonempty ⊢
  exact mem_typeNamesFrom_of_apart apart nonempty (Nat.zero_le _)

end Schema
end SchemaCodegen
