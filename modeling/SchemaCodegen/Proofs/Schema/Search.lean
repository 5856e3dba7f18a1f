import Mathlib.Data.List.Pairwise
import Mathlib.Data.List.Sort
import SchemaCodegen.Proofs.Schema.TypeName

/-!
# The search for declarations

The search goes through a text from the left and takes it up again behind the name that it
has found last.  So it finds every place where a name is declared, except for those inside
of a name that it has found before, and no other list of places has this property.
-/

namespace SchemaCodegen
namespace Schema

/-- A name, and where the word `struct ` before it stands. -/
structure Declaration where
  /-- The number of symbols before the word `struct `. -/
  position : Nat
  /-- The name behind it. -/
  name : Text
deriving DecidableEq

namespace Declaration

/-- Where the name starts. -/
def start (declaration : Declaration) : Nat :=
  declaration.position + structKeyword.length

/-- Where the name ends. -/
def stop (declaration : Declaration) : Nat :=
  declaration.start + declaration.name.length

/--
The text has the word `struct ` at the position, and the name is the run of letters behind
it.
-/
def StandsIn (declaration : Declaration) (text : Text) : Prop :=
  ∃ front rest, text = front ++ (structKeyword ++ rest) ∧
    front.length = declaration.position ∧
    rest.takeWhile Symbol.isLetter = declaration.name ∧ declaration.name ≠ []

/-- A declaration starts inside of the name of another one. -/
def StartsInside (declaration earlier : Declaration) : Prop :=
  earlier.start ≤ declaration.position ∧ declaration.position < earlier.stop

/-- A declaration ends before another one starts. -/
def Precedes (earlier later : Declaration) : Prop :=
  earlier.stop ≤ later.position

theorem length_structKeyword : structKeyword.length = 7 := rfl

theorem position_lt_stop (declaration : Declaration) :
    declaration.position < declaration.stop := by
  rw [stop, start, length_structKeyword]
  omega

instance : Std.Irrefl Precedes where
  irrefl declaration := Nat.not_le_of_lt declaration.position_lt_stop

instance : Std.Antisymm Precedes where
  antisymm first second before after := by
    have shorter := first.position_lt_stop
    have longer := second.position_lt_stop
    simp only [Precedes] at before after
    omega

theorem StandsIn.name_ne_nil
    {declaration : Declaration}
    {text : Text}
    (stands : declaration.StandsIn text) :
    declaration.name ≠ [] := by
  obtain ⟨_, _, _, _, _, nonempty⟩ := stands
  exact nonempty

theorem StandsIn.start_le
    {declaration : Declaration}
    {text : Text}
    (stands : declaration.StandsIn text) :
    declaration.start ≤ text.length := by
  obtain ⟨front, rest, rfl, place, _⟩ := stands
  rw [start, List.length_append, List.length_append]
  omega

/-- At one position one name is declared. -/
theorem StandsIn.eq_of_position_eq
    {declaration other : Declaration}
    {text : Text}
    (stands : declaration.StandsIn text)
    (otherStands : other.StandsIn text)
    (same : declaration.position = other.position) :
    declaration = other := by
  obtain ⟨position, name⟩ := declaration
  obtain ⟨otherPosition, otherName⟩ := other
  obtain ⟨front, rest, text_eq, place, rfl, _⟩ := stands
  obtain ⟨otherFront, otherRest, otherText_eq, otherPlace, rfl, _⟩ := otherStands
  obtain rfl : position = otherPosition := same
  obtain ⟨_, behind_eq⟩ :=
    List.append_inj (text_eq.symm.trans otherText_eq) (place.trans otherPlace.symm)
  rw [List.append_cancel_left behind_eq]

/-- No declaration starts inside of the word `struct ` of another one. -/
theorem StandsIn.start_le_position
    {declaration later : Declaration}
    {text : Text}
    (stands : declaration.StandsIn text)
    (laterStands : later.StandsIn text)
    (before : declaration.position < later.position) :
    declaration.start ≤ later.position := by
  obtain ⟨front, rest, rfl, place, _⟩ := stands
  obtain ⟨laterFront, laterRest, text_eq, laterPlace, _⟩ := laterStands
  obtain ⟨between, rfl⟩ : front <+: laterFront := by
    apply List.prefix_of_prefix_length_le (List.prefix_append front _)
    · rw [text_eq]
      exact List.prefix_append laterFront _
    · omega
  rw [List.append_assoc] at text_eq
  have nonempty : between ≠ [] := by
    rintro rfl
    rw [List.append_nil] at laterPlace
    omega
  obtain ⟨_, rfl, _⟩ := exists_front_eq nonempty (List.append_cancel_left text_eq).symm
  simp only [List.length_append] at laterPlace
  rw [start]
  omega

theorem standsIn_of_declaredName
    (front : Text)
    {text : Text}
    (found : declaredName text ≠ []) :
    StandsIn ⟨front.length, declaredName text⟩ (front ++ text) := by
  obtain ⟨rest, text_eq, name_eq⟩ := declaredName_eq_of_ne_nil found
  exact ⟨front, rest, by rw [text_eq], rfl, name_eq.symm, found⟩

theorem StandsIn.declaredName_eq
    {declaration : Declaration}
    {front text : Text}
    (stands : declaration.StandsIn (front ++ text))
    (here : declaration.position = front.length) :
    declaredName text = declaration.name := by
  obtain ⟨otherFront, rest, text_eq, place, name_eq, _⟩ := stands
  obtain ⟨_, rfl⟩ := List.append_inj text_eq (here.symm.trans place.symm)
  rw [declaredName_keyword_append, name_eq]

end Declaration

/-- What a search of a text finds from a position on. -/
structure Searches (text : Text) (bound : Nat) (found : List Declaration) : Prop where
  /-- What is found lies at or behind the position, and a name is declared there. -/
  stands : ∀ declaration ∈ found, bound ≤ declaration.position ∧ declaration.StandsIn text
  /-- The search is taken up again behind every name that is found. -/
  resumes : found.Pairwise Declaration.Precedes
  /-- A declaration is passed over only if it starts inside of a name that is found. -/
  skips : ∀ declaration : Declaration,
    bound ≤ declaration.position → declaration.StandsIn text → declaration ∉ found →
    ∃ earlier ∈ found, declaration.StartsInside earlier

namespace Searches

variable
  {text : Text}
  {bound : Nat}
  {found other : List Declaration}

/-- Behind the text nothing is found. -/
theorem nothing (behind : text.length ≤ bound) : Searches text bound [] := by
  refine ⟨by simp, .nil, fun declaration bounded stands _ => ?_⟩
  have inText := stands.start_le
  rw [Declaration.start, Declaration.length_structKeyword] at inText
  omega

theorem advance
    (none : ∀ declaration : Declaration,
      declaration.position = bound → ¬declaration.StandsIn text)
    (later : Searches text (bound + 1) found) :
    Searches text bound found := by
  refine ⟨fun declaration member => ?_, later.resumes, fun declaration bounded stands => ?_⟩
  · obtain ⟨bounded, stands⟩ := later.stands declaration member
    exact ⟨Nat.le_of_succ_le bounded, stands⟩
  · have elsewhere : declaration.position ≠ bound := fun here => none declaration here stands
    exact later.skips declaration (by omega) stands

/-- The search goes on behind a name that it has found. -/
theorem cons
    {declaration : Declaration}
    (stands : declaration.StandsIn text)
    (later : Searches text declaration.stop found) :
    Searches text declaration.position (declaration :: found) := by
  have before := declaration.position_lt_stop
  refine ⟨?_, ?_, fun skipped bounded skippedStands absent => ?_⟩
  · rw [List.forall_mem_cons]
    refine ⟨⟨Nat.le_refl _, stands⟩, fun next member => ?_⟩
    obtain ⟨behind, nextStands⟩ := later.stands next member
    exact ⟨by omega, nextStands⟩
  · rw [List.pairwise_cons]
    exact ⟨fun next member => (later.stands next member).1, later.resumes⟩
  · rw [List.mem_cons, not_or] at absent
    by_cases behind : declaration.stop ≤ skipped.position
    · obtain ⟨earlier, member, inside⟩ :=
        later.skips skipped behind skippedStands absent.2
      exact ⟨earlier, List.mem_cons_of_mem _ member, inside⟩
    · have apart : declaration.position ≠ skipped.position :=
        fun same => absent.1 (skippedStands.eq_of_position_eq stands same.symm)
      have outside := stands.start_le_position skippedStands (by omega)
      exact ⟨declaration, List.mem_cons_self, outside, by omega⟩

/-! ## There is no other search -/

theorem not_startsInside
    (searches : Searches text bound found)
    {declaration earlier : Declaration}
    (member : declaration ∈ found)
    (earlierMember : earlier ∈ found) :
    ¬declaration.StartsInside earlier := by
  rintro ⟨behindStart, beforeStop⟩
  have before : earlier.position < declaration.position := by
    rw [Declaration.start, Declaration.length_structKeyword] at behindStart
    omega
  have different : declaration ≠ earlier := by
    rintro rfl
    exact Nat.lt_irrefl _ before
  let Apart (first second : Declaration) : Prop := first.Precedes second ∨ second.Precedes first
  have symmetric : Std.Symm Apart := ⟨fun _ _ => Or.symm⟩
  have pairwise : found.Pairwise Apart := searches.resumes.imp Or.inl
  have stops := declaration.position_lt_stop
  rcases pairwise.forall member earlierMember different with after | beforeStart
  · exact absurd after (by rw [Declaration.Precedes]; omega)
  · exact absurd beforeStart (Nat.not_le_of_lt beforeStop)

theorem mem_of_mem
    (searches : Searches text bound found)
    (otherSearches : Searches text bound other)
    {declaration : Declaration}
    (agree : ∀ earlier ∈ other,
      earlier.position < declaration.position → earlier ∈ found)
    (member : declaration ∈ found) :
    declaration ∈ other := by
  by_contra absent
  obtain ⟨bounded, stands⟩ := searches.stands declaration member
  obtain ⟨earlier, earlierMember, inside⟩ :=
    otherSearches.skips declaration bounded stands absent
  have before : earlier.position < declaration.position := by
    have behindStart := inside.1
    rw [Declaration.start, Declaration.length_structKeyword] at behindStart
    omega
  exact searches.not_startsInside member (agree earlier earlierMember before) inside

theorem mem_iff
    (searches : Searches text bound found)
    (otherSearches : Searches text bound other)
    (declaration : Declaration) :
    declaration ∈ found ↔ declaration ∈ other := by
  induction place : declaration.position using Nat.strong_induction_on
    generalizing declaration with
  | h position inductionHypothesis =>
      subst place
      constructor
      · apply searches.mem_of_mem otherSearches
        intro earlier member before
        exact (inductionHypothesis _ before earlier rfl).mpr member
      · apply otherSearches.mem_of_mem searches
        intro earlier member before
        exact (inductionHypothesis _ before earlier rfl).mp member

theorem unique
    (searches : Searches text bound found)
    (otherSearches : Searches text bound other) :
    found = other :=
  searches.resumes.eq_of_mem_iff otherSearches.resumes (searches.mem_iff otherSearches)

end Searches

/-! ## The search by recursion -/

/-- Behind the front of a text and some consumed symbols the search goes as its recursion does. -/
theorem exists_searches
    (front text : Text)
    (consumed : Nat) :
    ∃ found, Searches (front ++ text) (front.length + consumed) found ∧
      found.map Declaration.name = typeNamesFrom consumed text := by
  induction text generalizing front consumed with
  | nil => exact ⟨[], .nothing (by simp), by cases consumed <;> rfl⟩
  | cons symbol rest inductionHypothesis =>
      have text_eq : front ++ symbol :: rest = front ++ [symbol] ++ rest := by simp
      have length_eq : (front ++ [symbol]).length = front.length + 1 := by simp
      cases consumed with
      | succ consumed =>
          obtain ⟨found, searches, names⟩ := inductionHypothesis (front ++ [symbol]) consumed
          rw [length_eq, ← text_eq, Nat.add_assoc, Nat.add_comm 1] at searches
          exact ⟨found, searches, names⟩
      | zero =>
          rw [typeNamesFrom]
          by_cases none : declaredName (symbol :: rest) = []
          · obtain ⟨found, searches, names⟩ := inductionHypothesis (front ++ [symbol]) 0
            rw [length_eq, ← text_eq] at searches
            refine ⟨found, searches.advance fun declaration here stands => ?_, ?_⟩
            · have name_eq := stands.declaredName_eq here
              exact stands.name_ne_nil (name_eq.symm.trans none)
            · simp only [none, List.isEmpty_nil, if_true]
              exact names
          · have stands := Declaration.standsIn_of_declaredName front none
            obtain ⟨found, searches, names⟩ := inductionHypothesis (front ++ [symbol])
              (structKeyword.length + (declaredName (symbol :: rest)).length - 1)
            have stop_eq : front.length + 1 +
                (structKeyword.length + (declaredName (symbol :: rest)).length - 1) =
                (Declaration.mk front.length (declaredName (symbol :: rest))).stop := by
              simp only [Declaration.stop, Declaration.start, Declaration.length_structKeyword]
              omega
            rw [length_eq, ← text_eq, stop_eq] at searches
            refine ⟨_, searches.cons stands, ?_⟩
            simp only [List.map_cons, List.isEmpty_iff, none, if_false, names]

end Schema
end SchemaCodegen
