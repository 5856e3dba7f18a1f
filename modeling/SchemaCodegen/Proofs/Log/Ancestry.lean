import Mathlib.Data.List.Basic
import SchemaCodegen.Log.Hierarchy

/-!
# Where records are handed on to

A logger hands its records on along its nearest existing ancestors.  This module
gives that chain as a relation, shows that the bounded walk follows all of it, and
says which names lead to the logger of the program: every name that does not begin
with a dot, but no name that begins with exactly one.
-/

namespace SchemaCodegen
namespace Log

/-! ## The ancestors of a name -/

/-- What is listed as an ancestor stands before a dot, and is not empty. -/
theorem ancestorsFrom_cut
    {afterDot : Bool}
    {reversed ancestor : List Char}
    (listed : ancestor ∈ ancestorsFrom afterDot reversed) :
    ancestor ≠ [] ∧ ∃ below, reversed = below ++ '.' :: ancestor := by
  fun_induction ancestorsFrom afterDot reversed with
  | case1 => simp at listed
  | case2 character rest inductionHypothesis =>
      obtain ⟨occupied, below, rfl⟩ := inductionHypothesis listed
      exact ⟨occupied, character :: below, rfl⟩
  | case3 character rest atDot inductionHypothesis =>
      obtain ⟨rfl, restOccupied⟩ := atDot
      rcases List.mem_cons.mp listed with rfl | further
      · exact ⟨restOccupied, [], rfl⟩
      · obtain ⟨occupied, below, rfl⟩ := inductionHypothesis further
        exact ⟨occupied, '.' :: below, rfl⟩
  | case4 character rest notAtDot inductionHypothesis =>
      obtain ⟨occupied, below, rfl⟩ := inductionHypothesis listed
      exact ⟨occupied, character :: below, rfl⟩

/--
The ancestors found in the end part of a name do not depend on what stands before
it, and those found before it do not depend on the end part, unless that begins
with a dot.
-/
theorem ancestorsFrom_append
    (front tail : List Char)
    (afterDot : Bool)
    (undotted : front.getLast? ≠ some '.')
    (fresh : front = [] → afterDot = false) :
    ancestorsFrom afterDot (front ++ tail) =
      (ancestorsFrom afterDot front).map (· ++ tail) ++ ancestorsFrom false tail := by
  induction front generalizing afterDot with
  | nil => simp [fresh rfl, ancestorsFrom]
  | cons character rest inductionHypothesis =>
      have restUndotted : rest.getLast? ≠ some '.' := by
        cases rest with
        | nil => simp
        | cons => simpa using undotted
      cases afterDot with
      | true =>
          simpa [ancestorsFrom] using inductionHypothesis false restUndotted fun _ => rfl
      | false =>
          by_cases atDot : character = '.'
          · subst atDot
            have occupied : rest ≠ [] := by
              rintro rfl
              exact undotted rfl
            simpa [ancestorsFrom, occupied] using
              inductionHypothesis true restUndotted fun empty => absurd empty occupied
          · simpa [ancestorsFrom, atDot] using inductionHypothesis false restUndotted fun _ => rfl

/-- A name that begins with a dot. -/
def BeginsWithDot (name : String) : Prop :=
  name.toList.head? = some '.'

instance (name : String) : Decidable (BeginsWithDot name) :=
  inferInstanceAs (Decidable (name.toList.head? = some '.'))

/-- An ancestor is what stands before some dot of the name. -/
theorem exists_eq_of_mem_ancestors
    {name ancestor : String}
    (listed : ancestor ∈ ancestors name) :
    ancestor ≠ "" ∧ ∃ below, name = ancestor ++ "." ++ below := by
  obtain ⟨reversed, found, rfl⟩ := List.mem_map.mp listed
  obtain ⟨occupied, below, cut⟩ := ancestorsFrom_cut found
  refine ⟨by simpa [← String.toList_inj] using occupied, String.ofList below.reverse, ?_⟩
  have turned := congrArg List.reverse cut
  simpa [← String.toList_inj] using turned

theorem length_lt_of_mem_ancestors
    {name ancestor : String}
    (listed : ancestor ∈ ancestors name) :
    ancestor.length < name.length := by
  obtain ⟨-, below, rfl⟩ := exists_eq_of_mem_ancestors listed
  have dot : ".".length = 1 := rfl
  simp only [String.length_append, dot]
  omega

/-- A name begins as its ancestors do. -/
theorem not_beginsWithDot_of_mem_ancestors
    {name ancestor : String}
    (undotted : ¬BeginsWithDot name)
    (listed : ancestor ∈ ancestors name) :
    ¬BeginsWithDot ancestor := by
  obtain ⟨occupied, below, rfl⟩ := exists_eq_of_mem_ancestors listed
  intro dotted
  apply undotted
  unfold BeginsWithDot at dotted ⊢
  simp [String.toList_append, List.head?_append, dotted]

/-- Below a stem, a name has the ancestors that it has alone, and then those of the stem. -/
theorem ancestors_append
    (stem : String)
    {name : String}
    (undotted : ¬BeginsWithDot name) :
    ancestors (stem ++ name) = (ancestors name).map (stem ++ ·) ++ ancestors stem := by
  unfold ancestors
  rw [String.toList_append, List.reverse_append,
    ancestorsFrom_append _ _ _ (by simpa [BeginsWithDot] using undotted) fun _ => rfl,
    List.map_append, List.map_map, List.map_map]
  congr 1
  refine List.map_congr_left fun reversed _ => ?_
  simp

/-! ## The chain of existing ancestors -/

namespace Hierarchy

/-- The records of a logger come to the logger of the program, by way of nearest ancestors. -/
inductive Leads (hierarchy : Hierarchy) : String → Prop
  /-- The logger of the program has them. -/
  | here : hierarchy.Leads rootName
  /-- A logger hands them on to one from which they come there. -/
  | onward {name parent : String} :
      hierarchy.parent? name = some parent →
      hierarchy.Leads parent →
      hierarchy.Leads name

variable {hierarchy : Hierarchy}

theorem mem_ancestors_of_parent
    {name parent : String}
    (handedOn : hierarchy.parent? name = some parent) :
    parent ∈ ancestors name :=
  List.mem_of_find?_eq_some handedOn

theorem mem_names_of_parent
    {name parent : String}
    (handedOn : hierarchy.parent? name = some parent) :
    parent ∈ hierarchy.names := by
  simpa using List.find?_some handedOn

theorem leads_iff {name : String} :
    hierarchy.Leads name ↔
      name = rootName ∨
        ∃ parent, hierarchy.parent? name = some parent ∧ hierarchy.Leads parent := by
  constructor
  · intro leads
    cases leads with
    | here => exact .inl rfl
    | onward handedOn leads => exact .inr ⟨_, handedOn, leads⟩
  · rintro (rfl | ⟨parent, handedOn, leads⟩)
    · exact .here
    · exact .onward handedOn leads

/-- Names get shorter on the way, so that as many steps as a name has characters are enough. -/
theorem leadsWithin_iff
    {steps : Nat}
    {name : String}
    (enough : name.length ≤ steps) :
    hierarchy.leadsWithin steps name = true ↔ hierarchy.Leads name := by
  induction steps generalizing name with
  | zero =>
      obtain rfl : name = "" := by simpa using enough
      rw [leads_iff]
      simp [leadsWithin, parent?, ancestors, ancestorsFrom]
  | succ steps inductionHypothesis =>
      rw [leads_iff, leadsWithin]
      cases handedOn : hierarchy.parent? name with
      | none => simp
      | some parent =>
          have shorter := length_lt_of_mem_ancestors (mem_ancestors_of_parent handedOn)
          have followed : hierarchy.leadsWithin steps parent = true ↔ hierarchy.Leads parent :=
            inductionHypothesis (by omega)
          simp [followed]

theorem leadsToRoot_iff {name : String} :
    hierarchy.leadsToRoot name = true ↔ hierarchy.Leads name :=
  leadsWithin_iff (Nat.le_refl _)

instance (hierarchy : Hierarchy) (name : String) : Decidable (hierarchy.Leads name) :=
  decidable_of_iff _ leadsToRoot_iff

/-! ## Names that lead to the logger of the program, and names that do not -/

/-- The logger of the program exists, and every other one was asked for by a part of it. -/
structure AskedFor (hierarchy : Hierarchy) : Prop where
  /-- The logger of the program exists. -/
  root : rootName ∈ hierarchy.names
  /-- Each logger was asked for. -/
  asked : ∀ name ∈ hierarchy.names, ∃ asked, name = loggerName asked

theorem loggerName_some {name : String} (occupied : name ≠ "") :
    loggerName (some name) = rootName ++ "." ++ name := by
  simp [loggerName, occupied]

/-- No part of the program gets a logger whose name ends right behind the first dot. -/
theorem loggerName_ne (asked : Option String) :
    loggerName asked ≠ rootName ++ "." := by
  cases asked with
  | none => decide
  | some name =>
      by_cases empty : name = ""
      · subst empty
        decide
      · rw [loggerName_some empty]
        intro equal
        have lengths := congrArg String.length equal
        rw [String.length_append] at lengths
        exact empty (String.length_eq_zero_iff.mp (by omega))

/--
Below the logger of the program, every name that does not begin with a dot leads to
it: what it is handed on to is again such a name, or the logger of the program.
-/
theorem leads_append
    (root : rootName ∈ hierarchy.names)
    {name : String}
    (undotted : ¬BeginsWithDot name) :
    hierarchy.Leads (rootName ++ "." ++ name) := by
  induction hLength : name.length using Nat.strongRecOn generalizing name with
  | _ length inductionHypothesis =>
      have listed : ancestors (rootName ++ "." ++ name) =
          (ancestors name).map (rootName ++ "." ++ ·) ++ [rootName] :=
        ancestors_append (rootName ++ ".") undotted
      cases handedOn : hierarchy.parent? (rootName ++ "." ++ name) with
      | none =>
          have missing := List.find?_eq_none.mp handedOn rootName (by simp [listed])
          simp [root] at missing
      | some parent =>
          have found := mem_ancestors_of_parent handedOn
          rw [listed, List.mem_append, List.mem_map, List.mem_singleton] at found
          refine .onward handedOn ?_
          rcases found with ⟨above, aboveListed, rfl⟩ | rfl
          · exact inductionHypothesis _ (hLength ▸ length_lt_of_mem_ancestors aboveListed)
              (not_beginsWithDot_of_mem_ancestors undotted aboveListed) rfl
          · exact .here

/--
A name with exactly one more dot never does: the dot right before the one that was
used is passed over, and what stands before that one is no logger.
-/
theorem not_leads_append
    (askedFor : hierarchy.AskedFor)
    {name : String}
    (undotted : ¬BeginsWithDot name) :
    ¬hierarchy.Leads (rootName ++ ".." ++ name) := by
  intro leads
  generalize astray : rootName ++ ".." ++ name = asked at leads
  induction leads generalizing name with
  | here =>
      have lengths := congrArg String.length astray
      have stem : (rootName ++ "..").length = 6 := by decide
      have root : rootName.length = 4 := by decide
      rw [String.length_append] at lengths
      omega
  | onward handedOn _ inductionHypothesis =>
      subst astray
      have found := mem_ancestors_of_parent handedOn
      have stem : ancestors (rootName ++ "..") = [rootName ++ "."] := by decide
      rw [ancestors_append (rootName ++ "..") undotted, stem, List.mem_append, List.mem_map,
        List.mem_singleton] at found
      rcases found with ⟨above, aboveListed, rfl⟩ | rfl
      · exact inductionHypothesis (not_beginsWithDot_of_mem_ancestors undotted aboveListed) rfl
      · obtain ⟨asked, equal⟩ := askedFor.asked _ (mem_names_of_parent handedOn)
        exact loggerName_ne asked equal.symm

end Hierarchy

end Log
end SchemaCodegen
