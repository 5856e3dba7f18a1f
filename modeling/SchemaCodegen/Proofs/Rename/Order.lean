import SchemaCodegen.Proofs.Rename.Clash

/-!
# The order of names

Names are renamed one after the other, but where whole identifiers are renamed the order
shows only if a listed name is another one with the suffix.  Then the longer name is
renamed again when it comes later, and left alone when it comes first.
-/

namespace SchemaCodegen
namespace Rename

open Text (Token tokens)

/-- No listed name is another one with the suffix. -/
def Unchained (names : List Text) (suffix : Text) : Prop :=
  ∀ name ∈ names, ∀ other ∈ names, name ≠ other ++ suffix

instance (names : List Text) (suffix : Text) : Decidable (Unchained names suffix) :=
  inferInstanceAs (Decidable (∀ name ∈ names, ∀ other ∈ names, name ≠ other ++ suffix))

theorem Unchained.of_subset
    {names others : List Text}
    {suffix : Text}
    (unchained : Unchained names suffix)
    (subset : others ⊆ names) :
    Unchained others suffix :=
  fun name member other otherMember =>
    unchained name (subset member) other (subset otherMember)

/-- Without chains, a listed run gets the suffix once and any other run stays. -/
theorem renameRun_of_unchained
    {names : List Text}
    {suffix : Text}
    (unchained : Unchained names suffix)
    (run : Text) :
    renameRun suffix names run = if run ∈ names then run ++ suffix else run := by
  induction names with
  | nil => rfl
  | cons name names inductionHypothesis =>
      have later := unchained.of_subset (List.subset_cons_self name names)
      rw [renameRun_cons]
      by_cases same : run = name
      · subst same
        have absent : run ++ suffix ∉ names := fun member =>
          unchained _ (List.mem_cons_of_mem run member) run List.mem_cons_self rfl
        rw [if_pos rfl, if_pos List.mem_cons_self, renameRun_of_not_mem absent]
      · rw [if_neg same, inductionHypothesis later]
        simp only [List.mem_cons, same, false_or]

theorem idxOf_head_lt
    {name other : Text}
    (different : name ≠ other)
    (rest : List Text) :
    (name :: rest).idxOf name < (name :: rest).idxOf other := by
  rw [List.idxOf_cons_self, List.idxOf_cons_ne rest different]
  exact Nat.succ_pos _

section Orders

variable
  {names : List Text}
  {suffix : Text}
  (suffixInside : suffix.all Symbol.isIdentifier = true)
  (namesNonempty : ∀ name ∈ names, name ≠ [])
  (namesInside : ∀ name ∈ names, name.all Symbol.isIdentifier = true)
include suffixInside namesNonempty namesInside

theorem tokens_rename_of_unchained
    (unchained : Unchained names suffix)
    (text : Text) :
    tokens (rename .wholeIdentifier suffix names text) =
      (tokens text).map
        (Token.mapRun fun run => if run ∈ names then run ++ suffix else run) := by
  have distinctUnchained : Unchained names.eraseDups suffix :=
    unchained.of_subset fun name member => List.mem_eraseDups.mp member
  rw [tokens_rename_of_ne_nil suffixInside namesNonempty namesInside]
  congr 2
  funext run
  simp only [renameRun_of_unchained distinctUnchained, List.mem_eraseDups]

/-- In every order, a listed name that stands alone is renamed as one run. -/
theorem rename_name_of_perm
    {order : List Text}
    (perm : order.Perm names)
    {name : Text}
    (listed : name ∈ names) :
    rename .wholeIdentifier suffix order name = renameRun suffix order.eraseDups name := by
  have renamed :
      tokens (rename .wholeIdentifier suffix order name) =
        [.identifier (renameRun suffix order.eraseDups name)] := by
    rw [tokens_rename_of_ne_nil suffixInside
        (fun other member => namesNonempty other (perm.mem_iff.mp member))
        (fun other member => namesInside other (perm.mem_iff.mp member)),
      Text.tokens_of_all (namesNonempty name listed) (namesInside name listed)]
    rfl
  obtain ⟨_, spelled⟩ := Text.tokens_eq_iff.mp renamed
  simpa using spelled.symm

theorem rename_of_perm
    (unchained : Unchained names suffix)
    {order : List Text}
    (perm : order.Perm names)
    (text : Text) :
    rename .wholeIdentifier suffix order text = rename .wholeIdentifier suffix names text := by
  apply Text.tokens_injective
  rw [tokens_rename_of_unchained suffixInside namesNonempty namesInside unchained,
    tokens_rename_of_unchained suffixInside
      (fun other member => namesNonempty other (perm.mem_iff.mp member))
      (fun other member => namesInside other (perm.mem_iff.mp member))
      (unchained.of_subset perm.subset)]
  simp only [perm.mem_iff]

/-- A chain is renamed in one way from its shorter end, in another from its longer end. -/
theorem unchained_of_agree
    (suffixNonempty : suffix ≠ [])
    (agree : ∀ order : List Text, order.Perm names → ∀ text,
      rename .wholeIdentifier suffix order text =
        rename .wholeIdentifier suffix names text) :
    Unchained names suffix := by
  intro name listed other otherListed becomes
  have different : other ≠ name := by
    intro same
    rw [same] at becomes
    exact suffixNonempty (by simpa using becomes)
  have shortFirst : (other :: names.erase other).Perm names :=
    (List.perm_cons_erase otherListed).symm
  have longFirst : (name :: names.erase name).Perm names :=
    (List.perm_cons_erase listed).symm
  -- First in its order, the shorter name becomes the longer one before that is renamed.
  have renamedTwice :
      renameRun suffix (other :: names.erase other).eraseDups other ≠ name := by
    apply renameRun_eraseDups_ne suffixNonempty (shortFirst.mem_iff.mpr listed)
    intro third _ third_eq
    have third_is_other : third = other :=
      List.append_cancel_right (third_eq.trans becomes)
    rw [third_is_other]
    exact idxOf_head_lt different _
  -- Behind the longer name, it becomes that one when that has been renamed already.
  have renamedOnce :
      renameRun suffix (name :: names.erase name).eraseDups other = name :=
    renameRun_eraseDups_of_later List.mem_cons_self (longFirst.mem_iff.mpr otherListed)
      becomes.symm (idxOf_head_lt different.symm _)
  have sameText := (agree _ shortFirst other).trans (agree _ longFirst other).symm
  rw [rename_name_of_perm suffixInside namesNonempty namesInside shortFirst otherListed,
    rename_name_of_perm suffixInside namesNonempty namesInside longFirst otherListed,
    renamedOnce] at sameText
  exact renamedTwice sameText

end Orders

/--
The order of the names makes no difference to any text, if and only if no listed name is
another one with the suffix.  Then every whole identifier that is listed gets the suffix
once, and every other identifier stays.
-/
theorem rename_perm_iff
    (names : List Text)
    (suffix : Text)
    (suffixNonempty : suffix ≠ [])
    (suffixInside : suffix.all Symbol.isIdentifier = true)
    (namesNonempty : ∀ name ∈ names, name ≠ [])
    (namesInside : ∀ name ∈ names, name.all Symbol.isIdentifier = true) :
    ((∀ order : List Text, order.Perm names → ∀ text,
        rename .wholeIdentifier suffix order text =
          rename .wholeIdentifier suffix names text) ↔
      Unchained names suffix) ∧
      (Unchained names suffix → ∀ text,
        tokens (rename .wholeIdentifier suffix names text) =
          (tokens text).map
            (Token.mapRun fun run => if run ∈ names then run ++ suffix else run)) := by
  refine ⟨⟨fun agree => ?_, fun unchained order perm text => ?_⟩,
    fun unchained text => ?_⟩
  · exact unchained_of_agree suffixInside namesNonempty namesInside suffixNonempty agree
  · exact rename_of_perm suffixInside namesNonempty namesInside unchained perm text
  · exact tokens_rename_of_unchained suffixInside namesNonempty namesInside unchained text

/-- A name beside a longer one may be listed anywhere; beside itself with the suffix not. -/
theorem rename_perm_iff_user :
    let suffix := Text.ofString "Capn"
    let apart := ["User", "UserProfile"].map Text.ofString
    let chained := ["User", "UserCapn"].map Text.ofString
    (suffix ≠ [] ∧ suffix.all Symbol.isIdentifier = true ∧
      (∀ name ∈ apart ++ chained, name ≠ []) ∧
      (∀ name ∈ apart ++ chained, name.all Symbol.isIdentifier = true)) ∧
      (∀ order : List Text, order.Perm apart → ∀ text,
        rename .wholeIdentifier suffix order text =
          rename .wholeIdentifier suffix apart text) ∧
      ¬∀ order : List Text, order.Perm chained → ∀ text,
        rename .wholeIdentifier suffix order text =
          rename .wholeIdentifier suffix chained text := by
  intro suffix apart chained
  have suffixNonempty : suffix ≠ [] := by decide +kernel
  have suffixInside : suffix.all Symbol.isIdentifier = true := by decide +kernel
  have nonempty : ∀ name ∈ apart ++ chained, name ≠ [] := by decide +kernel
  have inside : ∀ name ∈ apart ++ chained, name.all Symbol.isIdentifier = true := by
    decide +kernel
  have apartAgree := (rename_perm_iff apart suffix suffixNonempty suffixInside
    (fun name member => nonempty name (List.mem_append_left chained member))
    (fun name member => inside name (List.mem_append_left chained member))).1
  have chainedAgree := (rename_perm_iff chained suffix suffixNonempty suffixInside
    (fun name member => nonempty name (List.mem_append_right apart member))
    (fun name member => inside name (List.mem_append_right apart member))).1
  refine ⟨⟨suffixNonempty, suffixInside, nonempty, inside⟩, apartAgree.mpr ?_, ?_⟩
  · decide +kernel
  · rw [chainedAgree]
    decide +kernel

end Rename
end SchemaCodegen
