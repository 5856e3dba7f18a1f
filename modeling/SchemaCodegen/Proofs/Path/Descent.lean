import Mathlib.Data.List.Infix
import SchemaCodegen.Path.Basic

/-!
# Staying inside of a directory

Parts are followed name by name, and every double dot goes up again.  The way never leaves the
directory that it starts at exactly when no front of it has more ways up than down.
-/

namespace SchemaCodegen
namespace Path

section Collapse

variable {α : Type} [DecidableEq α] {up : α}

@[simp] theorem collapse_nil (directory : List α) : collapse up directory [] = directory := rfl

@[simp] theorem collapse_up (directory names : List α) :
    collapse up directory (up :: names) = collapse up directory.dropLast names := by
  simp [collapse]

theorem collapse_cons_of_ne
    {name : α}
    (down : name ≠ up)
    (directory names : List α) :
    collapse up directory (name :: names) = collapse up (directory ++ [name]) names := by
  simp [collapse, down]

theorem collapse_append (directory first second : List α) :
    collapse up directory (first ++ second) =
      collapse up (collapse up directory first) second :=
  List.foldl_append

theorem mem_of_mem_collapse
    {name : α}
    {directory names : List α}
    (member : name ∈ collapse up directory names) :
    name ∈ directory ∨ name ∈ names := by
  induction names generalizing directory with
  | nil => exact Or.inl member
  | cons first names inductionHypothesis =>
      by_cases goesUp : first = up
      · rw [goesUp, collapse_up] at member
        rcases inductionHypothesis member with kept | later
        · exact Or.inl (List.mem_of_mem_dropLast kept)
        · exact Or.inr (List.mem_cons_of_mem first later)
      · rw [collapse_cons_of_ne goesUp] at member
        rcases inductionHypothesis member with reached | later
        · rcases List.mem_append.mp reached with kept | added
          · exact Or.inl kept
          · exact Or.inr (List.mem_singleton.mp added ▸ List.mem_cons_self)
        · exact Or.inr (List.mem_cons_of_mem first later)

/-- Other names for the same directories lead to the same place. -/
theorem map_collapse
    {β : Type}
    [DecidableEq β]
    {upThere : β}
    {rename : α → β}
    (same : ∀ name, rename name = upThere ↔ name = up)
    (directory names : List α) :
    (collapse up directory names).map rename =
      collapse upThere (directory.map rename) (names.map rename) := by
  induction names generalizing directory with
  | nil => rfl
  | cons name names inductionHypothesis =>
      by_cases goesUp : name = up
      · rw [goesUp, collapse_up, inductionHypothesis, List.map_cons, (same up).mpr rfl,
          collapse_up, List.map_dropLast]
      · rw [collapse_cons_of_ne goesUp, inductionHypothesis, List.map_cons,
          collapse_cons_of_ne (mt (same name).mp goesUp), List.map_append]
        rfl

variable [BEq α] [LawfulBEq α]

/-- As long as there is something to take back, every name that goes up takes one back. -/
theorem length_collapse
    {directory names : List α}
    (deep : names.count up ≤ directory.length) :
    (collapse up directory names).length + 2 * names.count up =
      directory.length + names.length := by
  induction names generalizing directory with
  | nil => simp
  | cons name names inductionHypothesis =>
      by_cases goesUp : name = up
      · subst goesUp
        rw [List.count_cons_self] at deep ⊢
        have above : directory.dropLast.length = directory.length - 1 := List.length_dropLast
        have counted := @inductionHypothesis directory.dropLast (by omega)
        rw [collapse_up, List.length_cons]
        omega
      · rw [List.count_cons_of_ne goesUp] at deep ⊢
        have below : (directory ++ [name]).length = directory.length + 1 := List.length_append
        have counted := @inductionHypothesis (directory ++ [name]) (by omega)
        rw [collapse_cons_of_ne goesUp, List.length_cons]
        omega

/-- Names that are still to be taken back keep the directory from being left. -/
theorem isPrefix_collapse
    {directory above names : List α}
    (never : ∀ front : List α, front <+: names →
      2 * front.count up ≤ front.length + above.length) :
    directory <+: collapse up (directory ++ above) names := by
  induction names generalizing above with
  | nil => exact List.prefix_append directory above
  | cons name names inductionHypothesis =>
      have later : ∀ front : List α, front <+: names →
          2 * (name :: front).count up ≤ (name :: front).length + above.length :=
        fun front isFront => never _ (List.cons_prefix_cons.mpr ⟨rfl, isFront⟩)
      by_cases goesUp : name = up
      · subst goesUp
        have one := later [] List.nil_prefix
        simp only [List.count_cons_self, List.count_nil, List.length_cons, List.length_nil]
          at one
        have nonempty : above ≠ [] := List.ne_nil_of_length_pos (by omega)
        rw [collapse_up, List.dropLast_append_of_ne_nil nonempty]
        apply inductionHypothesis
        intro front isFront
        have counted := later front isFront
        rw [List.count_cons_self, List.length_cons] at counted
        rw [List.length_dropLast]
        omega
      · rw [collapse_cons_of_ne goesUp, List.append_assoc]
        apply inductionHypothesis
        intro front isFront
        have counted := later front isFront
        rw [List.count_cons_of_ne goesUp, List.length_cons] at counted
        rw [List.length_append, List.length_singleton]
        omega

end Collapse

/-- From whatever directory the parts are followed, no place on the way lies outside of it. -/
def StaysInside (parts : List Text) : Prop :=
  ∀ directory front : List Text, front <+: parts →
    directory <+: collapse up directory front

/-- No front of the parts has more ways up than down. -/
def NeverAbove (parts : List Text) : Prop :=
  ∀ front : List Text, front <+: parts → 2 * front.count up ≤ front.length

instance (parts : List Text) : Decidable (NeverAbove parts) :=
  decidable_of_iff (∀ front ∈ parts.inits, 2 * front.count up ≤ front.length)
    (by simp [NeverAbove])

theorem staysInside_iff {parts : List Text} : StaysInside parts ↔ NeverAbove parts := by
  constructor
  · intro stays front isFront
    -- A directory as deep as the way is long never runs out of names to take back.
    let directory : List Text := List.replicate front.length "directory"
    have deep : front.count up ≤ directory.length := by
      simpa [directory] using List.count_le_length
    have counted := length_collapse deep
    have kept := (stays directory front isFront).length_le
    omega
  · intro never directory front isFront
    have inside : directory <+: collapse up (directory ++ []) front :=
      isPrefix_collapse fun start isStart => never start (isStart.trans isFront)
    rwa [List.append_nil] at inside

/-- A last part that goes down makes no difference. -/
theorem neverAbove_append_iff
    {above : List Text}
    {last : Text}
    (down : last ≠ up) :
    NeverAbove (above ++ [last]) ↔ NeverAbove above := by
  constructor
  · intro never front isFront
    exact never front (isFront.trans (List.prefix_append above [last]))
  · intro never front isFront
    rcases List.prefix_concat_iff.mp isFront with rfl | isFront
    · have counted := never above List.prefix_rfl
      rw [List.count_append, List.count_singleton, List.length_append]
      simp only [beq_iff_eq, down, if_false, List.length_singleton]
      omega
    · exact never front isFront

end Path
end SchemaCodegen
