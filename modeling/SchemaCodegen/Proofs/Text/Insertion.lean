/-!
# Insertions

A list arises from another one by insertions when whole copies of a piece are put
into it, one after the other.  What was there before stays, in its order.
-/

namespace SchemaCodegen

variable {α β : Type} {piece original : List α}

/-- The lists that arise by insertions of a piece. -/
inductive Insertions (piece original : List α) : List α → Prop
  /-- Nothing is inserted. -/
  | none : Insertions piece original original
  /-- One more copy of the piece is inserted. -/
  | insert {before after : List α} :
      Insertions piece original (before ++ after) →
      Insertions piece original (before ++ piece ++ after)

namespace Insertions

theorem trans
    {middle list : List α}
    (early : Insertions piece original middle)
    (late : Insertions piece middle list) :
    Insertions piece original list := by
  induction late with
  | none => exact early
  | insert _ inductionHypothesis => exact .insert inductionHypothesis

theorem append_left
    {list : List α}
    (insertions : Insertions piece original list)
    (front : List α) :
    Insertions piece (front ++ original) (front ++ list) := by
  induction insertions with
  | none => exact .none
  | @insert before after _ inductionHypothesis =>
      rw [← List.append_assoc] at inductionHypothesis
      simpa using inductionHypothesis.insert

theorem flatMap
    {list : List α}
    (insertions : Insertions piece original list)
    (spell : α → List β) :
    Insertions (piece.flatMap spell) (original.flatMap spell) (list.flatMap spell) := by
  induction insertions with
  | none => exact .none
  | insert _ inductionHypothesis =>
      rw [List.flatMap_append] at inductionHypothesis
      simpa using inductionHypothesis.insert

theorem sublist
    {list : List α}
    (insertions : Insertions piece original list) :
    original.Sublist list := by
  induction insertions with
  | none => exact List.Sublist.refl original
  | @insert before after _ inductionHypothesis =>
      exact inductionHypothesis.trans
        ((List.sublist_append_left before piece).append (List.Sublist.refl after))

/-- Everything in the new list was there before or comes from the piece. -/
theorem mem_or_mem
    {list : List α}
    (insertions : Insertions piece original list)
    {item : α}
    (member : item ∈ list) :
    item ∈ original ∨ item ∈ piece := by
  induction insertions with
  | none => exact Or.inl member
  | insert _ inductionHypothesis =>
      simp only [List.mem_append] at member inductionHypothesis
      rcases member with (early | inserted) | late
      · exact inductionHypothesis (Or.inl early)
      · exact Or.inr inserted
      · exact inductionHypothesis (Or.inr late)

end Insertions
end SchemaCodegen
