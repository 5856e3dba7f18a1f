import SchemaCodegen.Proofs.Text.Validity
import SchemaCodegen.Text.Handover

/-!
# Texts that are handed over

The operating system takes a text exactly when it takes each of its symbols, so a text
that is put together or cut out of such texts is taken too.
-/

namespace SchemaCodegen

/-- The symbols that the operating system takes: they have bytes, other than a zero. -/
def Symbol.IsHandable (symbol : Symbol) : Prop :=
  Utf8.isHalf symbol = false ∧ symbol ≠ .char '\x00'

instance (symbol : Symbol) : Decidable symbol.IsHandable :=
  inferInstanceAs (Decidable (Utf8.isHalf symbol = false ∧ symbol ≠ .char '\x00'))

namespace Text

theorem handoverFault?_eq_none_iff {text : Text} :
    text.handoverFault? = none ↔ ∀ symbol ∈ text, symbol.IsHandable := by
  have encodable := Utf8.encodeFaultFrom_eq_none_iff .preserve 0 text
  unfold handoverFault?
  cases found : Utf8.encodeFaultFrom .preserve 0 text with
  | some fault =>
      have missed : ¬∀ symbol ∈ text, Utf8.isHalf symbol = false := by
        intro none
        rw [encodable.mpr none] at found
        contradiction
      refine iff_of_false (by simp) fun handable => missed ?_
      exact fun symbol member => (handable symbol member).1
  | none =>
      have halves := encodable.mp found
      constructor
      · intro free symbol member
        refine ⟨halves symbol member, ?_⟩
        rintro rfl
        simp [member] at free
      · intro handable
        exact if_neg fun member => (handable _ member).2 rfl

@[simp] theorem handoverFault?_nil : handoverFault? [] = none := rfl

@[simp] theorem handoverFault?_cons_eq_none_iff {symbol : Symbol} {rest : Text} :
    handoverFault? (symbol :: rest) = none ↔
      symbol.IsHandable ∧ rest.handoverFault? = none := by
  simp only [handoverFault?_eq_none_iff, List.forall_mem_cons]

@[simp] theorem handoverFault?_append_eq_none_iff {first second : Text} :
    (first ++ second).handoverFault? = none ↔
      first.handoverFault? = none ∧ second.handoverFault? = none := by
  simp only [handoverFault?_eq_none_iff, List.forall_mem_append]

theorem handoverFault?_of_subset
    {first second : Text}
    (subset : first ⊆ second)
    (usable : second.handoverFault? = none) :
    first.handoverFault? = none := by
  rw [handoverFault?_eq_none_iff] at usable ⊢
  exact fun symbol member => usable symbol (subset member)

end Text
end SchemaCodegen
