import SchemaCodegen.Proofs.Text.LineEnding

/-!
# Valid UTF-8

A byte string is valid UTF-8 exactly when no raw symbol is needed to decode it.  The
strict policy refuses everything else; where it refuses nothing, it decodes and encodes
like the preserving one.
-/

namespace SchemaCodegen

namespace Text

/-- A text that holds no half of a pair, and so no undecodable byte. -/
def IsUnicode (text : Text) : Prop :=
  ∀ symbol ∈ text, Utf8.isSurrogate symbol = false

instance (text : Text) : Decidable (IsUnicode text) :=
  List.decidableBAll (fun symbol => Utf8.isSurrogate symbol = false) text

@[simp] theorem isUnicode_nil : IsUnicode [] := by simp [IsUnicode]

@[simp] theorem isUnicode_cons_char (character : Char) (rest : Text) :
    IsUnicode (.char character :: rest) ↔ IsUnicode rest := by
  simp [IsUnicode, Utf8.isSurrogate]

@[simp] theorem not_isUnicode_cons_raw (offset : Fin 128) (rest : Text) :
    ¬IsUnicode (.raw offset :: rest) := by
  simp [IsUnicode, Utf8.isSurrogate]

@[simp] theorem not_isUnicode_cons_half (index : Fin 1920) (rest : Text) :
    ¬IsUnicode (.half index :: rest) := by
  simp [IsUnicode, Utf8.isSurrogate]

theorem isUnicode_map_char (characters : List Char) :
    IsUnicode (characters.map .char) := by
  induction characters with
  | nil => exact isUnicode_nil
  | cons character rest inductionHypothesis =>
      exact (isUnicode_cons_char character _).mpr inductionHypothesis

theorem exists_eq_map_char
    {text : Text}
    (unicode : IsUnicode text) :
    ∃ characters : List Char, text = characters.map .char := by
  induction text with
  | nil => exact ⟨[], rfl⟩
  | cons symbol rest inductionHypothesis =>
      cases symbol with
      | raw offset => exact absurd unicode (not_isUnicode_cons_raw offset rest)
      | half index => exact absurd unicode (not_isUnicode_cons_half index rest)
      | char character =>
          obtain ⟨characters, rfl⟩ :=
            inductionHypothesis ((isUnicode_cons_char character rest).mp unicode)
          exact ⟨character :: characters, rfl⟩

@[simp] theorem isUnicode_normalizeLineEndings (text : Text) :
    IsUnicode text.normalizeLineEndings ↔ IsUnicode text := by
  fun_induction normalizeLineEndings text with
  | case1 => simp
  | case2 rest inductionHypothesis => simp [Symbol.newline, inductionHypothesis]
  | case3 rest _ inductionHypothesis => simp [Symbol.newline, inductionHypothesis]
  | case4 symbol rest _ _ inductionHypothesis =>
      cases symbol <;> simp [inductionHypothesis]

theorem IsUnicode.of_insertions
    {piece text new : Text}
    (insertions : Insertions piece text new)
    (unicodePiece : IsUnicode piece)
    (unicode : IsUnicode text) :
    IsUnicode new := by
  intro symbol member
  rcases insertions.mem_or_mem member with old | inserted
  · exact unicode symbol old
  · exact unicodePiece symbol inserted

end Text

namespace Utf8

/-- The bytes of some characters, in the standard encoding. -/
def IsValid (bytes : List UInt8) : Prop :=
  bytes.toByteArray.IsValidUTF8

theorem decode_flatMap_encodeChar (characters : List Char) :
    decode (characters.flatMap encodeChar) = characters.map .char := by
  induction characters with
  | nil => rfl
  | cons character rest inductionHypothesis =>
      rw [List.flatMap_cons, decode_encodeChar_append, inductionHypothesis, List.map_cons]

theorem isValid_iff {bytes : List UInt8} :
    IsValid bytes ↔ (decode bytes).IsUnicode := by
  have standard : encodeChar = String.utf8EncodeChar := funext encodeChar_eq
  constructor
  · rintro ⟨characters, spelled⟩
    rw [List.utf8Encode, List.toByteArray_inj, ← standard] at spelled
    rw [spelled, decode_flatMap_encodeChar]
    exact Text.isUnicode_map_char characters
  · intro unicode
    obtain ⟨characters, decoded⟩ := Text.exists_eq_map_char unicode
    refine ⟨characters, ?_⟩
    rw [List.utf8Encode, List.toByteArray_inj, ← standard, ← encode_map_char, ← decoded,
      encode_decode]

theorem faultFrom_eq_none_iff (position consumed : Nat) (bytes : List UInt8) :
    faultFrom position consumed bytes = none ↔ (decodeFrom consumed bytes).IsUnicode := by
  induction bytes generalizing position consumed with
  | nil => simp [faultFrom, decodeFrom]
  | cons lead rest inductionHypothesis =>
      cases consumed with
      | succ consumed => exact inductionHypothesis (position + 1) consumed
      | zero => cases headed : head lead rest <;>
          simp [faultFrom, decodeFrom, Symbol.ofByte, headed, inductionHypothesis]

/-- A policy encodes a text exactly when it refuses none of its symbols. -/
theorem encodeFaultFrom_eq_none_iff (policy : Policy) (position : Nat) (text : Text) :
    encodeFaultFrom policy position text = none ↔
      ∀ symbol ∈ text, policy.refuses symbol = false := by
  induction text generalizing position with
  | nil => simp [encodeFaultFrom]
  | cons symbol rest inductionHypothesis =>
      cases refused : policy.refuses symbol <;>
        simp [encodeFaultFrom, refused, inductionHypothesis]

theorem encodeWith_eq_ok
    {policy : Policy}
    {text : Text}
    (encodable : ∀ symbol ∈ text, policy.refuses symbol = false) :
    encodeWith policy text = .ok (encode text) := by
  rw [encodeWith, (encodeFaultFrom_eq_none_iff policy 0 text).mpr encodable]

/-- What can be read back holds no half that stands for no byte. -/
theorem Stable.isHalf_eq_false
    {text : Text}
    (stable : Stable text) :
    ∀ symbol ∈ text, isHalf symbol = false := by
  induction stable with
  | nil => simp
  | char character _ inductionHypothesis => simpa [isHalf] using inductionHypothesis
  | raw offset _ _ inductionHypothesis => simpa [isHalf] using inductionHypothesis

/-- The byte strings that a policy decodes. -/
def Policy.Accepts : Policy → List UInt8 → Prop
  | .strict, bytes => IsValid bytes
  | .preserve, _ => True

theorem decodeWith_of_accepts
    {policy : Policy}
    {bytes : List UInt8}
    (accepted : policy.Accepts bytes) :
    decodeWith policy bytes = .ok (decode bytes) := by
  cases policy with
  | preserve => rfl
  | strict =>
      have faultless := (faultFrom_eq_none_iff 0 0 bytes).mpr (isValid_iff.mp accepted)
      rw [decodeWith, faultless]

theorem decodeWith_of_not_accepts
    {policy : Policy}
    {bytes : List UInt8}
    (refused : ¬policy.Accepts bytes) :
    ∃ fault, decodeWith policy bytes = .error fault := by
  cases policy with
  | preserve => exact absurd trivial refused
  | strict =>
      cases found : faultFrom 0 0 bytes with
      | none =>
          exact absurd (isValid_iff.mpr ((faultFrom_eq_none_iff 0 0 bytes).mp found)) refused
      | some fault => exact ⟨fault, by rw [decodeWith, found]⟩

theorem accepts_encode
    {policy : Policy}
    {bytes : List UInt8}
    {text : Text}
    (stable : Stable text)
    (accepted : policy.Accepts bytes)
    (keeps : (decode bytes).IsUnicode → text.IsUnicode) :
    policy.Accepts (encode text) := by
  cases policy with
  | preserve => exact trivial
  | strict =>
      have unicode := keeps (isValid_iff.mp accepted)
      exact isValid_iff.mpr (by rwa [stable.decode_encode])

/-- What has been decoded can be encoded again, unless raw symbols have come to it. -/
theorem encodeWith_of_accepts
    {policy : Policy}
    {bytes : List UInt8}
    {text : Text}
    (stable : Stable text)
    (accepted : policy.Accepts bytes)
    (keeps : (decode bytes).IsUnicode → text.IsUnicode) :
    encodeWith policy text = .ok (encode text) := by
  apply encodeWith_eq_ok
  cases policy with
  | preserve => exact stable.isHalf_eq_false
  | strict => exact keeps (isValid_iff.mp accepted)

end Utf8
end SchemaCodegen
