import SchemaCodegen.Proofs.Text.RoundTrip
import SchemaCodegen.Text.LineEnding

/-!
# Line endings in bytes

Line endings can be told from the bytes of a text alone: no other character and no
undecodable byte is spelled with a carriage return or a newline.
-/

namespace SchemaCodegen

namespace Text

theorem normalizeLineEndings_crlf (rest : Text) :
    normalizeLineEndings (.char '\r' :: .newline :: rest) =
      normalizeLineEndings (.newline :: rest) := rfl

theorem normalizeLineEndings_return
    {rest : Text}
    (alone : rest.head? ≠ some .newline) :
    normalizeLineEndings (.char '\r' :: rest) = .newline :: normalizeLineEndings rest := by
  rw [normalizeLineEndings]
  rintro others rfl
  exact alone rfl

theorem normalizeLineEndings_cons
    {symbol : Symbol}
    (other : symbol ≠ .char '\r')
    (rest : Text) :
    normalizeLineEndings (symbol :: rest) = symbol :: normalizeLineEndings rest := by
  rw [normalizeLineEndings]
  · rintro others rfl
    contradiction
  · exact other

theorem return_not_mem_normalizeLineEndings (text : Text) :
    .char '\r' ∉ normalizeLineEndings text := by
  fun_induction normalizeLineEndings text with
  | case1 => simp
  | case2 rest inductionHypothesis => simpa [Symbol.newline] using inductionHypothesis
  | case3 rest _ inductionHypothesis => simpa [Symbol.newline] using inductionHypothesis
  | case4 symbol rest _ other inductionHypothesis =>
      simpa [inductionHypothesis] using Ne.symm other

theorem normalizeLineEndings_of_not_mem
    {text : Text}
    (absent : .char '\r' ∉ text) :
    normalizeLineEndings text = text := by
  induction text with
  | nil => rfl
  | cons symbol rest inductionHypothesis =>
      rw [List.mem_cons, not_or] at absent
      rw [normalizeLineEndings_cons (Ne.symm absent.1), inductionHypothesis absent.2]

end Text

namespace Utf8

/-- Turns every line ending into a newline. -/
def normalizeLineEndings : List UInt8 → List UInt8
  | [] => []
  | 0x0D :: 0x0A :: rest => 0x0A :: normalizeLineEndings rest
  | 0x0D :: rest => 0x0A :: normalizeLineEndings rest
  | byte :: rest => byte :: normalizeLineEndings rest

theorem normalizeLineEndings_crlf (rest : List UInt8) :
    normalizeLineEndings (0x0D :: 0x0A :: rest) = normalizeLineEndings (0x0A :: rest) := rfl

theorem normalizeLineEndings_return
    {rest : List UInt8}
    (alone : rest.head? ≠ some 0x0A) :
    normalizeLineEndings (0x0D :: rest) = 0x0A :: normalizeLineEndings rest := by
  rw [normalizeLineEndings]
  rintro others rfl
  exact alone rfl

theorem normalizeLineEndings_cons
    {byte : UInt8}
    (other : byte ≠ 0x0D)
    (rest : List UInt8) :
    normalizeLineEndings (byte :: rest) = byte :: normalizeLineEndings rest := by
  rw [normalizeLineEndings]
  · rintro others rfl
    contradiction
  · exact other

theorem exists_normalizeLineEndings_return (rest : List UInt8) :
    ∃ others, normalizeLineEndings (0x0D :: rest) = 0x0A :: others := by
  by_cases followed : rest.head? = some 0x0A
  · obtain ⟨others, rfl⟩ := List.head?_eq_some_iff.mp followed
    exact ⟨_, rfl⟩
  · exact ⟨_, normalizeLineEndings_return followed⟩

theorem normalizeLineEndings_append
    {front : List UInt8}
    (absent : 0x0D ∉ front)
    (rest : List UInt8) :
    normalizeLineEndings (front ++ rest) = front ++ normalizeLineEndings rest := by
  induction front with
  | nil => rfl
  | cons byte others inductionHypothesis =>
      rw [List.mem_cons, not_or] at absent
      rw [List.cons_append, normalizeLineEndings_cons (Ne.symm absent.1),
        inductionHypothesis absent.2, List.cons_append]

theorem return_not_mem_encodeChar
    {character : Char}
    (other : character ≠ '\r') :
    0x0D ∉ encodeChar character := by
  obtain ⟨lead, tail, spelled, _, continued⟩ := exists_encodeChar_eq character
  rw [spelled, List.mem_cons, not_or]
  constructor
  · rintro rfl
    have headed := head_of_encodeChar spelled []
    exact other (Head.character.inj headed).1.symm
  · intro member
    have continuation := continued 0x0D member
    contradiction

theorem head?_decode_eq_newline_iff (bytes : List UInt8) :
    (decode bytes).head? = some .newline ↔ bytes.head? = some 0x0A := by
  constructor
  · intro first
    obtain ⟨rest, decoded⟩ := List.head?_eq_some_iff.mp first
    rw [← encode_decode bytes, decoded]
    rfl
  · intro first
    obtain ⟨rest, rfl⟩ := List.head?_eq_some_iff.mp first
    exact congrArg List.head? (decode_encodeChar_append '\n' rest)

/-- Line endings become newlines, so all continuation bytes stay where they are. -/
theorem isPrefix_takeWhile_normalizeLineEndings (bytes : List UInt8) :
    (normalizeLineEndings bytes).takeWhile isContinuation <+: bytes := by
  induction bytes with
  | nil => simp [normalizeLineEndings]
  | cons byte rest inductionHypothesis =>
      by_cases isReturn : byte = 0x0D
      · obtain ⟨others, normalized⟩ := exists_normalizeLineEndings_return rest
        rw [isReturn, normalized, List.takeWhile_cons_of_neg (by decide)]
        exact List.nil_prefix
      · rw [normalizeLineEndings_cons isReturn, List.takeWhile_cons]
        split
        · exact (List.prefix_cons_inj byte).mpr inductionHypothesis
        · exact List.nil_prefix

/-- Line endings may be turned into newlines before or after decoding. -/
theorem decode_normalizeLineEndings (bytes : List UInt8) :
    decode (normalizeLineEndings bytes) = (decode bytes).normalizeLineEndings := by
  induction bytes using reading_induction with
  | nil => rfl
  | character character rest inductionHypothesis =>
      by_cases isReturn : character = '\r'
      · subst isReturn
        have spelled : encodeChar '\r' = [0x0D] := rfl
        rw [decode_encodeChar_append, spelled, List.singleton_append]
        by_cases followed : rest.head? = some 0x0A
        · obtain ⟨others, rfl⟩ := List.head?_eq_some_iff.mp followed
          have newline : decode (0x0A :: others) = .newline :: decode others :=
            decode_encodeChar_append '\n' others
          rw [normalizeLineEndings_crlf, inductionHypothesis, newline,
            Text.normalizeLineEndings_crlf]
        · have alone := mt (head?_decode_eq_newline_iff rest).mp followed
          rw [normalizeLineEndings_return followed, Text.normalizeLineEndings_return alone,
            ← inductionHypothesis]
          exact decode_encodeChar_append '\n' _
      · rw [normalizeLineEndings_append (return_not_mem_encodeChar isReturn),
          decode_encodeChar_append, decode_encodeChar_append, inductionHypothesis,
          Text.normalizeLineEndings_cons (by simpa using isReturn)]
  | malformed lead rest nothing inductionHypothesis =>
      have large := nothing.le_toNat
      have other : lead ≠ 0x0D := by
        rintro rfl
        contradiction
      have still : SpellsNothing lead (normalizeLineEndings rest) :=
        nothing.of_takeWhile (isPrefix_takeWhile_normalizeLineEndings rest)
      rw [normalizeLineEndings_cons other, decode_cons_of_spellsNothing still,
        decode_cons_of_spellsNothing nothing, inductionHypothesis,
        Text.normalizeLineEndings_cons (by simp)]

end Utf8
end SchemaCodegen
