import SchemaCodegen.Proofs.Text.Insertion
import SchemaCodegen.Proofs.Text.Utf8

/-!
# Decoding and encoding

Every byte string is got back by encoding what it decodes to.  A text is got back by
decoding what it encodes to when its raw symbols start no character, and it stays so
when characters are put into it: no byte of theirs completes a sequence that was
broken before.
-/

namespace SchemaCodegen
namespace Utf8

/-- No character is spelled by a byte and the bytes behind it. -/
def SpellsNothing (lead : UInt8) (following : List UInt8) : Prop :=
  ∃ length reason, head lead following = .malformed length reason

theorem spellsNothing_iff
    {lead : UInt8}
    {following : List UInt8} :
    SpellsNothing lead following ↔
      ∀ character tail, encodeChar character = lead :: tail → ¬tail <+: following := by
  constructor
  · rintro ⟨length, reason, headed⟩ character tail spelled ⟨rest, rfl⟩
    simp [head_of_encodeChar spelled] at headed
  · intro nothing
    cases headed : head lead following with
    | malformed length reason => exact ⟨length, reason, headed⟩
    | character character length =>
        obtain ⟨tail, rest, rfl, spelled, _⟩ := encodeChar_of_head headed
        exact absurd (List.prefix_append tail rest) (nothing character tail spelled)

/-- A byte that spells nothing is no ASCII byte. -/
theorem SpellsNothing.le_toNat
    {lead : UInt8}
    {following : List UInt8}
    (nothing : SpellsNothing lead following) :
    0x80 ≤ lead.toNat := by
  obtain ⟨length, reason, headed⟩ := nothing
  rcases Nat.lt_or_ge lead.toNat 0x80 with small | large
  · simp [head, small] at headed
  · exact large

/-- Only the continuation bytes right behind a byte can make a character with it. -/
theorem SpellsNothing.of_takeWhile
    {lead : UInt8}
    {before after : List UInt8}
    (nothing : SpellsNothing lead before)
    (continuing : after.takeWhile isContinuation <+: before) :
    SpellsNothing lead after := by
  rw [spellsNothing_iff] at nothing ⊢
  rintro character tail spelled ⟨rest, rfl⟩
  obtain ⟨first, others, spelled', _, continued⟩ := exists_encodeChar_eq character
  obtain ⟨rfl, rfl⟩ := List.cons.inj (spelled.symm.trans spelled')
  apply nothing character tail spelled
  rw [List.takeWhile_append_of_pos continued] at continuing
  exact (List.prefix_append tail _).trans continuing

/-! ## Reading a byte string -/

theorem decodeFrom_eq (consumed : Nat) (bytes : List UInt8) :
    decodeFrom consumed bytes = decode (bytes.drop consumed) := by
  induction bytes generalizing consumed with
  | nil => cases consumed <;> rfl
  | cons lead rest inductionHypothesis =>
      cases consumed with
      | zero => rfl
      | succ consumed => exact inductionHypothesis consumed

@[simp] theorem decode_encodeChar_append (character : Char) (rest : List UInt8) :
    decode (encodeChar character ++ rest) = .char character :: decode rest := by
  obtain ⟨lead, tail, spelled, _, _⟩ := exists_encodeChar_eq character
  rw [spelled, List.cons_append, decode, decodeFrom, head_of_encodeChar spelled rest]
  simp [decodeFrom_eq]

theorem decode_cons_of_spellsNothing
    {lead : UInt8}
    {rest : List UInt8}
    (nothing : SpellsNothing lead rest) :
    decode (lead :: rest) = .ofByte lead :: decode rest := by
  obtain ⟨length, reason, headed⟩ := nothing
  rw [decode, decodeFrom, headed]
  rfl

/--
A byte string is empty, or starts with the bytes of a character, or with a byte that
spells nothing.
-/
theorem reading_induction
    {motive : List UInt8 → Prop}
    (nil : motive [])
    (character : ∀ character rest, motive rest → motive (encodeChar character ++ rest))
    (malformed : ∀ lead rest, SpellsNothing lead rest → motive rest → motive (lead :: rest))
    (bytes : List UInt8) :
    motive bytes := by
  induction size : bytes.length using Nat.strongRecOn generalizing bytes with
  | _ size inductionHypothesis =>
      subst size
      cases bytes with
      | nil => exact nil
      | cons lead rest =>
          cases headed : head lead rest with
          | malformed length reason =>
              exact malformed lead rest ⟨length, reason, headed⟩
                (inductionHypothesis _ (by simp) rest rfl)
          | character value length =>
              obtain ⟨tail, remaining, rfl, spelled, _⟩ := encodeChar_of_head headed
              rw [← List.cons_append, ← spelled]
              refine character value remaining (inductionHypothesis _ ?_ remaining rfl)
              simp only [List.length_cons, List.length_append]
              omega

@[simp] theorem encode_nil : encode [] = [] := rfl

@[simp] theorem encode_cons (symbol : Symbol) (rest : Text) :
    encode (symbol :: rest) = encodeSymbol symbol ++ encode rest := rfl

@[simp] theorem encode_append (first second : Text) :
    encode (first ++ second) = encode first ++ encode second := by
  simp [encode]

@[simp] theorem encode_eq_nil_iff {text : Text} : encode text = [] ↔ text = [] := by
  cases text with
  | nil => simp
  | cons symbol rest =>
      have spells : encodeSymbol symbol ≠ [] := by
        cases symbol with
        | char character =>
            obtain ⟨lead, tail, spelled, _⟩ := exists_encodeChar_eq character
            simp [encodeSymbol, spelled]
        | raw offset => simp [encodeSymbol]
        | half index => simp [encodeSymbol]
      simp [spells]

theorem code_half_bounds (index : Fin 1920) :
    Symbol.firstHalf ≤ (Symbol.half index).code ∧ (Symbol.half index).code < 0xE000 := by
  have bound := index.isLt
  have first : Symbol.firstHalf = 0xD800 := rfl
  have raw : Symbol.firstRaw = 0xDC80 := rfl
  rw [Symbol.code]
  by_cases before : Symbol.firstHalf + index.val < Symbol.firstRaw
  · rw [if_pos before]
    omega
  · rw [if_neg before]
    omega

/-- A byte below those of longer sequences is only spelled by its own character. -/
theorem exists_eq_cons_of_encode
    {text : Text}
    {lead : UInt8}
    {rest : List UInt8}
    (small : lead.toNat < 0x80)
    (spelled : encode text = lead :: rest) :
    ∃ behind, text = .char (Char.ofNat lead.toNat) :: behind ∧ encode behind = rest := by
  cases text with
  | nil => contradiction
  | cons symbol behind =>
      rw [encode_cons] at spelled
      cases symbol with
      | char character =>
          obtain ⟨first, tail, spells, _⟩ := exists_encodeChar_eq character
          rw [encodeSymbol, spells, List.cons_append, List.cons.injEq] at spelled
          obtain ⟨rfl, rfl⟩ := spelled
          have headed := head_of_encodeChar spells []
          simp only [head, small, if_true, Head.character.injEq] at headed
          obtain ⟨same, lengths⟩ := headed
          have single : tail = [] := List.length_eq_zero_iff.mp (by omega)
          exact ⟨behind, by rw [same], by rw [single, List.nil_append]⟩
      | raw offset =>
          have bound := offset.isLt
          simp only [encodeSymbol, List.singleton_append, List.cons.injEq] at spelled
          rw [← spelled.1, toNat_byte (by omega)] at small
          omega
      | half index =>
          have bounds := code_half_bounds index
          have first : Symbol.firstHalf = 0xD800 := rfl
          simp only [encodeSymbol, List.cons_append, List.cons.injEq] at spelled
          rw [← spelled.1, toNat_byte (by omega)] at small
          omega

theorem ofByte_byte (offset : Fin 128) : Symbol.ofByte (byte (128 + offset.val)) = .raw offset := by
  rw [Symbol.ofByte, toNat_byte (by omega), Symbol.raw.injEq]
  apply Fin.ext
  simp

theorem encodeSymbol_ofByte
    {lead : UInt8}
    (large : 0x80 ≤ lead.toNat) :
    encodeSymbol (.ofByte lead) = [lead] := by
  have bound := lead.toNat_lt
  rw [Symbol.ofByte, encodeSymbol, Fin.ofNat, byte_eq lead (by dsimp only; omega)]

/-- No byte is lost or changed by decoding. -/
@[simp] theorem encode_decode (bytes : List UInt8) : encode (decode bytes) = bytes := by
  induction bytes using reading_induction with
  | nil => rfl
  | character character rest inductionHypothesis =>
      rw [decode_encodeChar_append, encode_cons, inductionHypothesis]
      rfl
  | malformed lead rest nothing inductionHypothesis =>
      rw [decode_cons_of_spellsNothing nothing, encode_cons, inductionHypothesis,
        encodeSymbol_ofByte nothing.le_toNat]
      rfl

/-! ## Texts that can be read back -/

/-- A text whose raw symbols start no character. -/
inductive Stable : Text → Prop
  /-- There is nothing in the text. -/
  | nil : Stable []
  /-- A character is read back whatever follows it. -/
  | char {rest : Text} (character : Char) :
      Stable rest → Stable (.char character :: rest)
  /-- A raw symbol is read back where its byte spells nothing. -/
  | raw {rest : Text} (offset : Fin 128) :
      SpellsNothing (byte (128 + offset.val)) (encode rest) → Stable rest →
        Stable (.raw offset :: rest)

theorem Stable.decode_encode
    {text : Text}
    (stable : Stable text) :
    decode (encode text) = text := by
  induction stable with
  | nil => rfl
  | char character _ inductionHypothesis =>
      rw [encode_cons, encodeSymbol, decode_encodeChar_append, inductionHypothesis]
  | raw offset nothing _ inductionHypothesis =>
      rw [encode_cons, encodeSymbol, List.singleton_append,
        decode_cons_of_spellsNothing nothing, inductionHypothesis, ofByte_byte]

theorem stable_decode (bytes : List UInt8) : Stable (decode bytes) := by
  induction bytes using reading_induction with
  | nil => exact .nil
  | character character rest inductionHypothesis =>
      rw [decode_encodeChar_append]
      exact .char character inductionHypothesis
  | malformed lead rest nothing inductionHypothesis =>
      rw [decode_cons_of_spellsNothing nothing]
      refine .raw _ ?_ inductionHypothesis
      have spelled := encodeSymbol_ofByte nothing.le_toNat
      rw [Symbol.ofByte, encodeSymbol, List.cons.injEq] at spelled
      rwa [spelled.1, encode_decode]

/-- Characters can be put anywhere into a text: their lead bytes continue nothing. -/
theorem Stable.insert
    {before after : Text}
    (stable : Stable (before ++ after))
    (characters : List Char) :
    Stable (before ++ characters.map .char ++ after) := by
  induction before with
  | nil =>
      induction characters with
      | nil => exact stable
      | cons character rest inductionHypothesis => exact .char character inductionHypothesis
  | cons symbol rest inductionHypothesis =>
      cases stable with
      | char character stable => exact .char character (inductionHypothesis stable)
      | raw offset nothing stable =>
          refine .raw offset ?_ (inductionHypothesis stable)
          cases characters with
          | nil => simpa using nothing
          | cons character others =>
              apply nothing.of_takeWhile
              obtain ⟨lead, tail, spelled, ends, _⟩ := exists_encodeChar_eq character
              simp only [List.append_eq, List.map_cons, List.append_assoc, List.cons_append,
                encode_append, encode_cons, encodeSymbol, spelled]
              rw [List.takeWhile_append]
              split
              · rw [List.takeWhile_cons_of_neg (by simp [ends]), List.append_nil]
                exact List.prefix_append _ _
              · exact (List.takeWhile_prefix _).trans (List.prefix_append _ _)

theorem Stable.of_insertions
    {characters : List Char}
    {text new : Text}
    (stable : Stable text)
    (insertions : Insertions (characters.map .char) text new) :
    Stable new := by
  induction insertions with
  | none => exact stable
  | insert _ inductionHypothesis => exact inductionHypothesis.insert characters

theorem encode_map_char (characters : List Char) :
    encode (characters.map .char) = characters.flatMap encodeChar := by
  rw [encode, List.flatMap_map]
  rfl

/-- Characters that are inserted into a text are inserted into its bytes. -/
theorem insertions_encode
    {characters : List Char}
    {text new : Text}
    (insertions : Insertions (characters.map .char) text new) :
    Insertions (characters.flatMap encodeChar) (encode text) (encode new) := by
  rw [← encode_map_char]
  exact insertions.flatMap encodeSymbol

end Utf8
end SchemaCodegen
