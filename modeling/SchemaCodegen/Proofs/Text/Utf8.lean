import SchemaCodegen.Text.Utf8

/-!
# Characters as bytes

The head of a byte string is a character exactly where the bytes of that character
stand.  They are those of the standard encoding: a lead byte that continues nothing,
and continuation bytes behind it.
-/

namespace SchemaCodegen
namespace Utf8

/-- Code points end where Unicode does and leave out the surrogates. -/
theorem toNat_valid (character : Char) :
    character.toNat < 0xD800 ∨ 0xDFFF < character.toNat ∧ character.toNat < 0x110000 :=
  character.valid

theorem toNat_ofNat_of_valid
    {code : Nat}
    (valid : code < 0xD800 ∨ 0xDFFF < code ∧ code < 0x110000) :
    (Char.ofNat code).toNat = code := by
  rw [Char.ofNat, dif_pos valid]
  rfl

theorem toNat_byte {value : Nat} (small : value < 256) : (byte value).toNat = value := by
  rw [byte, UInt8.toNat_ofNat']
  exact Nat.mod_eq_of_lt small

theorem byte_eq
    (other : UInt8)
    {value : Nat}
    (same : value = other.toNat) :
    byte value = other := by
  rw [byte, same, UInt8.ofNat_toNat]

theorem isContinuation_iff (byte : UInt8) :
    isContinuation byte = true ↔ 0x80 ≤ byte.toNat ∧ byte.toNat < 0xC0 := by
  simp only [isContinuation, Bool.and_eq_true, decide_eq_true_eq]
  omega

theorem not_isContinuation_iff (byte : UInt8) :
    isContinuation byte = false ↔ byte.toNat < 0x80 ∨ 0xC0 ≤ byte.toNat := by
  rw [← Bool.not_eq_true, isContinuation_iff]
  omega

/-- A second byte is a continuation byte in a range that depends on the lead byte. -/
theorem isSecond_iff (lead : Nat) (byte : UInt8) :
    isSecond lead byte = true ↔
      (0x80 ≤ byte.toNat ∧ byte.toNat < 0xC0) ∧
        (lead = 0xE0 → 0xA0 ≤ byte.toNat) ∧ (lead = 0xED → byte.toNat < 0xA0) ∧
        (lead = 0xF0 → 0x90 ≤ byte.toNat) ∧ (lead = 0xF4 → byte.toNat < 0x90) := by
  rw [isSecond, Bool.and_eq_true, isContinuation_iff]
  refine and_congr_right fun _ => ?_
  by_cases two : lead = 0xE0
  · simp [two]
  · by_cases surrogates : lead = 0xED
    · simp [surrogates]
      omega
    · by_cases three : lead = 0xF0
      · simp [three]
      · by_cases beyond : lead = 0xF4
        · simp [beyond]
          omega
        · simp [two, surrogates, three, beyond]

theorem toNat_continuation (code : Nat) :
    (byte (0x80 + code % 64)).toNat = 0x80 + code % 64 :=
  toNat_byte (by omega)

theorem isContinuation_continuation (code : Nat) :
    isContinuation (byte (0x80 + code % 64)) = true := by
  rw [isContinuation_iff, toNat_continuation]
  omega

theorem payload_continuation (code : Nat) : payload (byte (0x80 + code % 64)) = code % 64 := by
  have value := toNat_continuation code
  unfold payload
  omega

/-- The bytes of a character are read as that character, whatever follows them. -/
theorem head_of_encodeChar
    {character : Char}
    {lead : UInt8}
    {tail : List UInt8}
    (spelled : encodeChar character = lead :: tail)
    (rest : List UInt8) :
    head lead (tail ++ rest) = .character character (tail.length + 1) := by
  have valid := toNat_valid character
  have same : Char.ofNat character.toNat = character := Char.ofNat_toNat character
  unfold encodeChar at spelled
  unfold head
  generalize character.toNat = code at valid same spelled
  dsimp only at spelled ⊢
  by_cases one : code < 0x80
  · rw [if_pos one] at spelled
    obtain ⟨rfl, rfl⟩ := List.cons.inj spelled
    rw [toNat_byte (by omega), if_pos one, same]
    rfl
  · rw [if_neg one] at spelled
    by_cases two : code < 0x800
    · rw [if_pos two] at spelled
      obtain ⟨rfl, rfl⟩ := List.cons.inj spelled
      have continued : isSecond (0xC0 + code / 64) (byte (0x80 + code % 64)) = true := by
        rw [isSecond_iff, toNat_continuation]
        omega
      have joined : (0xC0 + code / 64 - 0xC0) * 64 + code % 64 = code := by omega
      rw [toNat_byte (by omega), if_neg (by omega), if_neg (by simp; omega),
        if_pos (by omega)]
      simp only [List.cons_append, continued, if_true, payload_continuation, joined, same]
      rfl
    · rw [if_neg two] at spelled
      by_cases three : code < 0x10000
      · rw [if_pos three] at spelled
        obtain ⟨rfl, rfl⟩ := List.cons.inj spelled
        have continued :
            isSecond (0xE0 + code / 4096) (byte (0x80 + code / 64 % 64)) = true := by
          rw [isSecond_iff, toNat_continuation]
          omega
        have joined :
            (0xE0 + code / 4096 - 0xE0) * 4096 + code / 64 % 64 * 64 + code % 64 = code := by
          omega
        rw [toNat_byte (by omega), if_neg (by omega), if_neg (by simp; omega),
          if_neg (by omega), if_pos (by omega)]
        simp only [List.cons_append, continued, isContinuation_continuation, if_true,
          payload_continuation, joined, same]
        rfl
      · rw [if_neg three] at spelled
        obtain ⟨rfl, rfl⟩ := List.cons.inj spelled
        have continued :
            isSecond (0xF0 + code / 262144) (byte (0x80 + code / 4096 % 64)) = true := by
          rw [isSecond_iff, toNat_continuation]
          omega
        have joined :
            (0xF0 + code / 262144 - 0xF0) * 262144 + code / 4096 % 64 * 4096 +
              code / 64 % 64 * 64 + code % 64 = code := by
          omega
        rw [toNat_byte (by omega), if_neg (by omega), if_neg (by simp; omega),
          if_neg (by omega), if_neg (by omega)]
        simp only [List.cons_append, continued, isContinuation_continuation, if_true,
          payload_continuation, joined, same]
        rfl

/-- A character is only read where its bytes stand. -/
theorem encodeChar_of_head
    {lead : UInt8}
    {following : List UInt8}
    {character : Char}
    {length : Nat}
    (headed : head lead following = .character character length) :
    ∃ tail rest, following = tail ++ rest ∧ encodeChar character = lead :: tail ∧
      length = tail.length + 1 := by
  have bound := lead.toNat_lt
  revert headed
  fun_cases head lead following with
  | case1 following first one =>
      intro headed
      obtain ⟨rfl, rfl⟩ := Head.character.inj headed
      refine ⟨[], following, rfl, ?_, rfl⟩
      rw [encodeChar, toNat_ofNat_of_valid (by omega), if_pos one, byte_eq lead rfl]
  | case4 first one valid two second rest continued =>
      intro headed
      obtain ⟨rfl, rfl⟩ := Head.character.inj headed
      refine ⟨[second], rest, rfl, ?_, rfl⟩
      simp only [Bool.or_eq_true, decide_eq_true_eq, not_or] at valid
      rw [isSecond_iff] at continued
      unfold payload
      rw [encodeChar, toNat_ofNat_of_valid (by omega), if_neg (by omega),
        if_pos (by omega), byte_eq lead (by omega), byte_eq second (by omega)]
  | case8 first one valid two three second continued third rest further =>
      intro headed
      obtain ⟨rfl, rfl⟩ := Head.character.inj headed
      refine ⟨[second, third], rest, rfl, ?_, rfl⟩
      simp only [Bool.or_eq_true, decide_eq_true_eq, not_or] at valid
      rw [isSecond_iff] at continued
      rw [isContinuation_iff] at further
      unfold payload
      rw [encodeChar, toNat_ofNat_of_valid (by omega), if_neg (by omega),
        if_neg (by omega), if_pos (by omega), byte_eq lead (by omega),
        byte_eq second (by omega), byte_eq third (by omega)]
  | case14 first one valid two three second continued third further fourth rest last =>
      intro headed
      obtain ⟨rfl, rfl⟩ := Head.character.inj headed
      refine ⟨[second, third, fourth], rest, rfl, ?_, rfl⟩
      simp only [Bool.or_eq_true, decide_eq_true_eq, not_or] at valid
      rw [isSecond_iff] at continued
      rw [isContinuation_iff] at further last
      unfold payload
      rw [encodeChar, toNat_ofNat_of_valid (by omega), if_neg (by omega),
        if_neg (by omega), if_neg (by omega), byte_eq lead (by omega),
        byte_eq second (by omega), byte_eq third (by omega), byte_eq fourth (by omega)]
  | _ =>
      intro headed
      contradiction

/-- A character has one lead byte, and all its other bytes are continuation bytes. -/
theorem exists_encodeChar_eq (character : Char) :
    ∃ lead tail, encodeChar character = lead :: tail ∧ isContinuation lead = false ∧
      ∀ byte ∈ tail, isContinuation byte = true := by
  have valid := toNat_valid character
  unfold encodeChar
  generalize character.toNat = code at valid
  dsimp only
  by_cases one : code < 0x80
  · rw [if_pos one]
    refine ⟨_, _, rfl, ?_, by simp⟩
    rw [not_isContinuation_iff, toNat_byte (by omega)]
    omega
  · rw [if_neg one]
    by_cases two : code < 0x800
    · rw [if_pos two]
      refine ⟨_, _, rfl, ?_, by simp [isContinuation_continuation]⟩
      rw [not_isContinuation_iff, toNat_byte (by omega)]
      omega
    · rw [if_neg two]
      by_cases three : code < 0x10000
      · rw [if_pos three]
        refine ⟨_, _, rfl, ?_, by simp [isContinuation_continuation]⟩
        rw [not_isContinuation_iff, toNat_byte (by omega)]
        omega
      · rw [if_neg three]
        refine ⟨_, _, rfl, ?_, by simp [isContinuation_continuation]⟩
        rw [not_isContinuation_iff, toNat_byte (by omega)]
        omega

/-- The bytes of a character are those of the standard encoding. -/
theorem encodeChar_eq (character : Char) :
    encodeChar character = String.utf8EncodeChar character := by
  have valid := toNat_valid character
  have code_eq : character.val.toNat = character.toNat := rfl
  unfold encodeChar String.utf8EncodeChar byte
  rw [code_eq]
  generalize character.toNat = code at valid
  simp only [Nat.add_comm]
  by_cases one : code < 0x80
  · rw [if_pos one, if_pos (show code ≤ 0x7F by omega)]
  · rw [if_neg one, if_neg (show ¬code ≤ 0x7F by omega)]
    by_cases two : code < 0x800
    · rw [if_pos two, if_pos (show code ≤ 0x7FF by omega),
        Nat.mod_eq_of_lt (show code / 64 < 0x20 by omega)]
    · rw [if_neg two, if_neg (show ¬code ≤ 0x7FF by omega)]
      by_cases three : code < 0x10000
      · rw [if_pos three, if_pos (show code ≤ 0xFFFF by omega),
          Nat.mod_eq_of_lt (show code / 4096 < 0x10 by omega)]
      · rw [if_neg three, if_neg (show ¬code ≤ 0xFFFF by omega),
          Nat.mod_eq_of_lt (show code / 262144 < 0x08 by omega)]

end Utf8
end SchemaCodegen
