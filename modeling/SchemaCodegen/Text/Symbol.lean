/-!
# Symbols

Text is a sequence of symbols.  A symbol is a Unicode character or half of a surrogate
pair that stands alone.  Some of the halves stand for the bytes that belong to no valid
UTF-8 sequence, so every byte string can be read as text and written back unchanged; the
others are spelled by no byte and only come from the escapes of a settings file.
-/

namespace SchemaCodegen

/-- One unit of text. -/
inductive Symbol where
  /-- A Unicode character. -/
  | char (character : Char)
  /-- The byte `128 + offset`, found outside every valid UTF-8 sequence. -/
  | raw (offset : Fin 128)
  /-- Any other half of a pair, counted from the first one on. -/
  | half (index : Fin 1920)
deriving DecidableEq, Repr

/-- A sequence of symbols. -/
abbrev Text := List Symbol

namespace Symbol

/-- The ASCII letters are the only letters of a type name. -/
def isLetter : Symbol → Bool
  | .char character => character.isAlpha
  | .raw _ | .half _ => false

/-- Identifiers are made of ASCII letters, ASCII digits and the underscore. -/
def isIdentifier : Symbol → Bool
  | .char character => character.isAlphanum || character == '_'
  | .raw _ | .half _ => false

/-- The symbol that separates lines. -/
def newline : Symbol :=
  .char '\n'

/-- The first code point that is half of a pair. -/
def firstHalf : Nat :=
  0xD800

/-- The code point of the half that stands for the byte `128`. -/
def firstRaw : Nat :=
  0xDC80

/-- The code point of a symbol. -/
def code : Symbol → Nat
  | .char character => character.toNat
  | .raw offset => firstRaw + offset.val
  | .half index =>
      if firstHalf + index.val < firstRaw then firstHalf + index.val
      else firstHalf + 128 + index.val

/-- The symbol that stands for a byte outside of ASCII. -/
def ofByte (byte : UInt8) : Symbol :=
  .raw (Fin.ofNat 128 byte.toNat)

@[simp] theorem ofByte_ne_char (byte : UInt8) (character : Char) :
    ofByte byte ≠ .char character := nofun

/-- The symbol of a code point below the last one. -/
def ofCode (code : Nat) : Symbol :=
  if code < firstHalf then .char (Char.ofNat code)
  else if code < firstRaw then .half (Fin.ofNat 1920 (code - firstHalf))
  else if code < firstRaw + 128 then .ofByte (UInt8.ofNat (128 + (code - firstRaw)))
  else if code < 0xE000 then .half (Fin.ofNat 1920 (code - firstHalf - 128))
  else .char (Char.ofNat code)

/-- A letter may stand in an identifier. -/
theorem isIdentifier_of_isLetter
    {symbol : Symbol}
    (letter : symbol.isLetter = true) :
    symbol.isIdentifier = true := by
  cases symbol with
  | char character =>
      simp only [isLetter] at letter
      simp [isIdentifier, Char.isAlphanum, letter]
  | raw offset => simp [isLetter] at letter
  | half index => simp [isLetter] at letter

end Symbol

namespace Text

/-- The text of a string, one symbol for each character. -/
def ofString (string : String) : Text :=
  string.toList.map .char

instance : Coe String Text :=
  ⟨ofString⟩

/-- The characters of a text that holds no half of a pair. -/
def characters? : Text → Option (List Char)
  | [] => some []
  | .char character :: rest => (characters? rest).map (character :: ·)
  | .raw _ :: _ | .half _ :: _ => none

/-- The string of a text that holds no half of a pair. -/
def toString? (text : Text) : Option String :=
  (characters? text).map String.ofList

/-- Text made from characters gives the same characters back. -/
@[simp]
theorem characters?_map_char (characters : List Char) :
    characters? (characters.map Symbol.char) = some characters := by
  induction characters with
  | nil => rfl
  | cons character rest hypothesis => simp [characters?, hypothesis]

/-- Text made from a string gives the same string back. -/
@[simp]
theorem toString?_ofString (string : String) :
    toString? (ofString string) = some string := by
  simp [toString?, ofString]

/-- Different strings are different texts. -/
theorem ofString_injective : Function.Injective ofString := by
  intro first second same
  have back := congrArg toString? same
  simpa using back

@[simp]
theorem ofString_inj {first second : String} :
    ofString first = ofString second ↔ first = second :=
  ⟨fun same => ofString_injective same, congrArg ofString⟩

@[simp]
theorem ofString_beq_ofString (first second : String) :
    (ofString first == ofString second) = (first == second) := by
  rw [Bool.eq_iff_iff, beq_iff_eq, beq_iff_eq, ofString_inj]

end Text
end SchemaCodegen
