import SchemaCodegen.Json.Value
import SchemaCodegen.Nesting
import SchemaCodegen.Text.Hexadecimal

/-!
# Reading JSON

The reader goes through the characters once.  Where it stops, it tells what is
wrong and at which line, column and offset.  Beyond the standard it accepts
`NaN`, `Infinity` and `-Infinity`, of equal keys the last one counts, and half of a
pair that an escape spells alone is kept as it is.
-/

namespace SchemaCodegen
namespace Json

/-- What is wrong with a JSON text. -/
inductive Complaint where
  /-- A value is missing. -/
  | value
  /-- A key is missing. -/
  | key
  /-- The colon behind a key is missing. -/
  | colon
  /-- A comma or a closing bracket is missing. -/
  | comma
  /-- Something follows the value. -/
  | extraData
  /-- A string is not closed. -/
  | openString
  /-- A string holds a control character. -/
  | controlCharacter
  /-- A backslash is followed by a character that names no escape. -/
  | escape
  /-- A numeric escape does not have four digits. -/
  | numericEscape
  /-- The text starts with a byte order mark. -/
  | byteOrderMark
deriving DecidableEq, Repr

/-- The wording of a complaint. -/
def Complaint.message : Complaint → String
  | .value => "Expecting value"
  | .key => "Expecting property name enclosed in double quotes"
  | .colon => "Expecting ':' delimiter"
  | .comma => "Expecting ',' delimiter"
  | .extraData => "Extra data"
  | .openString => "Unterminated string starting at"
  | .controlCharacter => "Invalid control character at"
  | .escape => "Invalid \\escape"
  | .numericEscape => "Invalid \\uXXXX escape"
  | .byteOrderMark => "Unexpected UTF-8 BOM (decode using utf-8-sig)"

/-- The values that hold other values. -/
inductive Container where
  /-- A list. -/
  | array
  /-- An object. -/
  | object
deriving DecidableEq, Repr

/-- The name of a container, as messages give it. -/
def Container.name : Container → String
  | .array => "array"
  | .object => "object"

/-- Where and why the reader stops. -/
inductive Stop where
  /-- The text is malformed at the offset. -/
  | malformed (complaint : Complaint) (offset : Nat)
  /-- A whole number has more digits than are read. -/
  | longInteger (digits : Nat)
  /-- A container lies too deep inside of others. -/
  | tooDeep (container : Container)
deriving DecidableEq, Repr

/-- A place in the text: its offset and the characters from there on. -/
structure Cursor where
  /-- The number of characters already read. -/
  offset : Nat
  /-- The characters not yet read. -/
  rest : List Char
deriving Repr

namespace Cursor

/-- Goes on by some characters. -/
def advance (cursor : Cursor) (count : Nat) : Cursor :=
  ⟨cursor.offset + count, cursor.rest.drop count⟩

/-- Four characters separate tokens. -/
def isBlank (character : Char) : Bool :=
  character == ' ' || character == '\t' || character == '\n' || character == '\r'

/-- Goes to the next token. -/
def skipBlanks (cursor : Cursor) : Cursor :=
  cursor.advance (cursor.rest.takeWhile isBlank).length

end Cursor

/-- The number that decimal digits spell. -/
def ofDigits (digits : List Char) : Nat :=
  digits.foldl (fun number digit => number * 10 + (digit.toNat - '0'.toNat)) 0

/-- Whole numbers with more digits are refused. -/
def digitLimit : Nat :=
  4300

/-- The digits before the point: a zero stands alone. -/
def wholeDigits : List Char → List Char
  | '0' :: _ => ['0']
  | characters => characters.takeWhile Char.isDigit

/-- The digits behind a point, which must be there for the point to count. -/
def fractionDigits : List Char → List Char
  | '.' :: characters => characters.takeWhile Char.isDigit
  | _ => []

/-- The exponent with the number of its characters, if digits follow its mark. -/
def exponentPart? : List Char → Option (Int × Nat)
  | [] => none
  | mark :: characters =>
      if mark = 'e' ∨ mark = 'E' then
        let sign := characters.takeWhile fun character => character == '+' || character == '-'
        let digits := (characters.drop sign.length).takeWhile Char.isDigit
        if 1 < sign.length ∨ digits.isEmpty then none
        else
          let magnitude : Int := ofDigits digits
          some (if sign = ['-'] then -magnitude else magnitude,
            1 + sign.length + digits.length)
      else none

/-- Reads a number. -/
def readNumber (cursor : Cursor) : Except Stop (Value × Cursor) :=
  let negative := cursor.rest.head? = some '-'
  let sign := if negative then 1 else 0
  let whole := wholeDigits (cursor.rest.drop sign)
  if whole.isEmpty then .error (.malformed .value cursor.offset)
  else
    let afterWhole := cursor.advance (sign + whole.length)
    let fraction := fractionDigits afterWhole.rest
    let afterFraction :=
      if fraction.isEmpty then afterWhole else afterWhole.advance (fraction.length + 1)
    match exponentPart? afterFraction.rest with
    | some (exponent, length) =>
        .ok (.float (Binary64.ofDecimal negative (ofDigits (whole ++ fraction))
          (exponent - fraction.length)), afterFraction.advance length)
    | none =>
        if fraction.isEmpty then
          if digitLimit < whole.length then .error (.longInteger whole.length)
          else
            let magnitude : Int := ofDigits whole
            .ok (.int (if negative then -magnitude else magnitude), afterWhole)
        else
          .ok (.float (Binary64.ofDecimal negative (ofDigits (whole ++ fraction))
            (-fraction.length)), afterFraction)

/-- The character that a short escape stands for. -/
def shortEscape? : Char → Option Char
  | '\x22' => some '\x22'
  | '\\' => some '\\'
  | '/' => some '/'
  | 'b' => some '\x08'
  | 'f' => some '\x0c'
  | 'n' => some '\n'
  | 'r' => some '\r'
  | 't' => some '\t'
  | _ => none

/-- The number that the first four characters spell in hexadecimal. -/
def fourDigits? (characters : List Char) : Option Nat :=
  (characters.take 4).foldlM
    (fun number digit => (Hexadecimal.digitValue? digit).map (number * 16 + ·)) 0

/-- Code units that start a pair. -/
def isHighSurrogate (unit : Nat) : Bool :=
  0xD800 ≤ unit && unit < 0xDC00

/-- Code units that end a pair. -/
def isLowSurrogate (unit : Nat) : Bool :=
  0xDC00 ≤ unit && unit < 0xE000

/-- The code point of a pair of code units. -/
def pairCode (high low : Nat) : Nat :=
  0x10000 + (high - 0xD800) * 0x400 + (low - 0xDC00)

/--
Reads a numeric escape whose mark stands at `offset`.  A string never ends with
its digits, since the closing quotation mark has to follow.  Two escapes that
form a pair are read together.
-/
def readNumericEscape (offset : Nat) (characters : List Char) : Except Stop (Symbol × Nat) :=
  if characters.length < 5 then .error (.malformed .numericEscape offset)
  else
    match fourDigits? characters with
    | none => .error (.malformed .numericEscape offset)
    | some unit =>
        match isHighSurrogate unit, characters.drop 4 with
        | true, '\\' :: 'u' :: following =>
            if following.length < 5 then .ok (.ofCode unit, 5)
            else
              match fourDigits? following with
              | none => .error (.malformed .numericEscape (offset + 6))
              | some low =>
                  if isLowSurrogate low then .ok (.ofCode (pairCode unit low), 11)
                  else .ok (.ofCode unit, 5)
        | _, _ => .ok (.ofCode unit, 5)

/--
Reads the escape behind a backslash at `offset`: its symbol, and how many
characters it takes behind the backslash.
-/
def readEscape (opening offset : Nat) : List Char → Except Stop (Symbol × Nat)
  | [] => .error (.malformed .openString opening)
  | 'u' :: characters => readNumericEscape (offset + 1) characters
  | character :: _ =>
      match shortEscape? character with
      | some value => .ok (.char value, 1)
      | none => .error (.malformed .escape offset)

/--
Reads the rest of the string that was opened at `opening`, behind the next
`consumed` characters, which belong to an escape.
-/
def readCharacters (opening : Nat) :
    (consumed offset : Nat) → List Char → Except Stop (Text × Cursor)
  | _, _, [] => .error (.malformed .openString opening)
  | consumed + 1, offset, _ :: rest => readCharacters opening consumed (offset + 1) rest
  | 0, offset, character :: rest =>
      if character = '\x22' then .ok ([], ⟨offset + 1, rest⟩)
      else if character = '\\' then
        match readEscape opening offset rest with
        | .error stop => .error stop
        | .ok (value, length) =>
            (readCharacters opening length (offset + 1) rest).map
              fun (text, cursor) => (value :: text, cursor)
      else if character.toNat < 0x20 then .error (.malformed .controlCharacter offset)
      else
        (readCharacters opening 0 (offset + 1) rest).map
          fun (text, cursor) => (.char character :: text, cursor)

/-- Reads a string whose opening quotation mark is the next character. -/
def readString (cursor : Cursor) : Except Stop (Text × Cursor) :=
  readCharacters cursor.offset 0 (cursor.offset + 1) (cursor.rest.drop 1)

/-- The words that stand for values. -/
def words : List (List Char × Value) :=
  [("null".toList, .null), ("true".toList, .bool true), ("false".toList, .bool false),
    ("NaN".toList, .float .nan), ("Infinity".toList, .float (.infinity false)),
    ("-Infinity".toList, .float (.infinity true))]

/-- Reads one of the words, or a number. -/
def readPlain (cursor : Cursor) : Except Stop (Value × Cursor) :=
  match words.find? fun word => word.1.isPrefixOf cursor.rest with
  | some (word, value) => .ok (value, cursor.advance word.length)
  | none => readNumber cursor

mutual

/-- Reads the value that starts at the cursor; room is left for some levels of containers. -/
def readValue : (fuel room : Nat) → Cursor → Except Stop (Value × Cursor)
  | 0, _, cursor => .error (.malformed .value cursor.offset)
  | fuel + 1, room, cursor =>
      match cursor.rest, room with
      | '\x22' :: _, _ =>
          (readString cursor).map fun (string, cursor) => (.string string, cursor)
      | '\x7b' :: _, 0 => .error (.tooDeep .object)
      | '\x7b' :: _, room + 1 =>
          let inside := (cursor.advance 1).skipBlanks
          if inside.rest.head? = some '\x7d' then .ok (.object [], inside.advance 1)
          else
            (readMembers fuel room [] inside).map
              fun (members, cursor) => (.object members, cursor)
      | '[' :: _, 0 => .error (.tooDeep .array)
      | '[' :: _, room + 1 =>
          let inside := (cursor.advance 1).skipBlanks
          if inside.rest.head? = some ']' then .ok (.array [], inside.advance 1)
          else
            (readItems fuel room inside).map fun (items, cursor) => (.array items, cursor)
      | _, _ => readPlain cursor

/-- Reads the items of a list up to its closing bracket. -/
def readItems : (fuel room : Nat) → Cursor → Except Stop (List Value × Cursor)
  | 0, _, cursor => .error (.malformed .value cursor.offset)
  | fuel + 1, room, cursor =>
      match readValue fuel room cursor with
      | .error stop => .error stop
      | .ok (item, cursor) =>
          let next := cursor.skipBlanks
          match next.rest with
          | ']' :: _ => .ok ([item], next.advance 1)
          | ',' :: _ =>
              (readItems fuel room (next.advance 1).skipBlanks).map
                fun (items, cursor) => (item :: items, cursor)
          | _ => .error (.malformed .comma next.offset)

/-- Reads the members of an object up to its closing brace, behind those already read. -/
def readMembers :
    (fuel room : Nat) → List (Text × Value) → Cursor →
      Except Stop (List (Text × Value) × Cursor)
  | 0, _, _, cursor => .error (.malformed .value cursor.offset)
  | fuel + 1, room, members, cursor =>
      if cursor.rest.head? ≠ some '\x22' then .error (.malformed .key cursor.offset)
      else
        match readString cursor with
        | .error stop => .error stop
        | .ok (key, cursor) =>
            let separator := cursor.skipBlanks
            if separator.rest.head? ≠ some ':' then
              .error (.malformed .colon separator.offset)
            else
              match readValue fuel room (separator.advance 1).skipBlanks with
              | .error stop => .error stop
              | .ok (value, cursor) =>
                  let members := putMember key value members
                  let next := cursor.skipBlanks
                  match next.rest with
                  | '\x7d' :: _ => .ok (members, next.advance 1)
                  | ',' :: _ => readMembers fuel room members (next.advance 1).skipBlanks
                  | _ => .error (.malformed .comma next.offset)

end

/-- Reads a whole text with at most some levels of containers. -/
def readAll (levels : Nat) (characters : List Char) : Except Stop Value :=
  if characters.head? = some '\uFEFF' then .error (.malformed .byteOrderMark 0)
  else
    let start := Cursor.skipBlanks ⟨0, characters⟩
    match readValue (2 * characters.length + 2) levels start with
    | .error stop => .error stop
    | .ok (value, cursor) =>
        let last := cursor.skipBlanks
        if last.rest.isEmpty then .ok value
        else .error (.malformed .extraData last.offset)

/-- Why a text is not read, with the place for the user. -/
inductive ReadFault where
  /-- The text is malformed. -/
  | malformed (complaint : Complaint) (line column offset : Nat)
  /-- A whole number has more digits than are read. -/
  | longInteger (digits : Nat)
  /-- A container lies too deep inside of others. -/
  | tooDeep (container : Container)
deriving DecidableEq, Repr

/-- Lines and columns are counted from one, offsets from zero. -/
def Stop.locate (characters : List Char) : Stop → ReadFault
  | .longInteger digits => .longInteger digits
  | .tooDeep container => .tooDeep container
  | .malformed complaint offset =>
      let before := characters.take offset
      let column := (before.reverse.takeWhile (· != '\n')).length + 1
      .malformed complaint (before.count '\n' + 1) column offset

/-- The message for the user. -/
def ReadFault.message : ReadFault → String
  | .malformed complaint line column offset =>
      complaint.message ++ ": line " ++ toString line ++ " column " ++ toString column ++
        " (char " ++ toString offset ++ ")"
  | .longInteger digits =>
      "Exceeds the limit (" ++ toString digitLimit ++
        " digits) for integer string conversion: value has " ++ toString digits ++
        " digits; use sys.set_int_max_str_digits() to increase the limit"
  | .tooDeep container =>
      "maximum recursion depth exceeded while decoding a JSON " ++ container.name ++
        " from a unicode string"

/-- The value that a text spells with at most some levels of containers. -/
def readWithin (levels : Nat) (characters : List Char) : Except ReadFault Value :=
  match readAll levels characters with
  | .ok value => .ok value
  | .error stop => .error (stop.locate characters)

/-- The value that a text spells. -/
def read (characters : List Char) : Except ReadFault Value :=
  readWithin Nesting.limit characters

end Json
end SchemaCodegen
