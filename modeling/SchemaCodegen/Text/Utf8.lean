import SchemaCodegen.Text.Hexadecimal
import SchemaCodegen.Text.Symbol

/-!
# UTF-8

Bytes are decoded from the left.  Where no valid sequence starts, the faulty
byte is either kept as a raw symbol or reported with its position, according to
the policy; encoding follows the same policy for raw symbols and always reports
the halves that stand for no byte.
-/

namespace SchemaCodegen
namespace Utf8

/-- What is done with bytes that spell no character. -/
inductive Policy where
  /-- They are reported as an error. -/
  | strict
  /-- They are kept as raw symbols and written back as the same bytes. -/
  | preserve
deriving DecidableEq, Repr

/-- Why some bytes spell no character. -/
inductive Reason where
  /-- No sequence starts with the byte. -/
  | invalidStart
  /-- A sequence starts, but the byte after its valid part cannot continue it. -/
  | invalidContinuation
  /-- A sequence starts, but the bytes end before it does. -/
  | unexpectedEnd
deriving DecidableEq, Repr

/-- The wording of a reason. -/
def Reason.message : Reason → String
  | .invalidStart => "invalid start byte"
  | .invalidContinuation => "invalid continuation byte"
  | .unexpectedEnd => "unexpected end of data"

/-- What the bytes at the head of a byte string spell. -/
inductive Head where
  /-- A character, spelled by the given number of bytes. -/
  | character (value : Char) (length : Nat)
  /-- The given number of bytes start a sequence that is not completed. -/
  | malformed (length : Nat) (reason : Reason)
deriving DecidableEq, Repr

/-- The bytes that may follow the first byte of a longer sequence. -/
def isContinuation (byte : UInt8) : Bool :=
  0x80 ≤ byte.toNat && byte.toNat ≤ 0xBF

/--
The second byte is limited further after four lead bytes: no overlong spelling,
no surrogate and nothing beyond the last code point is accepted.
-/
def isSecond (lead : Nat) (byte : UInt8) : Bool :=
  isContinuation byte &&
    (if lead = 0xE0 then 0xA0 ≤ byte.toNat
    else if lead = 0xED then byte.toNat ≤ 0x9F
    else if lead = 0xF0 then 0x90 ≤ byte.toNat
    else if lead = 0xF4 then byte.toNat ≤ 0x8F
    else true)

/-- The six bits that a continuation byte carries. -/
def payload (byte : UInt8) : Nat :=
  byte.toNat - 0x80

/-- The head of the bytes `lead :: following`. -/
def head (lead : UInt8) (following : List UInt8) : Head :=
  let first := lead.toNat
  if first < 0x80 then
    .character (Char.ofNat first) 1
  else if first < 0xC2 || 0xF4 < first then
    .malformed 1 .invalidStart
  else if first < 0xE0 then
    match following with
    | [] => .malformed 1 .unexpectedEnd
    | second :: _ =>
        if isSecond first second then
          .character (Char.ofNat ((first - 0xC0) * 64 + payload second)) 2
        else .malformed 1 .invalidContinuation
  else if first < 0xF0 then
    match following with
    | [] => .malformed 1 .unexpectedEnd
    | second :: rest =>
        if isSecond first second then
          match rest with
          | [] => .malformed 2 .unexpectedEnd
          | third :: _ =>
              if isContinuation third then
                .character
                  (Char.ofNat
                    ((first - 0xE0) * 4096 + payload second * 64 + payload third))
                  3
              else .malformed 2 .invalidContinuation
        else .malformed 1 .invalidContinuation
  else
    match following with
    | [] => .malformed 1 .unexpectedEnd
    | second :: rest =>
        if isSecond first second then
          match rest with
          | [] => .malformed 2 .unexpectedEnd
          | third :: rest =>
              if isContinuation third then
                match rest with
                | [] => .malformed 3 .unexpectedEnd
                | fourth :: _ =>
                    if isContinuation fourth then
                      .character
                        (Char.ofNat
                          ((first - 0xF0) * 262144 + payload second * 4096 +
                            payload third * 64 + payload fourth))
                        4
                    else .malformed 3 .invalidContinuation
              else .malformed 2 .invalidContinuation
        else .malformed 1 .invalidContinuation

/-- Decodes the bytes behind the next `consumed` ones, keeping what is malformed. -/
def decodeFrom : (consumed : Nat) → List UInt8 → Text
  | _, [] => []
  | consumed + 1, _ :: rest => decodeFrom consumed rest
  | 0, lead :: rest =>
      match head lead rest with
      | .character value length => .char value :: decodeFrom (length - 1) rest
      | .malformed _ _ => .ofByte lead :: decodeFrom 0 rest

/-- The text of a byte string, in which every byte that spells nothing is raw. -/
def decode (bytes : List UInt8) : Text :=
  decodeFrom 0 bytes

/-- Decodes the bytes behind the next `consumed` ones, replacing each malformed part. -/
def decodeReplacedFrom : (consumed : Nat) → List UInt8 → Text
  | _, [] => []
  | consumed + 1, _ :: rest => decodeReplacedFrom consumed rest
  | 0, lead :: rest =>
      match head lead rest with
      | .character value length => .char value :: decodeReplacedFrom (length - 1) rest
      | .malformed length _ => .char '\uFFFD' :: decodeReplacedFrom (length - 1) rest

/-- The first malformed part of a byte string. -/
structure DecodeFault where
  /-- The first byte of the malformed part. -/
  lead : UInt8
  /-- Its position in the byte string. -/
  position : Nat
  /-- The number of bytes in the malformed part. -/
  length : Nat
  /-- What is wrong with it. -/
  reason : Reason
deriving DecidableEq, Repr

/-- The message for the user. -/
def DecodeFault.message (fault : DecodeFault) : String :=
  let place :=
    if fault.length = 1 then
      "byte 0x" ++ String.ofList (Hexadecimal.numeral 2 fault.lead.toNat) ++
        " in position " ++ toString fault.position
    else
      "bytes in position " ++ toString fault.position ++ "-" ++
        toString (fault.position + fault.length - 1)
  "'utf-8' codec can't decode " ++ place ++ ": " ++ fault.reason.message

/-- Looks for a malformed part behind the next `consumed` bytes. -/
def faultFrom : (position consumed : Nat) → List UInt8 → Option DecodeFault
  | _, _, [] => none
  | position, consumed + 1, _ :: rest => faultFrom (position + 1) consumed rest
  | position, 0, lead :: rest =>
      match head lead rest with
      | .character _ length => faultFrom (position + 1) (length - 1) rest
      | .malformed length reason => some ⟨lead, position, length, reason⟩

/-- Decodes under a policy. -/
def decodeWith : Policy → List UInt8 → Except DecodeFault Text
  | .preserve, bytes => .ok (decode bytes)
  | .strict, bytes =>
      match faultFrom 0 0 bytes with
      | none => .ok (decode bytes)
      | some fault => .error fault

/-- The byte with the given value. -/
def byte (value : Nat) : UInt8 :=
  UInt8.ofNat value

/-- The bytes that spell a character. -/
def encodeChar (character : Char) : List UInt8 :=
  let code := character.toNat
  if code < 0x80 then
    [byte code]
  else if code < 0x800 then
    [byte (0xC0 + code / 64), byte (0x80 + code % 64)]
  else if code < 0x10000 then
    [byte (0xE0 + code / 4096), byte (0x80 + code / 64 % 64), byte (0x80 + code % 64)]
  else
    [byte (0xF0 + code / 262144), byte (0x80 + code / 4096 % 64),
      byte (0x80 + code / 64 % 64), byte (0x80 + code % 64)]

/--
The bytes of a symbol; a raw symbol is the byte it was read from.  The bytes of any
other half are those that its code point would have, which no policy lets pass.
-/
def encodeSymbol : Symbol → List UInt8
  | .char character => encodeChar character
  | .raw offset => [byte (128 + offset.val)]
  | .half index =>
      let code := (Symbol.half index).code
      [byte (0xE0 + code / 4096), byte (0x80 + code / 64 % 64), byte (0x80 + code % 64)]

/-- The bytes of a text. -/
def encode (text : Text) : List UInt8 :=
  text.flatMap encodeSymbol

/-- Recognises the halves of pairs, those that stand for bytes included. -/
def isSurrogate : Symbol → Bool
  | .raw _ | .half _ => true
  | .char _ => false

/-- Recognises the halves of pairs that stand for no byte. -/
def isHalf : Symbol → Bool
  | .half _ => true
  | .char _ | .raw _ => false

/-- The symbols that are not encoded under a policy. -/
def Policy.refuses : Policy → Symbol → Bool
  | .strict => isSurrogate
  | .preserve => isHalf

/-- The first symbols of a text that are not encoded. -/
structure EncodeFault where
  /-- The first of the symbols. -/
  symbol : Symbol
  /-- Its position in the text. -/
  position : Nat
  /-- The number of halves that stand from there on without a gap. -/
  length : Nat
deriving DecidableEq, Repr

/-- The message for the user. -/
def EncodeFault.message (fault : EncodeFault) : String :=
  let place :=
    if fault.length = 1 then
      "character '\\u" ++ String.ofList (Hexadecimal.numeral 4 fault.symbol.code) ++
        "' in position " ++ toString fault.position
    else
      "characters in position " ++ toString fault.position ++ "-" ++
        toString (fault.position + fault.length - 1)
  "'utf-8' codec can't encode " ++ place ++ ": surrogates not allowed"

/-- Looks for a symbol that is not encoded. -/
def encodeFaultFrom (policy : Policy) : (position : Nat) → Text → Option EncodeFault
  | _, [] => none
  | position, symbol :: rest =>
      if policy.refuses symbol then
        some ⟨symbol, position, (rest.takeWhile isSurrogate).length + 1⟩
      else encodeFaultFrom policy (position + 1) rest

/-- Encodes under a policy. -/
def encodeWith (policy : Policy) (text : Text) : Except EncodeFault (List UInt8) :=
  match encodeFaultFrom policy 0 text with
  | none => .ok (encode text)
  | some fault => .error fault

/-- The bytes of a string. -/
def bytesOf (string : String) : List UInt8 :=
  string.toList.flatMap encodeChar

/-- A text with the replacement character for each malformed part of its bytes. -/
def replaceUndecodable (text : Text) : Text :=
  decodeReplacedFrom 0 (encode text)

end Utf8
end SchemaCodegen
