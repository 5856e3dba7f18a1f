import SchemaCodegen.Text.Hexadecimal
import SchemaCodegen.Text.Printable
import SchemaCodegen.Text.Shown

/-!
# Quoted text

A text is shown between quotation marks.  The mark, the backslash, hidden characters
and halves of pairs are escaped, so a quoted text always stays on one line and is made
of characters alone.
-/

namespace SchemaCodegen
namespace Quoted

/-- The single quotation mark. -/
def singleMark : Char :=
  '\x27'

/-- The double quotation mark. -/
def doubleMark : Char :=
  '\x22'

/-- Double marks are used only when they spare an escape of the single mark. -/
def mark (text : Text) : Char :=
  if .char singleMark ∈ text ∧ .char doubleMark ∉ text then doubleMark else singleMark

/-- The spelling of one character between the given marks. -/
def escape (mark character : Char) : List Char :=
  if character = mark ∨ character = '\\' then ['\\', character]
  else if character = '\n' then ['\\', 'n']
  else if character = '\r' then ['\\', 'r']
  else if character = '\t' then ['\\', 't']
  else if Printable.isHidden character then
    if character.toNat < 0x100 then
      '\\' :: 'x' :: Hexadecimal.numeral 2 character.toNat
    else if character.toNat < 0x10000 then
      '\\' :: 'u' :: Hexadecimal.numeral 4 character.toNat
    else
      '\\' :: 'U' :: Hexadecimal.numeral 8 character.toNat
  else [character]

/-- The spelling of one symbol between the given marks. -/
def escapeSymbol (mark : Char) : Symbol → List Char
  | .char character => escape mark character
  | .raw offset => Symbol.shown (.raw offset)
  | .half index => Symbol.shown (.half index)

/-- The quoted form of a text. -/
def quote (text : Text) : String :=
  let mark := mark text
  String.ofList (mark :: text.flatMap (escapeSymbol mark) ++ [mark])

end Quoted
end SchemaCodegen
