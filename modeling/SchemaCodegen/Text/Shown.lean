import SchemaCodegen.Text.Hexadecimal
import SchemaCodegen.Text.Symbol

/-!
# Shown text

The standard error stream takes every text.  A half of a pair has no bytes of its own
there: it is shown by an escape with its code point, and every character by itself.
-/

namespace SchemaCodegen

/-- The characters that show a symbol. -/
def Symbol.shown : Symbol → List Char
  | .char character => [character]
  | .raw offset => '\\' :: 'u' :: Hexadecimal.numeral 4 (code (.raw offset))
  | .half index => '\\' :: 'u' :: Hexadecimal.numeral 4 (code (.half index))

namespace Text

/-- What is written for a text to the standard error stream. -/
def shown (text : Text) : String :=
  String.ofList (text.flatMap Symbol.shown)

/-- A text that is made of characters is shown as it is. -/
@[simp]
theorem shown_ofString (string : String) : shown (ofString string) = string := by
  have single : string.toList.flatMap (fun character => [character]) = string.toList :=
    List.flatMap_singleton' string.toList
  simp [shown, ofString, List.flatMap_map, Symbol.shown, single]

@[simp]
theorem shown_append (first second : Text) :
    shown (first ++ second) = shown first ++ shown second := by
  simp [shown]

end Text
end SchemaCodegen
