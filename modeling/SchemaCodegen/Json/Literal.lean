import SchemaCodegen.Json.Value
import SchemaCodegen.Decimal.Shortest
import SchemaCodegen.Text.Quoted

/-!
# Showing values

Messages show a value by its literal: a quoted string, a number, or a list or
object of literals.  Where a value becomes part of a longer text, a string
stands for itself and every other value for its literal.
-/

namespace SchemaCodegen
namespace Json
namespace Value

mutual

/-- The literal of a value. -/
def literal : Value → String
  | .null => "None"
  | .bool true => "True"
  | .bool false => "False"
  | .int value => toString value
  | .float value => value.render
  | .string value => Quoted.quote value
  | .array items => "[" ++ itemLiterals items ++ "]"
  | .object members => "\x7b" ++ memberLiterals members ++ "\x7d"

/-- The literals of the items of a list, separated by commas. -/
def itemLiterals : List Value → String
  | [] => ""
  | [item] => literal item
  | item :: rest => literal item ++ ", " ++ itemLiterals rest

/-- The literals of the members of an object, separated by commas. -/
def memberLiterals : List (Text × Value) → String
  | [] => ""
  | [(key, value)] => Quoted.quote key ++ ": " ++ literal value
  | (key, value) :: rest =>
      Quoted.quote key ++ ": " ++ literal value ++ ", " ++ memberLiterals rest

end

/-- The text of a value inside a longer text. -/
def display : Value → Text
  | .string value => value
  | value => value.literal

/-- A string stands for itself. -/
@[simp]
theorem display_string (value : Text) : display (.string value) = value :=
  rfl

end Value
end Json
end SchemaCodegen
