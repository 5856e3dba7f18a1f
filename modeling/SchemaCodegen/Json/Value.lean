import SchemaCodegen.Decimal.Binary64
import SchemaCodegen.Text.Symbol

/-!
# JSON values

Settings are kept as the values they were read as, whatever their kind.  Objects
keep their members in the order in which the keys were first seen.
-/

namespace SchemaCodegen
namespace Json

/-- A JSON value. -/
inductive Value where
  /-- The null value. -/
  | null
  /-- A truth value. -/
  | bool (value : Bool)
  /-- A number written without fraction and exponent. -/
  | int (value : Int)
  /-- Any other number. -/
  | float (value : Binary64)
  /-- A string. -/
  | string (value : Text)
  /-- A list of values. -/
  | array (items : List Value)
  /-- Members, each a key with its value. -/
  | object (members : List (Text × Value))
deriving Repr, Inhabited

namespace Value

mutual

/-- Equality of values is decidable. -/
def decideEq : (left right : Value) → Decidable (left = right)
  | .null, right =>
      match right with
      | .null => isTrue rfl
      | .bool _ | .int _ | .float _ | .string _ | .array _ | .object _ => isFalse nofun
  | .bool left, right =>
      match right with
      | .bool right => decidable_of_iff (left = right) (by simp)
      | .null | .int _ | .float _ | .string _ | .array _ | .object _ => isFalse nofun
  | .int left, right =>
      match right with
      | .int right => decidable_of_iff (left = right) (by simp)
      | .null | .bool _ | .float _ | .string _ | .array _ | .object _ => isFalse nofun
  | .float left, right =>
      match right with
      | .float right => decidable_of_iff (left = right) (by simp)
      | .null | .bool _ | .int _ | .string _ | .array _ | .object _ => isFalse nofun
  | .string left, right =>
      match right with
      | .string right => decidable_of_iff (left = right) (by simp)
      | .null | .bool _ | .int _ | .float _ | .array _ | .object _ => isFalse nofun
  | .array left, right =>
      match right with
      | .array right =>
          match decideEqItems left right with
          | isTrue equal => isTrue (equal ▸ rfl)
          | isFalse unequal => isFalse (by simpa using unequal)
      | .null | .bool _ | .int _ | .float _ | .string _ | .object _ => isFalse nofun
  | .object left, right =>
      match right with
      | .object right =>
          match decideEqMembers left right with
          | isTrue equal => isTrue (equal ▸ rfl)
          | isFalse unequal => isFalse (by simpa using unequal)
      | .null | .bool _ | .int _ | .float _ | .string _ | .array _ => isFalse nofun

/-- Equality of lists of values is decidable. -/
def decideEqItems : (left right : List Value) → Decidable (left = right)
  | [], [] => isTrue rfl
  | [], _ :: _ | _ :: _, [] => isFalse nofun
  | left :: lefts, right :: rights =>
      match decideEq left right, decideEqItems lefts rights with
      | isTrue first, isTrue rest => isTrue (first ▸ rest ▸ rfl)
      | isFalse first, _ => isFalse (by simp [first])
      | _, isFalse rest => isFalse (by simp [rest])

/-- Equality of lists of members is decidable. -/
def decideEqMembers : (left right : List (Text × Value)) → Decidable (left = right)
  | [], [] => isTrue rfl
  | [], _ :: _ | _ :: _, [] => isFalse nofun
  | (leftKey, left) :: lefts, (rightKey, right) :: rights =>
      match decEq leftKey rightKey, decideEq left right, decideEqMembers lefts rights with
      | isTrue key, isTrue first, isTrue rest => isTrue (key ▸ first ▸ rest ▸ rfl)
      | isFalse key, _, _ => isFalse (by simp [key])
      | _, isFalse first, _ => isFalse (by simp [first])
      | _, _, isFalse rest => isFalse (by simp [rest])

end

instance : DecidableEq Value :=
  decideEq

/-- The kinds of values. -/
inductive Kind where
  /-- The kind of the null value. -/
  | null
  /-- The kind of truth values. -/
  | bool
  /-- The kind of whole numbers. -/
  | int
  /-- The kind of other numbers. -/
  | float
  /-- The kind of strings. -/
  | string
  /-- The kind of lists. -/
  | array
  /-- The kind of objects. -/
  | object
deriving DecidableEq, Repr

/-- The name of a kind, as messages give it. -/
def Kind.name : Kind → String
  | .null => "NoneType"
  | .bool => "bool"
  | .int => "int"
  | .float => "float"
  | .string => "str"
  | .array => "list"
  | .object => "dict"

/-- The kind of a value. -/
def kind : Value → Kind
  | .null => .null
  | .bool _ => .bool
  | .int _ => .int
  | .float _ => .float
  | .string _ => .string
  | .array _ => .array
  | .object _ => .object

/-- Null, zero and whatever is empty count as no, all else as yes. -/
def isTruthy : Value → Bool
  | .null => false
  | .bool value => value
  | .int value => value != 0
  | .float value => !value.isZero
  | .string value => !value.isEmpty
  | .array items => !items.isEmpty
  | .object members => !members.isEmpty

end Value

/--
Puts a member into a list of members: a key that is there already keeps its
place and takes the new value.
-/
def putMember (key : Text) (value : Value) :
    List (Text × Value) → List (Text × Value)
  | [] => [(key, value)]
  | (otherKey, other) :: rest =>
      if otherKey = key then (key, value) :: rest
      else (otherKey, other) :: putMember key value rest

end Json
end SchemaCodegen
