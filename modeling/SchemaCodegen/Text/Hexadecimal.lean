/-!
# Hexadecimal numerals

Lower-case numerals of a fixed least width, as escapes and byte listings use
them.
-/

namespace SchemaCodegen
namespace Hexadecimal

/-- The value of a hexadecimal digit, in either case. -/
def digitValue? (digit : Char) : Option Nat :=
  if '0' ≤ digit ∧ digit ≤ '9' then some (digit.toNat - '0'.toNat)
  else if 'a' ≤ digit ∧ digit ≤ 'f' then some (digit.toNat - 'a'.toNat + 10)
  else if 'A' ≤ digit ∧ digit ≤ 'F' then some (digit.toNat - 'A'.toNat + 10)
  else none

/-- The numeral of a number, filled up with zeros to the given width. -/
def numeral (width number : Nat) : List Char :=
  let digits := Nat.toDigits 16 number
  List.replicate (width - digits.length) '0' ++ digits

end Hexadecimal
end SchemaCodegen
