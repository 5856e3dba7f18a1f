/-!
# Double-precision numbers

A finite double is a signed integer mantissa times a power of two.  Rounding to
a double is done with exact integers, to the nearest one and to the even one of
two that are equally near.
-/

namespace SchemaCodegen

/-- A double-precision number. -/
inductive Binary64 where
  /-- Not a number. -/
  | nan
  /-- Positive or negative infinity. -/
  | infinity (negative : Bool)
  /-- The number `mantissa * 2 ^ exponent` with a sign. -/
  | finite (negative : Bool) (mantissa : Nat) (exponent : Int)
deriving DecidableEq, Repr

namespace Binary64

/-- The exponent of the smallest positive double. -/
def leastExponent : Int :=
  -1074

/-- The greatest exponent of a finite double. -/
def greatestExponent : Int :=
  971

/-- Every normal mantissa is at least half of this bound and below it. -/
def mantissaBound : Nat :=
  Nat.pow 2 53

/-- Zero with the given sign. -/
def zero (negative : Bool) : Binary64 :=
  .finite negative 0 leastExponent

/-- Recognises the two zeros. -/
def isZero : Binary64 → Bool
  | .finite _ mantissa _ => mantissa == 0
  | _ => false

/-- The fraction `numerator / denominator * base ^ exponent`, with both parts whole. -/
def scale (numerator denominator base : Nat) (exponent : Int) : Nat × Nat :=
  if 0 ≤ exponent then (numerator * Nat.pow base exponent.toNat, denominator)
  else (numerator, denominator * Nat.pow base (-exponent).toNat)

/-- The quotient rounded to the nearest integer, to the even one of two. -/
def roundHalfEven (numerator denominator : Nat) : Nat :=
  let quotient := numerator / denominator
  let twice := 2 * (numerator % denominator)
  if twice < denominator then quotient
  else if denominator < twice then quotient + 1
  else quotient + quotient % 2

/--
The exponent with which the positive fraction has a mantissa of 53 bits, or the
least exponent when the fraction is smaller than that.
-/
def fittingExponent (numerator denominator : Nat) : Int :=
  let estimate : Int := (numerator.log2 : Int) - denominator.log2 - 53
  let scaled := scale numerator denominator 2 (-estimate)
  let fitting :=
    if scaled.1 / scaled.2 < mantissaBound then estimate else estimate + 1
  max fitting leastExponent

/-- The double nearest to a positive fraction. -/
def ofFraction (negative : Bool) (numerator denominator : Nat) : Binary64 :=
  let exponent := fittingExponent numerator denominator
  let scaled := scale numerator denominator 2 (-exponent)
  let rounded := roundHalfEven scaled.1 scaled.2
  let carried := rounded = mantissaBound
  let mantissa := if carried then mantissaBound / 2 else rounded
  let exponent := if carried then exponent + 1 else exponent
  if greatestExponent < exponent then .infinity negative
  else .finite negative mantissa exponent

/--
The double nearest to `digits * 10 ^ exponent`.  Numbers far outside the range
of doubles are decided by the place of their first digit.
-/
def ofDecimal (negative : Bool) (digits : Nat) (exponent : Int) : Binary64 :=
  let places : Int := (Nat.toDigits 10 digits).length + exponent
  if digits = 0 ∨ places < -400 then zero negative
  else if 400 < places then .infinity negative
  else
    let fraction := scale digits 1 10 exponent
    ofFraction negative fraction.1 fraction.2

end Binary64
end SchemaCodegen
