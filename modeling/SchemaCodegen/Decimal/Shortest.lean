import SchemaCodegen.Decimal.Binary64

/-!
# Shortest decimals

A double is shown by the fewest digits that read back as the same double, and by
the nearest decimal among those.  Decimals with their point far from the digits
are written with an exponent.
-/

namespace SchemaCodegen
namespace Binary64

/-- The decimal `0.d₁d₂… * 10 ^ point`, given by its digits as a number. -/
structure Decimal where
  /-- The digits, read as a number. -/
  digits : Nat
  /-- The place of the point, counted from before the first digit. -/
  point : Int
deriving DecidableEq, Repr

/-- The decimals that read back as one double, as fractions over `4 * denominator`. -/
structure Neighbourhood where
  /-- Four times the numerator of the double. -/
  centre : Nat
  /-- The lower end. -/
  lower : Nat
  /-- The upper end. -/
  upper : Nat
  /-- The common denominator. -/
  denominator : Nat
  /-- Whether the ends themselves read back. -/
  closed : Bool
deriving Repr

/--
Half of the gap to the next double on each side reads back; below a power of two
the gap is half as wide.
-/
def neighbourhood (mantissa : Nat) (exponent : Int) : Neighbourhood :=
  let unit := scale 1 4 2 exponent
  let narrow := mantissa = mantissaBound / 2 ∧ leastExponent < exponent
  { centre := 4 * mantissa * unit.1
    lower := (4 * mantissa - (if narrow then 1 else 2)) * unit.1
    upper := (4 * mantissa + 2) * unit.1
    denominator := unit.2
    closed := mantissa % 2 == 0 }

/-- Whether `numerator / denominator` lies in a neighbourhood. -/
def Neighbourhood.holds (range : Neighbourhood) (numerator denominator : Nat) : Bool :=
  let value := numerator * range.denominator
  let lower := range.lower * denominator
  let upper := range.upper * denominator
  if range.closed then lower ≤ value && value ≤ upper
  else lower < value && value < upper

/-- The place of the point of a positive fraction: the least power of ten above it. -/
def pointOf (numerator denominator : Nat) : Int :=
  let bits : Int := (numerator.log2 : Int) - denominator.log2
  let estimate := Int.fdiv (bits * 30103) 100000 - 1
  let below (point : Int) : Bool :=
    let bound := scale denominator 1 10 point
    numerator * bound.2 < bound.1
  if below estimate then estimate
  else if below (estimate + 1) then estimate + 1
  else if below (estimate + 2) then estimate + 2
  else estimate + 3

/--
The decimal with `count` digits that is nearest to the centre, if one of the two
next to the centre reads back.
-/
def decimalOf? (range : Neighbourhood) (point : Int) (count : Nat) : Option Nat :=
  let scaled := scale range.centre range.denominator 10 (count - point)
  let below := scaled.1 / scaled.2
  let reads (digits : Nat) : Bool :=
    let fraction := scale digits 1 10 (point - count)
    range.holds fraction.1 fraction.2
  match reads below, reads (below + 1) with
  | true, true => some (roundHalfEven scaled.1 scaled.2)
  | true, false => some below
  | false, true => some (below + 1)
  | false, false => none

/-- The shortest decimal of a positive double; seventeen digits always suffice. -/
def shortest (mantissa : Nat) (exponent : Int) : Decimal :=
  let range := neighbourhood mantissa exponent
  let point := pointOf range.centre range.denominator
  match (List.range 17).findSome? fun count =>
      (decimalOf? range point (count + 1)).map fun digits => (digits, count + 1) with
  | some (digits, count) =>
      if digits = Nat.pow 10 count then ⟨1, point + 1⟩ else ⟨digits, point⟩
  | none => ⟨0, 0⟩

/-- The points for which a decimal is written without an exponent. -/
def isPositional (point : Int) : Bool :=
  -4 < point && point ≤ 16

/-- Digits with a point among them, or before or behind them after zeros. -/
def positional (digits : List Char) (point : Int) : List Char :=
  if point ≤ 0 then '0' :: '.' :: List.replicate (-point).toNat '0' ++ digits
  else
    let whole := point.toNat
    if digits.length ≤ whole then
      digits ++ List.replicate (whole - digits.length) '0' ++ ['.', '0']
    else digits.take whole ++ '.' :: digits.drop whole

/-- One digit, a point before the others, and an exponent of at least two digits. -/
def scientific (digits : List Char) (point : Int) : List Char :=
  let exponent := point - 1
  let numeral := Nat.toDigits 10 exponent.natAbs
  let fraction := digits.drop 1
  digits.take 1 ++ (if fraction.isEmpty then [] else '.' :: fraction) ++
    'e' :: (if exponent < 0 then '-' else '+') ::
      (List.replicate (2 - numeral.length) '0' ++ numeral)

/-- The text of a double. -/
def render : Binary64 → String
  | .nan => "nan"
  | .infinity negative => if negative then "-inf" else "inf"
  | .finite negative mantissa exponent =>
      let magnitude :=
        if mantissa = 0 then ['0', '.', '0']
        else
          let decimal := shortest mantissa exponent
          let digits := Nat.toDigits 10 decimal.digits
          if isPositional decimal.point then positional digits decimal.point
          else scientific digits decimal.point
      String.ofList (if negative then '-' :: magnitude else magnitude)

end Binary64
end SchemaCodegen
