import TemplateCatalog.Number.Double

/-!
# The shortest decimal of a double

A decimal reads back as a double if the double is the nearest one to it.
`Double.shortest` is the decimal that reads back with the fewest digits, and
among those the one nearest to the double: the coarsest grid of powers of ten
that has a point with that property is searched from above. Seventeen digits
are always enough.
-/

namespace TemplateCatalog

/-- The number `digits * 10 ^ exponent`. -/
structure Decimal where
  digits : Nat
  exponent : Int
  deriving DecidableEq, Repr

namespace Double

/-- Whether a decimal lies between the middles to the two neighbours of a double, its sign left
aside. The middles belong to the double whose significand is even; below a power of two the gap
is half as wide. -/
def readsAs (d : Double) (x : Decimal) : Bool :=
  let below := if d.significand == leastNormal && leastExponent < d.exponent then 1 else 2
  let quarter := power 2 (d.exponent - 2) * power 10 (-x.exponent)
  let value := x.digits * power 10 x.exponent * power 2 (2 - d.exponent)
  let low := (4 * d.significand - below) * quarter
  let high := (4 * d.significand + 2) * quarter
  (low < value && value < high) || (d.significand % 2 == 0 && (value == low || value == high))

/-- The multiple of `10 ^ exponent` nearest to a double among those that read back. -/
def onGrid? (d : Double) (exponent : Int) : Option Decimal :=
  let num := d.numerator * power 10 (-exponent)
  let den := d.denominator * power 10 exponent
  ([roundDiv num den, num / den, num / den + 1].map fun n => ⟨n, exponent⟩).find? d.readsAs

/-- An exponent of ten whose power is greater than a double. -/
def decimalBound (d : Double) : Int :=
  ((Nat.log2 d.significand : Int) + 1 + d.exponent) * 30103 / 100000 + 1

/-- All digits of a double. -/
def exact (d : Double) : Decimal :=
  if 0 ≤ d.exponent then ⟨d.numerator, 0⟩
  else ⟨d.significand * power 5 (-d.exponent), d.exponent⟩

/-- The decimal with the fewest digits that reads back. -/
def shortest (d : Double) : Decimal :=
  if d.isZero then ⟨0, 0⟩
  else
    let found := (List.range 20).findSome? fun (i : Nat) => d.onGrid? (d.decimalBound - i)
    found.getD d.exact

end Double

end TemplateCatalog
