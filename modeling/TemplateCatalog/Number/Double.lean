/-!
# Doubles

A finite double is a whole number of 53 bits times a power of two between
`2 ^ -1074` and `2 ^ 971`, with a sign that zero has too. A calculation on
doubles is exact and then rounded once: to the nearest double, and from the
middle of two to the one whose whole number is even. Beyond the range there is
no result.

* `ofRatio?` rounds a quotient; every other operation is one.
* `roundDiv_le` and `le_roundDiv`: a rounded quotient is within half a unit.
-/

namespace TemplateCatalog

/-- The number `± significand * 2 ^ exponent`. -/
@[ext]
structure Double where
  negative : Bool
  significand : Nat
  exponent : Int
  deriving DecidableEq, Repr

namespace Double

/-- A power whose exponent is not negative; otherwise one. -/
def power (base : Nat) (exponent : Int) : Nat := Nat.pow base exponent.toNat

def leastExponent : Int := -1074

def greatestExponent : Int := 971

/-- The least whole number of 53 bits. -/
def leastNormal : Nat := 0x10000000000000

def zero (negative : Bool) : Double := ⟨negative, 0, leastExponent⟩

def isZero (d : Double) : Bool := d.significand == 0

/-! ## Rounding -/

/-- The whole number nearest to a quotient, of two equally near ones the even one. -/
def roundDiv (num den : Nat) : Nat :=
  let twice := 2 * (num % den)
  if twice < den || (twice == den && num / den % 2 == 0) then num / den else num / den + 1

theorem roundDiv_le (num den : Nat) : 2 * (roundDiv num den * den) ≤ 2 * num + den := by
  have parts := Nat.div_add_mod num den
  rw [Nat.mul_comm] at parts
  by_cases positive : 0 < den
  · have rest := Nat.mod_lt num positive
    simp only [roundDiv]
    split
    · omega
    · rename_i up
      simp at up
      rw [Nat.add_mul, Nat.one_mul]
      omega
  · have : den = 0 := by omega
    simp [this]

theorem le_roundDiv (num : Nat) {den : Nat} (positive : 0 < den) :
    2 * num ≤ 2 * (roundDiv num den * den) + den := by
  have parts := Nat.div_add_mod num den
  rw [Nat.mul_comm] at parts
  have rest := Nat.mod_lt num positive
  simp only [roundDiv]
  split
  · rename_i down
    simp at down
    omega
  · rw [Nat.add_mul, Nat.one_mul]
    omega

/-- The greatest `k` such that `2 ^ k` is at most a positive quotient. -/
def binaryExponent (num den : Nat) : Int :=
  let k : Int := (Nat.log2 num : Int) - Nat.log2 den
  if num * power 2 (-k) < den * power 2 k then k - 1 else k

/-- The double nearest to a quotient. -/
def ofRatio? (negative : Bool) (num den : Nat) : Option Double :=
  let exponent := max (binaryExponent num den - 52) leastExponent
  let significand := roundDiv (num * power 2 (-exponent)) (den * power 2 exponent)
  if significand = 0 then some (zero negative)
  else
    let d : Double :=
      if significand < 2 * leastNormal then ⟨negative, significand, exponent⟩
      else ⟨negative, leastNormal, exponent + 1⟩
    if d.exponent ≤ greatestExponent then some d else none

/-- The double nearest to `digits * 10 ^ exponent`. A number below `10 ^ -330` is nearest to zero,
and one from `10 ^ 310` is beyond the range. -/
def ofDecimal? (negative : Bool) (digits : Nat) (exponent : Int) : Option Double :=
  let magnitude : Int := (Nat.toDigits 10 digits).length + exponent
  if digits = 0 || magnitude < -330 then some (zero negative)
  else if magnitude > 310 then none
  else ofRatio? negative (digits * power 10 exponent) (power 10 (-exponent))

/-! ## Arithmetic -/

def numerator (d : Double) : Nat := d.significand * power 2 d.exponent

def denominator (d : Double) : Nat := power 2 (-d.exponent)

def mul? (a b : Double) : Option Double :=
  ofRatio? (a.negative != b.negative) (a.numerator * b.numerator) (a.denominator * b.denominator)

def div? (a b : Double) : Option Double :=
  ofRatio? (a.negative != b.negative) (a.numerator * b.denominator) (a.denominator * b.numerator)

/-- Scales a double by a power of ten in steps of at most `10 ^ 308`, the greatest power that is a
double. The power and the result of a step are each rounded, so that the last digit may differ
from that of the double nearest to the scaled number. -/
def scale? (d : Double) (exponent : Int) : Option Double :=
  if exponent < -308 then
    if d.isZero then some d
    else do
      let ten ← ofDecimal? false 1 308
      let d ← d.div? ten
      d.scale? (exponent + 308)
  else if exponent < 0 then do d.div? (← ofDecimal? false 1 (-exponent))
  else if d.isZero then some d
  else do d.mul? (← ofDecimal? false 1 exponent)
termination_by (-exponent).toNat
decreasing_by omega

end Double

end TemplateCatalog
