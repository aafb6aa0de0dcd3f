/-!
Binary fractions of 53 bits. A value is a mantissa below `2 ^ 53` times a power
of two that is at least `2 ^ (-1074)`. Every operation is carried out exactly
and rounded once, to the nearest value; of two that are equally near the one
with the even mantissa is taken.
-/
namespace ScriptAtlas.Decimal

/-- The value `mantissa * 2 ^ exponent`. -/
structure Binary64 where
  mantissa : Nat
  exponent : Int
deriving DecidableEq, Repr

/-- The integer nearest to a quotient, the even one of two that are equally near. -/
def roundQuotient (a b : Nat) : Nat :=
  let q := a / b
  let r := a % b
  if 2 * r < b then q
  else if b < 2 * r then q + 1
  else if q % 2 = 0 then q
  else q + 1

/-- A ratio divided by a power of two. -/
def shiftRatio (num den : Nat) (exponent : Int) : Nat × Nat :=
  if exponent < 0 then (num * Nat.pow 2 (-exponent).toNat, den) else (num, den * Nat.pow 2 exponent.toNat)

namespace Binary64

def leastExponent : Int := -1074

def greatestExponent : Int := 971

/-- The value nearest to a ratio, unless the ratio is too large. -/
def ofRatio? (num den : Nat) : Option Binary64 :=
  if num = 0 then some ⟨0, leastExponent⟩
  else
    let low : Int := (Nat.log2 num : Int) - Nat.log2 den - 53
    let (a, b) := shiftRatio num den low
    let exponent := max leastExponent (if Nat.pow 2 53 ≤ a / b then low + 1 else low)
    let (a, b) := shiftRatio num den exponent
    let mantissa := roundQuotient a b
    let (mantissa, exponent) :=
      if mantissa = Nat.pow 2 53 then (Nat.pow 2 52, exponent + 1) else (mantissa, exponent)
    if greatestExponent < exponent then none else some ⟨mantissa, exponent⟩

/-- The numerator and denominator of a value. -/
def ratio (x : Binary64) : Nat × Nat := shiftRatio x.mantissa 1 (-x.exponent)

def isZero (x : Binary64) : Bool := x.mantissa == 0

def mul? (x y : Binary64) : Option Binary64 :=
  ofRatio? (x.ratio.1 * y.ratio.1) (x.ratio.2 * y.ratio.2)

def div? (x y : Binary64) : Option Binary64 :=
  ofRatio? (x.ratio.1 * y.ratio.2) (x.ratio.2 * y.ratio.1)

/-- The greatest power of ten that is a value. -/
def greatestPower : Nat := 308

def powerOfTen? (n : Nat) : Option Binary64 := ofRatio? (Nat.pow 10 n) 1

/-- A value times a power of ten, unless that is too large. -/
def scaleUp? (x : Binary64) (n : Nat) : Option Binary64 :=
  if n ≤ greatestPower then (powerOfTen? n).bind x.mul?
  else if x.isZero then some x
  else none

/-- A value divided by a power of ten, in steps of the greatest power that is a value. -/
def scaleDown? (x : Binary64) (n : Nat) : Option Binary64 :=
  if n ≤ greatestPower then (powerOfTen? n).bind x.div?
  else if x.isZero then some x
  else ((powerOfTen? greatestPower).bind x.div?).bind (scaleDown? · (n - greatestPower))
termination_by n
decreasing_by simp only [greatestPower] at *; omega

/-- The value of a significand with a decimal exponent, unless it is too large. -/
def ofDecimal? (significand : Nat) (exponent : Int) : Option Binary64 :=
  (ofRatio? significand 1).bind fun x =>
    if exponent < 0 then x.scaleDown? (-exponent).toNat else x.scaleUp? exponent.toNat

end Binary64
end ScriptAtlas.Decimal
