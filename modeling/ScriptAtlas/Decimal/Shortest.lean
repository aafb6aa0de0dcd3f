import ScriptAtlas.Text.Basic
import ScriptAtlas.Decimal.Binary64

/-!
The shortest decimal text of a binary fraction: the fewest digits that are read
back as the same value, and of those the digits nearest to it.
-/
namespace ScriptAtlas.Decimal

/-- The value `digits * 10 ^ exponent`. -/
structure Scientific where
  digits : Nat
  exponent : Int
deriving DecidableEq, Repr

/-- The greatest `n` such that `10 ^ n` is at most the ratio. -/
def decimalExponent (num den : Nat) : Int :=
  if den ≤ num then (Nat.toDigits 10 (num / den)).length - 1
  else
    let places := (Nat.toDigits 10 (den / num)).length
    if num * Nat.pow 10 (places - 1) = den then 1 - (places : Int) else -(places : Int)

/-- An interval of ratios, given by the ratios at its ends. -/
structure Rounding where
  low : Nat × Nat
  high : Nat × Nat
  /-- Whether the ends belong to the interval. -/
  closed : Bool

/-- The interval of ratios that are rounded to a positive value. The step below
    a power of two is half as wide as the step above it. -/
def Binary64.rounding (x : Binary64) : Rounding :=
  let below :=
    if x.mantissa = Nat.pow 2 52 ∧ Binary64.leastExponent < x.exponent then 4 * x.mantissa - 1
    else 4 * x.mantissa - 2
  ⟨shiftRatio below 1 (2 - x.exponent), shiftRatio (4 * x.mantissa + 2) 1 (2 - x.exponent),
    x.mantissa % 2 = 0⟩

def Rounding.has (r : Rounding) (num den : Nat) : Bool :=
  let low := r.low.1 * den
  let high := r.high.1 * den
  if r.closed then low ≤ num * r.low.2 && num * r.high.2 ≤ high
  else low < num * r.low.2 && num * r.high.2 < high

/-- A ratio for `n * 10 ^ exponent`. -/
def decimalRatio (n : Nat) (exponent : Int) : Nat × Nat :=
  if exponent < 0 then (n, Nat.pow 10 (-exponent).toNat) else (n * Nat.pow 10 exponent.toNat, 1)

/-- The multiple of `10 ^ exponent` that is nearest to a positive value among
    the two next to it, if one of them is rounded to the value. -/
def Binary64.onGrid? (x : Binary64) (exponent : Int) : Option Nat :=
  let (num, den) := x.ratio
  let (step, part) := decimalRatio 1 exponent
  let q := num * part / (den * step)
  let hit (n : Nat) : Bool :=
    let (a, b) := decimalRatio n exponent
    x.rounding.has a b
  -- Twice the remainder against the step tells which neighbour is nearer.
  let twice := 2 * (num * part % (den * step))
  let lowerFirst := twice < den * step || (twice == den * step && q % 2 == 0)
  if lowerFirst then
    if hit q then some q else if hit (q + 1) then some (q + 1) else none
  else
    if hit (q + 1) then some (q + 1) else if hit q then some q else none

/-- The first of the grids with one digit, two digits, … that has a hit. -/
def Binary64.shortestFrom (x : Binary64) (leading : Int) : List Nat → Scientific
  | [] => ⟨0, 0⟩
  | places :: rest =>
    let exponent := leading - places
    match x.onGrid? exponent with
    | some n => ⟨n, exponent⟩
    | none => x.shortestFrom leading rest

/-- The shortest decimal of a positive value. Seventeen digits always suffice. -/
def Binary64.shortest (x : Binary64) : Scientific :=
  x.shortestFrom (decimalExponent x.ratio.1 x.ratio.2) (List.range 17)

/-- A number without the zeros at its end, and how many there were, looking at
    `fuel` digits at most. -/
def dropZeros : Nat → Nat → Nat × Nat
  | 0, n => (n, 0)
  | fuel + 1, n =>
    if n ≠ 0 ∧ n % 10 = 0 then
      let (m, zeros) := dropZeros fuel (n / 10)
      (m, zeros + 1)
    else (n, 0)

/-- An exponent as it is shown, always with its sign. -/
def exponentText (exponent : Int) : Text :=
  (if exponent < 0 then '-' else '+') :: Text.ofNat exponent.natAbs

/-- The text of a decimal: positional while its first digit has a place from the
    fifth after the point to the sixteenth before it, else with an exponent. -/
def Scientific.text (d : Scientific) : Text :=
  let (n, zeros) := dropZeros 20 d.digits
  let exponent := d.exponent + zeros
  let digits := Text.ofNat n
  let leading := exponent + digits.length - 1
  if leading < -5 ∨ 15 < leading then
    match digits with
    | [] => []
    | first :: rest =>
      first :: (if rest.isEmpty then [] else '.' :: rest) ++ 'e' :: exponentText leading
  else if 0 ≤ exponent then digits ++ List.replicate exponent.toNat '0' ++ ['.', '0']
  else if 0 ≤ leading then
    digits.take (leading.toNat + 1) ++ '.' :: digits.drop (leading.toNat + 1)
  else '0' :: '.' :: List.replicate (-leading - 1).toNat '0' ++ digits

def Binary64.text (x : Binary64) : Text :=
  if x.isZero then ['0', '.', '0'] else x.shortest.text

end ScriptAtlas.Decimal
