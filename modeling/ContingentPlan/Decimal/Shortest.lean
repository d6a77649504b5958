/-!
The fewest decimal digits that identify a double among all doubles. The reals that round to a double
form an interval, with its ends when the mantissa is even. Grids of powers of ten are tried from
coarse to fine; on each, only the two neighbours of the double can lie in the interval.
-/

namespace ContingentPlan.Decimal

/-- A positive double `mantissa * 2 ^ exponent`. Below a power of two the next double is only half as
far away as above it. -/
structure Binary where
  mantissa : Nat
  exponent : Int
  narrowBelow : Bool

def Binary.ofFloat (value : Float) : Binary :=
  let bits := value.toBits.toNat
  let biased : Nat := bits / Nat.pow 2 52 % Nat.pow 2 11
  let fraction : Nat := bits % Nat.pow 2 52
  if biased = 0 then { mantissa := fraction, exponent := -1074, narrowBelow := false }
  else
    { mantissa := Nat.pow 2 52 + fraction
      exponent := (biased : Int) - 1075
      narrowBelow := fraction == 0 && biased > 1 }

structure Digits where
  digits : Nat
  exponent : Int
deriving DecidableEq

def ratio (mantissa : Nat) (exponent grid : Int) : Nat × Nat :=
  (mantissa * Nat.pow 2 exponent.toNat * Nat.pow 10 (-grid).toNat,
    Nat.pow 2 (-exponent).toNat * Nat.pow 10 grid.toNat)

def Binary.identifiedBy (value : Binary) (digits : Nat) (grid : Int) : Bool :=
  let low := if value.narrowBelow then 4 * value.mantissa - 1 else 4 * value.mantissa - 2
  let (lowNumerator, lowDenominator) := ratio low (value.exponent - 2) grid
  let (highNumerator, highDenominator) := ratio (4 * value.mantissa + 2) (value.exponent - 2) grid
  if value.mantissa % 2 = 0 then
    lowNumerator ≤ digits * lowDenominator && digits * highDenominator ≤ highNumerator
  else lowNumerator < digits * lowDenominator && digits * highDenominator < highNumerator

/-- The neighbour of the double on a grid that identifies it; of two the closer one, and of two
equally close ones the even one. -/
def Binary.onGrid? (value : Binary) (grid : Int) : Option Nat :=
  let (numerator, denominator) := ratio value.mantissa value.exponent grid
  let below := numerator / denominator
  let remainder := numerator % denominator
  match value.identifiedBy below grid, value.identifiedBy (below + 1) grid with
  | true, true =>
      if 2 * remainder < denominator then some below
      else if denominator < 2 * remainder then some (below + 1)
      else if below % 2 = 0 then some below
      else some (below + 1)
  | true, false => some below
  | false, true => some (below + 1)
  | false, false => none

def Binary.firstOnGrid (value : Binary) : (count : Nat) → (grid : Int) → Digits
  | 0, grid =>
      let (numerator, denominator) := ratio value.mantissa value.exponent grid
      { digits := numerator / denominator, exponent := grid }
  | count + 1, grid =>
      match value.onGrid? grid with
      | some digits => { digits, exponent := grid }
      | none => firstOnGrid value count (grid - 1)

def Binary.scale (value : Binary) : Int :=
  let bits := (value.mantissa.log2 : Int) + 1 + value.exponent
  (if 0 ≤ bits then bits * 30103 else bits * 30102) / 100000 + 1

def Digits.strip (decimal : Digits) : Digits :=
  if decimal.digits ≠ 0 ∧ decimal.digits % 10 = 0 then
    strip { digits := decimal.digits / 10, exponent := decimal.exponent + 1 }
  else decimal
termination_by decimal.digits
decreasing_by omega

def Binary.shortest (value : Binary) : Digits := (value.firstOnGrid 24 value.scale).strip

end ContingentPlan.Decimal
