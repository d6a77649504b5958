import ContingentPlan.Document.Basic
import ContingentPlan.Text.Digits
import ContingentPlan.Text.Identifier

/-!
Numerals of JSON texts. A numeral without fraction and exponent that fits 64 bits is an integer.
Any other one is a double: the digits that fit 64 bits are taken as a whole number, which is then
scaled by its power of ten; a numeral beyond all doubles is of no use.
-/

namespace ContingentPlan.Json

structure Numeral where
  negative : Bool
  whole : List Char
  fraction : List Char
  exponentNegative : Bool
  exponent : List Char
deriving DecidableEq

def spanDigits (text : List Char) : List Char × List Char := text.span Text.isDigit

def Numeral.readSign : List Char → Bool × List Char
  | '-' :: rest => (true, rest)
  | text => (false, text)

def Numeral.readWhole? (text : List Char) : Option (List Char × List Char) :=
  match spanDigits text with
  | ([], _) => none
  | ('0' :: _ :: _, _) => none
  | found => some found

def Numeral.readFraction? : List Char → Option (List Char × List Char)
  | '.' :: rest =>
      match spanDigits rest with
      | ([], _) => none
      | found => some found
  | text => some ([], text)

def Numeral.readExponent? : List Char → Option (Bool × List Char)
  | [] => some (false, [])
  | mark :: rest =>
      if mark ≠ 'e' ∧ mark ≠ 'E' then none
      else
        let (negative, rest) := match rest with
          | '+' :: rest => (false, rest)
          | rest => Numeral.readSign rest
        match spanDigits rest with
        | ([], _) => none
        | (digits, []) => some (negative, digits)
        | _ => none

def Numeral.ofChars? (text : List Char) : Option Numeral := do
  let (negative, rest) := readSign text
  let (whole, rest) ← readWhole? rest
  let (fraction, rest) ← readFraction? rest
  let (exponentNegative, exponent) ← readExponent? rest
  return { negative, whole, fraction, exponentNegative, exponent }

def absorb (value : Nat) : List Char → Nat × List Char
  | [] => (value, [])
  | digit :: digits =>
      let next := 10 * value + Text.digitValue digit
      if next < Nat.pow 2 64 then absorb next digits else (value, digit :: digits)

/-- Scales a double by a power of ten, by at most 308 places a step; nothing when it grows beyond
all doubles. -/
def scaleByTen (value : Float) (exponent : Int) : (steps : Nat) → Option Float
  | 0 => some value
  | steps + 1 =>
      if exponent.natAbs ≤ 308 then
        let power := Float.ofScientific 1 false exponent.natAbs
        if exponent < 0 then some (value / power)
        else
          let scaled := value * power
          if scaled.isInf then none else some scaled
      else if value == 0 then some value
      else if 0 < exponent then none
      else scaleByTen (value / 1e308) (exponent + 308) steps

def Numeral.real? (numeral : Numeral) : Option Float :=
  let (whole, wholeRest) := absorb 0 numeral.whole
  let (digits, fractionRest) := absorb whole numeral.fraction
  let places : Int := (wholeRest.length : Int) - (numeral.fraction.length - fractionRest.length : Nat)
  let exponent := Text.valueInBase 10 numeral.exponent
  let magnitude :=
    if Nat.pow 2 31 ≤ exponent then
      if digits ≠ 0 ∧ !numeral.exponentNegative then none else some 0
    else
      scaleByTen (Float.ofNat digits)
        (if numeral.exponentNegative then places - exponent else places + exponent) 4
  magnitude.map fun value => if numeral.negative then -value else value

def Numeral.integer? (numeral : Numeral) : Option Int :=
  let value := Text.valueInBase 10 numeral.whole
  if numeral.fraction ≠ [] ∨ numeral.exponent ≠ [] then none
  else if numeral.negative then
    if 0 < value ∧ value ≤ Nat.pow 2 63 then some (-value) else none
  else if value < Nat.pow 2 64 then some value
  else none

def Numeral.toDocument (numeral : Numeral) : Document :=
  match numeral.integer? with
  | some value => .integer value
  | none =>
      match numeral.real? with
      | some value => .real value
      | none => .unusable

end ContingentPlan.Json
