/-!
Digits and the numbers they write, in bases up to sixteen.
-/

namespace ContingentPlan.Text

def hexDigit? (digit : Char) : Option Nat :=
  if '0' ≤ digit ∧ digit ≤ '9' then some (digit.toNat - '0'.toNat)
  else if 'a' ≤ digit ∧ digit ≤ 'f' then some (digit.toNat - 'a'.toNat + 10)
  else if 'A' ≤ digit ∧ digit ≤ 'F' then some (digit.toNat - 'A'.toNat + 10)
  else none

def hexValue? (digits : List Char) : Option Nat :=
  digits.foldlM (fun value digit => (hexDigit? digit).map (16 * value + ·)) 0

def hexDigit (value : Nat) : Char :=
  if value < 10 then Char.ofNat ('0'.toNat + value) else Char.ofNat ('a'.toNat + value - 10)

def digitValue (digit : Char) : Nat := (hexDigit? digit).getD 0

def valueInBase (base : Nat) (digits : List Char) : Nat :=
  digits.foldl (fun value digit => base * value + digitValue digit) 0

end ContingentPlan.Text
