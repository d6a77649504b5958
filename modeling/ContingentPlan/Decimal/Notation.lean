import ContingentPlan.Decimal.Shortest

/-!
How a double is written: with the fewest digits that identify it and always with a fractional part
or an exponent, positionally when the leading digit stands between 10^-5 and 10^15. An exponent
always has its sign.
-/

namespace ContingentPlan.Decimal

def zeros (count : Nat) : List Char := List.replicate count '0'

def layout (digits : List Char) (exponent : Int) : List Char :=
  let point : Int := digits.length + exponent
  if 0 ≤ exponent ∧ point ≤ 16 then digits ++ zeros exponent.toNat ++ ['.', '0']
  else if 0 < point ∧ point ≤ 16 then
    digits.take point.toNat ++ ['.'] ++ digits.drop point.toNat
  else if -5 < point ∧ point ≤ 0 then ['0', '.'] ++ zeros (-point).toNat ++ digits
  else
    let power := (toString (point - 1)).toList
    let scale := 'e' :: (if 0 < point then '+' :: power else power)
    match digits with
    | first :: second :: rest => first :: '.' :: second :: rest ++ scale
    | single => single ++ scale

def write (value : Float) : String :=
  let sign := if value.toBits.toNat / Nat.pow 2 63 = 1 then ['-'] else []
  let binary := Binary.ofFloat value
  let magnitude :=
    if binary.mantissa = 0 then ['0', '.', '0']
    else
      let decimal := binary.shortest
      layout (toString decimal.digits).toList decimal.exponent
  String.ofList (sign ++ magnitude)

end ContingentPlan.Decimal
