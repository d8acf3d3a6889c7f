import ApiModel.Number.Shortest

/-! # Text of doubles

Doubles are written with their shortest digits: with a decimal point and at least one decimal
from `1e-5` up to below `1e16`, and with a signed exponent outside.
-/

namespace ApiModel.Double

private def zeros (n : Nat) : String := String.ofList (List.replicate n '0')

/-- Digits with a point before the last `decimals` of them. -/
private def pointed (digits : String) (point : Nat) : String :=
  String.ofList (digits.toList.take point) ++ "." ++ String.ofList (digits.toList.drop point)

/-- The magnitude `digits * 10 ^ power`, for digits without trailing zeros. -/
def magnitudeText (digits : Nat) (power : Int) : String :=
  let text := toString digits
  let point := text.length + power
  if 0 ≤ power && point ≤ 16 then text ++ zeros power.toNat ++ ".0"
  else if 0 < point && point ≤ 16 then pointed text point.toNat
  else if -5 < point && point ≤ 0 then "0." ++ zeros (-point).toNat ++ text
  else
    let mantissa := if text.length = 1 then text else pointed text 1
    let e := point - 1
    mantissa ++ "e" ++ (if 0 ≤ e then "+" else "-") ++ toString e.natAbs

def text (d : Double) : String :=
  let (digits, power) := Shortest.decimal d
  (if d.negative then "-" else "") ++ (if digits = 0 then "0.0" else magnitudeText digits power)

end ApiModel.Double
