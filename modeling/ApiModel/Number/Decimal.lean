import ApiModel.Number.Double

/-! # Decimal numbers

Numbers as people write them: a sign, digits around a point, and an exponent. A decimal is read
exactly and rounded once.
-/

namespace ApiModel

/-- The number `± digits * 10 ^ power`. -/
structure Decimal where
  negative : Bool
  digits : Nat
  power : Int
  deriving DecidableEq, Repr

namespace Decimal

def natOf (digits : List Char) : Nat :=
  digits.foldl (fun n c => n * 10 + (c.toNat - '0'.toNat)) 0

def splitSign : List Char → Bool × List Char
  | '+' :: rest => (false, rest)
  | '-' :: rest => (true, rest)
  | rest => (false, rest)

/-- The power of ten after the digits: nothing, or a mark with a signed number. -/
def exponent? : List Char → Option Int
  | [] => some 0
  | mark :: rest =>
    let (negative, digits) := splitSign rest
    if (mark = 'e' || mark = 'E') && !digits.isEmpty && digits.all Char.isDigit then
      some (if negative then -natOf digits else natOf digits)
    else none

/-- Digits with an optional point, at least one digit in all, and an optional exponent. -/
def ofChars? (cs : List Char) : Option Decimal :=
  let (negative, cs) := splitSign cs
  let whole := cs.takeWhile Char.isDigit
  let rest := cs.drop whole.length
  let (decimals, rest) := match rest with
    | '.' :: rest => (rest.takeWhile Char.isDigit, rest.dropWhile Char.isDigit)
    | rest => ([], rest)
  if whole.isEmpty && decimals.isEmpty then none
  else (exponent? rest).map fun e => ⟨negative, natOf (whole ++ decimals), e - decimals.length⟩

/-- The nearest double; nothing beyond the greatest one. Decimals far outside the range of
doubles are settled by their order of magnitude alone. -/
def toDouble? (d : Decimal) : Option Double :=
  let order : Int := (toString d.digits).length + d.power
  if d.digits = 0 || order < -400 then some { Double.zero with negative := d.negative }
  else if 400 < order then none
  else Double.ofDecimal? d.negative d.digits d.power

end Decimal

end ApiModel
