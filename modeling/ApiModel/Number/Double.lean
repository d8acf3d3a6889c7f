/-! # Doubles

Finite double-precision numbers, stored as their sign, exponent and fraction fields, so every
value of the type is a number and no two values are the same one. Arithmetic goes through exact
ratios and rounds once, to the nearest double, a tie going to the even significand.
-/

namespace ApiModel

structure Double where
  negative : Bool
  exponent : Fin 2047
  fraction : Fin (Nat.pow 2 52)
  deriving DecidableEq, Repr

namespace Double

def zero : Double := ⟨false, 0, 0⟩

instance : Inhabited Double := ⟨zero⟩

/-- The magnitude is `significand * 2 ^ scale`. -/
def significand (d : Double) : Nat :=
  if d.exponent.val = 0 then d.fraction.val else Nat.pow 2 52 + d.fraction.val

def scale (d : Double) : Int :=
  (max d.exponent.val 1 : Nat) - 1075

def isZero (d : Double) : Bool := d.significand == 0

/-- `num / den` to the nearest integer, a tie to the even one. -/
def roundDiv (num den : Nat) : Nat :=
  let q := num / den
  let r := num % den
  if 2 * r < den then q
  else if den < 2 * r then q + 1
  else if q % 2 = 0 then q else q + 1

/-- `num * 2 ^ (-shift) / den` as a ratio of naturals. -/
def shiftedRatio (num den : Nat) (shift : Int) : Nat × Nat :=
  if shift < 0 then (num * Nat.pow 2 (-shift).toNat, den)
  else (num, den * Nat.pow 2 shift.toNat)

/-- The greatest `e` with `2 ^ e * den ≤ num`, for a positive ratio. -/
def binaryOrder (num den : Nat) : Int :=
  let e : Int := (Nat.log2 num : Int) - Nat.log2 den
  let (n, d) := shiftedRatio num den e
  if n < d then e - 1 else e

/-- The double nearest to `± num / den`; nothing when it lies beyond the greatest one. -/
def ofRatio? (negative : Bool) (num den : Nat) : Option Double :=
  if num = 0 then some { zero with negative := negative } else
  let scale := max (binaryOrder num den - 52) (-1074)
  let (n, d) := shiftedRatio num den scale
  let q := roundDiv n d
  let e := if q < Nat.pow 2 52 then 0
    else (if q < Nat.pow 2 53 then scale + 1075 else scale + 1076).toNat
  if h : e < 2047 then some ⟨negative, ⟨e, h⟩, Fin.ofNat (Nat.pow 2 52) q⟩ else none

def ratio (d : Double) : Nat × Nat :=
  if d.scale < 0 then (d.significand, Nat.pow 2 (-d.scale).toNat)
  else (d.significand * Nat.pow 2 d.scale.toNat, 1)

def mul? (a b : Double) : Option Double :=
  let (an, ad) := a.ratio
  let (bn, bd) := b.ratio
  ofRatio? (a.negative != b.negative) (an * bn) (ad * bd)

def div? (a b : Double) : Option Double :=
  let (an, ad) := a.ratio
  let (bn, bd) := b.ratio
  ofRatio? (a.negative != b.negative) (an * bd) (ad * bn)

def ofInt? (n : Int) : Option Double :=
  ofRatio? (n < 0) n.natAbs 1

def ofDecimal? (negative : Bool) (digits : Nat) (power : Int) : Option Double :=
  if power < 0 then ofRatio? negative digits (Nat.pow 10 (-power).toNat)
  else ofRatio? negative (digits * Nat.pow 10 power.toNat) 1

end Double

end ApiModel
