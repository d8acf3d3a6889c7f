import ApiModel.Number.Double

/-! # Shortest decimals

The decimal with the fewest digits that reads back as a given double, the nearest to it among
those. The reals that round to a double form an interval around it, whose ends belong to it when
the significand is even; the answer is a point of the coarsest decimal grid that meets it.
-/

namespace ApiModel.Shortest

/-- A positive double and the ends of its rounding interval, over one denominator. -/
structure Interval where
  low : Nat
  value : Nat
  high : Nat
  den : Nat
  closed : Bool

def interval (d : Double) : Interval :=
  let m := d.significand
  let below := if d.fraction.val = 0 && 1 < d.exponent.val then 1 else 2
  let unit := d.scale - 2
  let factor := if unit < 0 then 1 else Nat.pow 2 unit.toNat
  let den := if unit < 0 then Nat.pow 2 (-unit).toNat else 1
  { low := (4 * m - below) * factor, value := 4 * m * factor, high := (4 * m + 2) * factor,
    den := den, closed := m % 2 == 0 }

/-- Whether `digits * 10 ^ power` rounds to the double. -/
def Interval.containsB (i : Interval) (digits : Nat) (power : Int) : Bool :=
  let n := digits * Nat.pow 10 power.toNat * i.den
  let s := Nat.pow 10 (-power).toNat
  if i.closed then i.low * s ≤ n && n ≤ i.high * s else i.low * s < n && n < i.high * s

/-- The nearest of the two grid points around the value that rounds to it. -/
def Interval.onGrid? (i : Interval) (power : Int) : Option Nat :=
  let num := i.value * Nat.pow 10 (-power).toNat
  let den := i.den * Nat.pow 10 power.toNat
  let down := num / den
  let rem := 2 * (num % den)
  match i.containsB down power, i.containsB (down + 1) power with
  | true, true =>
    some (if rem < den then down else if den < rem then down + 1
      else if down % 2 = 0 then down else down + 1)
  | true, false => some down
  | false, true => some (down + 1)
  | false, false => none

def decimal (d : Double) : Nat × Int :=
  if d.isZero then (0, 0) else
  let i := interval d
  let top : Int := (((Nat.log2 d.significand : Int) + d.scale) * 30103).fdiv 100000 + 1
  let grids := (List.range 20).map fun (k : Nat) => top - k
  (grids.findSome? fun power => (i.onGrid? power).map fun digits => (digits, power)).getD (0, 0)

end ApiModel.Shortest
