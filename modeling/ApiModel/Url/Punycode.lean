/-! # Punycode

Labels that write characters beyond ASCII with letters and digits: the ASCII characters first, and
after the last hyphen the others as a sequence of variable-length numbers.
-/

namespace ApiModel.Url.Punycode

def digit? (c : Char) : Option Nat :=
  if 'a' ≤ c ∧ c ≤ 'z' then some (c.toNat - 'a'.toNat)
  else if c.isDigit then some (c.toNat - '0'.toNat + 26)
  else none

/-- The digit value below which a number ends, by place. -/
def threshold (place bias : Nat) : Nat := min 26 (max 1 (place - bias))

def shrink : Nat → Nat → Nat → Nat × Nat
  | 0, delta, k => (delta, k)
  | fuel + 1, delta, k => if 455 < delta then shrink fuel (delta / 35) (k + 36) else (delta, k)

def adapt (delta count : Nat) (first : Bool) : Nat :=
  let delta := if first then delta / 700 else delta / 2
  let (delta, k) := shrink delta (delta + delta / count) 0
  k + 36 * delta / (delta + 38)

def number? (bias : Nat) : List Nat → Nat → Nat → Nat → Option (Nat × List Nat)
  | [], _, _, _ => none
  | d :: rest, place, weight, sum =>
    let t := threshold place bias
    if d < t then some (sum + d * weight, rest)
    else number? bias rest (place + 36) (weight * (36 - t)) (sum + d * weight)

def insertAll? : Nat → List Nat → Nat → Nat → Nat → List Char → Option (List Char)
  | _, [], _, _, _, out => some out
  | 0, _ :: _, _, _, _, _ => none
  | fuel + 1, digits, n, i, bias, out => do
    let (next, rest) ← number? bias digits 36 1 i
    let count := out.length + 1
    let n := n + next / count
    if n < 0xD800 || (0xE000 ≤ n && n < 0x110000) then
      insertAll? fuel rest n (next % count + 1) (adapt (next - i) count (i == 0))
        (out.insertIdx (next % count) (Char.ofNat n))
    else none

/-- The characters that a label without its `xn--` stands for. -/
def decode? (label : List Char) : Option (List Char) :=
  let tail := (label.reverse.takeWhile (· != '-')).reverse
  let basic := (label.take (label.length - tail.length)).dropLast
  (tail.mapM digit?).bind fun digits => insertAll? digits.length digits 128 0 72 basic

end ApiModel.Url.Punycode
