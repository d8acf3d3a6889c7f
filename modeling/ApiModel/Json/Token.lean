import ApiModel.Json.Basic
import ApiModel.Number.Decimal

/-! # JSON tokens

A text becomes tokens in one pass of an automaton over its characters. The automaton is outside
a token, inside a word or number, or inside a string; inside a string it may be at an escape.
-/

namespace ApiModel.Json

inductive Token where
  | openArray
  | closeArray
  | openObject
  | closeObject
  | colon
  | comma
  | text (value : String)
  | scalar (value : Json)
  deriving Repr

/-- Digits and point of a number: its sign, significand and power of ten. The significand holds
at most 64 bits; later digits before the point raise the power, later decimals are left out. -/
structure Magnitude where
  significand : Nat
  power : Int

namespace Magnitude

private def fits (n : Nat) : Bool := n < Nat.pow 2 64

private def digit (c : Char) : Nat := c.toNat - '0'.toNat

/-- Reads digits while the significand has room; tells how many digits were left over. -/
def digits (significand : Nat) : List Char → Nat × Nat
  | [] => (significand, 0)
  | c :: rest =>
    let next := significand * 10 + digit c
    if fits next then digits next rest else (significand, rest.length + 1)

def decimals (m : Magnitude) : List Char → Magnitude
  | [] => m
  | c :: rest =>
    let next := m.significand * 10 + digit c
    if fits next then decimals ⟨next, m.power - 1⟩ rest else m

/-- Scales by powers of ten that are doubles themselves, rounding at each step. Nothing when the
value grows beyond the greatest double. -/
def scale? (fuel : Nat) (value : Double) (power : Int) : Option Double :=
  match fuel with
  | 0 => some value
  | fuel + 1 =>
    if power.natAbs ≤ 308 then
      (Double.ofDecimal? false 1 power.natAbs).bind fun unit =>
        if 0 ≤ power then value.mul? unit else value.div? unit
    else if value.isZero then some value
    else if 0 ≤ power then none
    else
      (Double.ofDecimal? false 1 308).bind fun unit =>
        (value.div? unit).bind fun value => scale? fuel value (power + 308)

def toDouble? (m : Magnitude) (negative : Bool) : Option Double :=
  (Double.ofInt? m.significand).bind fun value =>
    (scale? (m.power.natAbs / 308 + 2) value m.power).map fun d => { d with negative := negative }

end Magnitude

structure NumberParts where
  negative : Bool
  whole : List Char
  decimals : Option (List Char)
  exponent : Option (Bool × List Char)

namespace NumberParts

private def exponentOf : List Char → Bool × List Char
  | '+' :: rest => (false, rest)
  | '-' :: rest => (true, rest)
  | rest => (false, rest)

def ofChars (cs : List Char) : NumberParts :=
  let (negative, cs) := match cs with
    | '-' :: rest => (true, rest)
    | rest => (false, rest)
  let whole := cs.takeWhile Char.isDigit
  let cs := cs.dropWhile Char.isDigit
  let (decimals, cs) := match cs with
    | '.' :: rest => (some (rest.takeWhile Char.isDigit), rest.dropWhile Char.isDigit)
    | rest => (none, rest)
  match cs with
  | [] => ⟨negative, whole, decimals, none⟩
  | c :: rest =>
    if c = 'e' || c = 'E' then ⟨negative, whole, decimals, some (exponentOf rest)⟩
    else ⟨negative, [], none, none⟩

/-- A whole part without needless zeros, and digits wherever a mark announces them. -/
def wellFormedB (p : NumberParts) : Bool :=
  !p.whole.isEmpty && (p.whole.length = 1 || p.whole.head? ≠ some '0') &&
  p.decimals.all (!·.isEmpty) &&
  p.exponent.all fun (_, ds) => !ds.isEmpty && ds.all Char.isDigit

/-- Exponents are kept within 32 bits. -/
private def clamp (n : Int) : Int := max (-2147483648) (min n 2147483647)

def double? (p : NumberParts) : Option Double :=
  let (significand, excess) := Magnitude.digits 0 p.whole
  let m : Magnitude := ⟨significand, excess⟩
  let m := match p.decimals with
    | none => m
    | some ds => m.decimals ds
  match p.exponent with
  | none => m.toDouble? p.negative
  | some (down, ds) =>
    let e := Decimal.natOf ds
    if e < Nat.pow 2 31 then
      Magnitude.toDouble? ⟨m.significand, clamp (if down then m.power - e else m.power + e)⟩
        p.negative
    else if m.significand = 0 || down then some { Double.zero with negative := p.negative }
    else none

/-- Integers of 64 bits stay integers, except for a zero with a sign. -/
def number? (p : NumberParts) : Option Number :=
  let n := Decimal.natOf p.whole
  if p.decimals.isNone && p.exponent.isNone &&
      (if p.negative then 0 < n && n ≤ Nat.pow 2 63 else n < Nat.pow 2 64) then
    some (.int (if p.negative then -n else n))
  else p.double?.map .double

end NumberParts

def scalarOf? (cs : List Char) : Option Json :=
  if cs = ['n', 'u', 'l', 'l'] then some .null
  else if cs = ['t', 'r', 'u', 'e'] then some (.bool true)
  else if cs = ['f', 'a', 'l', 's', 'e'] then some (.bool false)
  else
    let p := NumberParts.ofChars cs
    if p.wellFormedB then p.number?.map .num else none

/-- Where the automaton stands. Characters read so far come last first; `high` is the first half
of a surrogate pair that waits for its second. -/
inductive Mode where
  | outside
  | word (read : List Char)
  | string (read : List Char) (high : Option Nat)
  | escape (read : List Char) (high : Option Nat)
  | hex (read : List Char) (high : Option Nat) (value digits : Nat)

structure Lexer where
  mode : Mode
  tokens : List Token

namespace Lexer

def emit (l : Lexer) (t : Token) : Lexer := ⟨.outside, t :: l.tokens⟩

private def isWordChar (c : Char) : Bool :=
  c.isAlphanum || c == '+' || c == '-' || c == '.'

def start? (l : Lexer) (c : Char) : Option Lexer :=
  match c with
  | ' ' | '\n' | '\r' | '\t' => some { l with mode := .outside }
  | '[' => some (l.emit .openArray)
  | ']' => some (l.emit .closeArray)
  | '{' => some (l.emit .openObject)
  | '}' => some (l.emit .closeObject)
  | ':' => some (l.emit .colon)
  | ',' => some (l.emit .comma)
  | '"' => some { l with mode := .string [] none }
  | c => if isWordChar c then some { l with mode := .word [c] } else none

private def hexValue? (c : Char) : Option Nat :=
  if c.isDigit then some (c.toNat - '0'.toNat)
  else if 'a' ≤ c ∧ c ≤ 'f' then some (c.toNat - 'a'.toNat + 10)
  else if 'A' ≤ c ∧ c ≤ 'F' then some (c.toNat - 'A'.toNat + 10)
  else none

private def simpleEscape? : Char → Option Char
  | '"' => some '"'
  | '\\' => some '\\'
  | '/' => some '/'
  | 'b' => some (Char.ofNat 8)
  | 'f' => some (Char.ofNat 12)
  | 'n' => some '\n'
  | 'r' => some '\r'
  | 't' => some '\t'
  | _ => none

/-- The mode after the code unit of a complete `u` escape; a lone surrogate is refused. -/
private def unit? (read : List Char) (high : Option Nat) (value : Nat) : Option Mode :=
  let isHigh := 0xD800 ≤ value && value < 0xDC00
  let isLow := 0xDC00 ≤ value && value < 0xE000
  match high with
  | none =>
    if isHigh then some (.string read (some value))
    else if isLow then none
    else some (.string (Char.ofNat value :: read) none)
  | some first =>
    if isLow then
      some (.string
        (Char.ofNat (0x10000 + (first - 0xD800) * 0x400 + (value - 0xDC00)) :: read) none)
    else none

def flush? (l : Lexer) : Option Lexer :=
  match l.mode with
  | .word read => (scalarOf? read.reverse).map fun v => l.emit (.scalar v)
  | _ => some l

def step? (l : Lexer) (c : Char) : Option Lexer :=
  match l.mode with
  | .outside => l.start? c
  | .word read =>
    if isWordChar c then some { l with mode := .word (c :: read) }
    else l.flush?.bind (·.start? c)
  | .string read none =>
    if c = '"' then some (l.emit (.text (String.ofList read.reverse)))
    else if c = '\\' then some { l with mode := .escape read none }
    else if c.toNat < 32 then none
    else some { l with mode := .string (c :: read) none }
  | .string read (some high) =>
    if c = '\\' then some { l with mode := .escape read (some high) } else none
  | .escape read high =>
    if c = 'u' then some { l with mode := .hex read high 0 0 }
    else if high.isSome then none
    else (simpleEscape? c).map fun e => { l with mode := .string (e :: read) none }
  | .hex read high value digits =>
    (hexValue? c).bind fun d =>
      let value := value * 16 + d
      if digits = 3 then (unit? read high value).map fun m => { l with mode := m }
      else some { l with mode := .hex read high value (digits + 1) }

end Lexer

def tokens? (cs : List Char) : Option (List Token) :=
  (cs.foldlM Lexer.step? ⟨.outside, []⟩).bind fun l =>
    l.flush?.bind fun l =>
      match l.mode with
      | .outside => some l.tokens.reverse
      | _ => none

end ApiModel.Json
