/-! # Internet addresses

Hosts that are numbers: IPv4 addresses, whose parts may be decimal, octal or hexadecimal and whose
last part fills the bytes that are left, and IPv6 addresses.
-/

namespace ApiModel.Url

private def digitValue (c : Char) : Nat :=
  if c.isDigit then c.toNat - '0'.toNat
  else if 'a' ≤ c ∧ c ≤ 'f' then c.toNat - 'a'.toNat + 10
  else if 'A' ≤ c ∧ c ≤ 'F' then c.toNat - 'A'.toNat + 10
  else 16

private def valueOf (base : Nat) (cs : List Char) : Nat :=
  cs.foldl (fun n c => n * base + digitValue c) 0

def splitOn (mark : Char) : List Char → List (List Char)
  | [] => [[]]
  | c :: rest =>
    let pieces := splitOn mark rest
    if c = mark then [] :: pieces else (c :: pieces.headD []) :: pieces.tail

namespace IPv4

/-- A part of an address; its marks tell the base. Nothing for what is no number. -/
def part? (cs : List Char) : Option Nat :=
  let (base, digits) := match cs with
    | '0' :: 'x' :: rest => (16, rest)
    | '0' :: 'X' :: rest => (16, rest)
    | '0' :: c :: rest => (8, c :: rest)
    | cs => (10, cs)
  if cs.isEmpty then none
  else if digits.all fun c => digitValue c < base then some (valueOf base digits) else none

/-- Whether the last label of a domain is a number, so the domain has to be an address. -/
def isMeant (domain : List Char) : Bool :=
  let labels := (splitOn '.' domain).reverse
  let last := match labels with
    | [] :: rest => rest.head?
    | labels => labels.head?
  last.any fun label => (!label.isEmpty && label.all Char.isDigit) || (part? label).isSome

/-- All parts but the last are bytes; the last fills the bytes that are left. -/
def combine? : List Nat → Option Nat
  | [] => none
  | last :: before =>
    if before.length ≤ 3 && before.all (· ≤ 255) && last < Nat.pow 256 (4 - before.length) then
      some (before.reverse.zipIdx.foldl (fun n p => n + p.1 * Nat.pow 256 (3 - p.2)) last)
    else none

def parse? (domain : List Char) : Option Nat :=
  let parts := splitOn '.' domain
  let parts := if parts.getLast? = some [] then parts.dropLast else parts
  (parts.mapM part?).bind fun numbers => combine? numbers.reverse

def text (address : Nat) : String :=
  String.intercalate "." ([3, 2, 1, 0].map fun i => toString (address / Nat.pow 256 i % 256))

end IPv4

namespace IPv6

def group? (cs : List Char) : Option Nat :=
  if cs.isEmpty || cs.length > 4 || cs.any (fun c => digitValue c = 16) then none
  else some (valueOf 16 cs)

def byte? (cs : List Char) : Option Nat :=
  if cs.isEmpty || cs.any (!·.isDigit) || (cs.length > 1 && cs.head? = some '0') then none
  else if valueOf 10 cs ≤ 255 then some (valueOf 10 cs) else none

def dotted? (cs : List Char) : Option (List Nat) :=
  match (splitOn '.' cs).mapM byte? with
  | some [a, b, c, d] => some [a * 256 + b, c * 256 + d]
  | _ => none

def groups? : List (List Char) → Option (List Nat)
  | [] => some []
  | [last] => if last.contains '.' then dotted? last else (group? last).map fun g => [g]
  | piece :: rest => (group? piece).bind fun g => (groups? rest).map fun gs => g :: gs

def splitElision : List Char → Option (List Char × List Char)
  | ':' :: ':' :: rest => some ([], rest)
  | c :: rest => (splitElision rest).map fun (before, after) => (c :: before, after)
  | [] => none

private def side? (cs : List Char) : Option (List Nat) :=
  if cs.isEmpty then some [] else groups? (splitOn ':' cs)

/-- The eight groups of an address. A double colon stands for one or more zero groups. -/
def parse? (cs : List Char) : Option (List Nat) :=
  match splitElision cs with
  | none =>
    (side? cs).bind fun groups => if groups.length = 8 then some groups else none
  | some (before, after) =>
    (side? before).bind fun first => (side? after).bind fun last =>
      let missing := 8 - (first.length + last.length)
      if before.contains '.' || missing = 0 then none
      else some (first ++ List.replicate missing 0 ++ last)

private def hexText (n : Nat) : String := String.ofList (Nat.toDigits 16 n)

def longestZeros (groups : List Nat) : Nat × Nat :=
  (List.range groups.length).foldl (fun best i =>
    let run := ((groups.drop i).takeWhile (· == 0)).length
    if run > best.2 then (i, run) else best) (0, 0)

/-- The address in brackets, its longest run of at least two zero groups left out. -/
def text (groups : List Nat) : String :=
  let (start, run) := longestZeros groups
  let join (gs : List Nat) := String.intercalate ":" (gs.map hexText)
  if run < 2 then "[" ++ join groups ++ "]"
  else "[" ++ join (groups.take start) ++ "::" ++ join (groups.drop (start + run)) ++ "]"

end IPv6

end ApiModel.Url
