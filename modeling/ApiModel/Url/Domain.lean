import ApiModel.Text.Letter
import ApiModel.Url.Punycode
import ApiModel.Url.Address

/-! # Domains

Domain names, also with characters beyond ASCII. A domain is brought to small letters and its
plain form first; then each character has to be allowed, and a label in Punycode has to stand for
an allowed label. No more is known of characters beyond ASCII than the letter tables say: code
points that stand for nothing, forms that are equivalent to others, and which scripts and joiners
may stand together are not looked at.
-/

namespace ApiModel.Url.Domain

open Text

def isIgnored (c : Char) : Bool :=
  let n := c.toNat
  n == 0xAD || n == 0x34F || n == 0x200B || n == 0x2060 || n == 0xFEFF || n == 0x2064 ||
    (0x180B ≤ n && n ≤ 0x180F) || (0xFE00 ≤ n && n ≤ 0xFE0F) || (0xE0100 ≤ n && n ≤ 0xE01EF)

def isFullStop (c : Char) : Bool :=
  [0x3002, 0xFF0E, 0xFF61].contains c.toNat

/-- The plain form of a character: full width becomes ordinary width, capitals become small. -/
def plain (c : Char) : List Char :=
  let n := c.toNat
  if isIgnored c then []
  else if isFullStop c then ['.']
  else if 0xFF01 ≤ n && n ≤ 0xFF5E then smallForm (Char.ofNat (n - 0xFEE0))
  else if isBlank c then [' ']
  else if c = 'ẞ' then ['s', 's']
  else smallForm c

def isForbidden (c : Char) : Bool :=
  c.toNat ≤ 0x20 || c.toNat == 0x7F || "#/:<>?@[\\]^|%".toList.contains c

def isAllowed (c : Char) : Bool :=
  if isAscii c then !isForbidden c
  else c.toNat != 0xFFFD && (isPrintable c || inTableB LetterTable.caseIgnorable c.toNat)

def startsWell : List Char → Bool
  | c :: _ => isAscii c || isPrintable c
  | [] => true

def labelFits (label : List Char) : Bool :=
  if ['x', 'n', '-', '-'].isPrefixOf label then
    match Punycode.decode? (label.drop 4) with
    | some decoded =>
      decoded.any (!isAscii ·) && decoded.all isAllowed && startsWell decoded &&
        decoded.all fun c => isAscii c || plain c == [c]
    | none => false
  else label.all isAllowed && startsWell label

/-- The plain form of a domain whose labels are all allowed. -/
def ofChars? (cs : List Char) : Option (List Char) :=
  let domain := cs.flatMap plain
  if (splitOn '.' domain).all labelFits then some domain else none

end ApiModel.Url.Domain
