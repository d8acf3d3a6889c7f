/-! # Placed characters

The characters of a text with the line and column where they stand. Every line break is one
character: a line feed, except for the separators of lines and paragraphs, which stay themselves.
-/

namespace ApiModel.Yaml

structure Glyph where
  char : Char
  line : Nat
  column : Nat
  deriving DecidableEq, Repr

def byteOrderMark : Char := '\uFEFF'

def lineSeparator : Char := '\u2028'

def paragraphSeparator : Char := '\u2029'

def isBreak (c : Char) : Bool :=
  c == '\n' || c == lineSeparator || c == paragraphSeparator

def isBlank (c : Char) : Bool := c == ' ' || c == '\t'

def isAllowed (c : Char) : Bool :=
  let n := c.toNat
  n == 0x09 || n == 0x0A || n == 0x0D || (0x20 ≤ n && n ≤ 0x7E) || n == 0x85 ||
    (0xA0 ≤ n && n ≤ 0xFFFD) || 0x10000 ≤ n

def joinBreaks : List Char → List Char
  | '\r' :: '\n' :: rest => '\n' :: joinBreaks rest
  | '\r' :: rest => '\n' :: joinBreaks rest
  | c :: rest => (if c = '\x85' then '\n' else c) :: joinBreaks rest
  | [] => []

def place (line column : Nat) : List Char → List Glyph
  | [] => []
  | c :: rest =>
    ⟨c, line, column⟩ :: if isBreak c then place (line + 1) 0 rest else place line (column + 1) rest

def glyphs? (text : String) : Option (List Glyph) :=
  let cs := text.toList
  if cs.all isAllowed then some (place 0 0 (joinBreaks cs)) else none

namespace Glyph

def isBreak (g : Glyph) : Bool := Yaml.isBreak g.char

def isBlank (g : Glyph) : Bool := Yaml.isBlank g.char

def isSpace (g : Glyph) : Bool := g.isBlank || g.isBreak

def isWord (g : Glyph) : Bool := g.char.isAlphanum || g.char == '-' || g.char == '_'

end Glyph

/-- Whether a blank, a line break or the end stands here. -/
def atSpace : List Glyph → Bool
  | [] => true
  | g :: _ => g.isSpace

def atBreak : List Glyph → Bool
  | [] => true
  | g :: _ => g.isBreak

/-- Whether three dashes or three dots fill the beginning of a line. -/
def atMarker (mark : Char) : List Glyph → Bool
  | a :: b :: c :: rest =>
    a.column == 0 && a.char == mark && b.char == mark && c.char == mark && atSpace rest
  | _ => false

def atDocumentMarker (gs : List Glyph) : Bool := atMarker '-' gs || atMarker '.' gs

def textOf (gs : List Glyph) : String := String.ofList (gs.map (·.char))

end ApiModel.Yaml
