import ApiModel.Yaml.Glyph

/-! # Texts of YAML scalars

Plain and quoted scalars run over several lines; a single line break between words becomes a
space, and of several the first one is dropped. Literal blocks keep their lines, folded blocks
join those that do not begin with a blank.

Characters read so far are held last first.
-/

namespace ApiModel.Yaml

/-- What stands between two words of a scalar: blanks, or line breaks with the first one apart.
An escaped line break opens a gap of breaks without a first one. -/
inductive Gap where
  | blanks (read : List Char)
  | breaks (first : Option Char) (more : List Char)
  deriving DecidableEq, Repr

namespace Gap

def empty : Gap := .blanks []

/-- Blanks beside a line break do not count. -/
def add (gap : Gap) (c : Char) : Gap :=
  match gap with
  | .blanks read => if Yaml.isBreak c then .breaks (some c) [] else .blanks (c :: read)
  | .breaks first more => if Yaml.isBreak c then .breaks first (c :: more) else gap

def hasBreak : Gap → Bool
  | .blanks _ => false
  | .breaks _ _ => true

def fold : Gap → List Char
  | .blanks read => read
  | .breaks none more => more
  | .breaks (some first) more =>
    if first = '\n' then if more.isEmpty then [' '] else more else more ++ [first]

end Gap

/-- A text read from the input, and the rest of the input. -/
abbrev Reading := Option (String × List Glyph)

private def finish (text : List Char) (rest : List Glyph) : String × List Glyph :=
  (String.ofList text.reverse, rest)

private def isFlowMark (c : Char) : Bool := ",[]\x7b\x7d".toList.contains c

/-- A plain scalar, and whether line breaks follow its last word. Inside brackets `flow` is set;
outside them a line that starts left of `margin` is not part of the scalar. -/
def plain (flow : Bool) (margin : Nat) (text : List Char) (gap : Gap) :
    List Glyph → Option (String × Bool × List Glyph)
  | [] => some (String.ofList text.reverse, gap.hasBreak, [])
  | g :: rest =>
    let stop := some (String.ofList text.reverse, gap.hasBreak, g :: rest)
    if g.isSpace then
      if gap.hasBreak && g.char = '\t' && g.column < margin then none
      else plain flow margin text (gap.add g.char) rest
    else if gap ≠ .empty && ((!flow && g.column < margin) || g.char = '#') then stop
    else if atDocumentMarker (g :: rest) then stop
    else if flow && g.char = ':' && (rest.head?.any fun h => h.char == '?' || isFlowMark h.char) then
      none
    else if (g.char = ':' && atSpace rest) || (flow && isFlowMark g.char) then stop
    else plain flow margin (g.char :: (gap.fold ++ text)) .empty rest

def singleQuoted (text : List Char) (gap : Gap) : List Glyph → Reading
  | [] => none
  | g :: rest =>
    if atDocumentMarker (g :: rest) then none
    else if g.isSpace then singleQuoted text (gap.add g.char) rest
    else if g.char = '\'' then
      match rest with
      | [] => some (finish (gap.fold ++ text) [])
      | h :: more =>
        if h.char = '\'' then singleQuoted ('\'' :: (gap.fold ++ text)) .empty more
        else some (finish (gap.fold ++ text) (h :: more))
    else singleQuoted (g.char :: (gap.fold ++ text)) .empty rest

def simpleEscape? : Char → Option Char
  | '0' => some '\x00'
  | 'a' => some '\x07'
  | 'b' => some '\x08'
  | 't' | '\t' => some '\t'
  | 'n' => some '\n'
  | 'v' => some '\x0b'
  | 'f' => some '\x0c'
  | 'r' => some '\r'
  | 'e' => some '\x1b'
  | ' ' => some ' '
  | '"' => some '"'
  | '/' => some '/'
  | '\\' => some '\\'
  | 'N' => some '\x85'
  | '_' => some '\xa0'
  | 'L' => some lineSeparator
  | 'P' => some paragraphSeparator
  | _ => none

def escapeDigits? : Char → Option Nat
  | 'x' => some 2
  | 'u' => some 4
  | 'U' => some 8
  | _ => none

private def hexValue? (c : Char) : Option Nat :=
  if c.isDigit then some (c.toNat - '0'.toNat)
  else if 'a' ≤ c ∧ c ≤ 'f' then some (c.toNat - 'a'.toNat + 10)
  else if 'A' ≤ c ∧ c ≤ 'F' then some (c.toNat - 'A'.toNat + 10)
  else none

def charOfHex? (count : Nat) (digits : List Glyph) : Option Char :=
  if digits.length = count then
    (digits.foldlM (fun n g => (hexValue? g.char).map (n * 16 + ·)) 0).bind fun n =>
      if n.isValidChar then some (Char.ofNat n) else none
  else none

def doubleQuoted (text : List Char) (gap : Gap) (gs : List Glyph) : Reading :=
  match gs with
  | [] => none
  | g :: rest =>
    if atDocumentMarker (g :: rest) then none
    else if g.isSpace then doubleQuoted text (gap.add g.char) rest
    else if g.char = '"' then some (finish (gap.fold ++ text) rest)
    else if g.char = '\\' then
      match rest with
      | [] => none
      | h :: rest =>
        if h.isBreak then doubleQuoted (gap.fold ++ text) (.breaks none []) rest
        else
          match escapeDigits? h.char with
          | some n =>
            (charOfHex? n (rest.take n)).bind fun c =>
              doubleQuoted (c :: (gap.fold ++ text)) .empty (rest.drop n)
          | none =>
            (simpleEscape? h.char).bind fun c =>
              doubleQuoted (c :: (gap.fold ++ text)) .empty rest
    else doubleQuoted (g.char :: (gap.fold ++ text)) .empty rest
termination_by gs.length

/-- What becomes of the line breaks at the end of a block: none, the first or all are kept. -/
inductive Chomping where
  | strip
  | clip
  | keep
  deriving DecidableEq, Repr

private def chomping? (c : Char) : Option Chomping :=
  if c = '-' then some .strip else if c = '+' then some .keep else none

private def indentDigit? (c : Char) : Option Nat :=
  if c.isDigit && c != '0' then some (c.toNat - '0'.toNat) else none

def endOfLine? (gs : List Glyph) : Option (List Glyph) :=
  let gs := gs.dropWhile Glyph.isBlank
  let gs := if gs.head?.any (·.char == '#') then gs.dropWhile (!·.isBreak) else gs
  if atBreak gs then some (gs.drop 1) else none

def blockHeader? : List Glyph → Option (Chomping × Option Nat × List Glyph)
  | [] => some (.clip, none, [])
  | g :: rest =>
    let (chomping, indent, after) := match chomping? g.char, indentDigit? g.char with
      | some chomping, _ =>
        match rest.head?.bind fun h => indentDigit? h.char with
        | some n => (chomping, some n, rest.drop 1)
        | none => (chomping, none, rest)
      | none, some n =>
        match rest.head?.bind fun h => chomping? h.char with
        | some chomping => (chomping, some n, rest.drop 1)
        | none => (.clip, some n, rest)
      | none, none => (.clip, none, g :: rest)
    (endOfLine? after).map fun after => (chomping, indent, after)

structure Block where
  text : List Char := []
  /-- The break that ends the last line. -/
  lineBreak : List Char := []
  /-- The breaks of the empty lines after it. -/
  breaks : List Char := []
  /-- Whether the last line begins with a blank. -/
  startsBlank : Bool := false

namespace Block

def startLine (b : Block) (folded : Bool) (c : Char) : Block :=
  let joined := folded && b.lineBreak = ['\n'] && !b.startsBlank && !Yaml.isBlank c
  let between := if joined then if b.breaks.isEmpty then [' '] else b.breaks
    else b.breaks ++ b.lineBreak
  { text := c :: (between ++ b.text), startsBlank := Yaml.isBlank c }

def chomp (b : Block) : Chomping → String
  | .strip => String.ofList b.text.reverse
  | .clip => String.ofList (b.lineBreak ++ b.text).reverse
  | .keep => String.ofList (b.breaks ++ (b.lineBreak ++ b.text)).reverse

end Block

/-- How far a block is indented: known, or not yet, with the deepest empty line so far. -/
inductive Indent where
  | known (column : Nat)
  | unknown (deepest : Nat)
  deriving DecidableEq, Repr

def Indent.covers : Indent → Nat → Bool
  | .known column, c => c < column
  | .unknown _, _ => true

/-- The lines of a block, from the line after its header. `inside` tells whether the indentation
of the line is behind; an indentation found from the text is at least `least`. -/
def blockLines (folded : Bool) (least : Nat) (b : Block) (indent : Indent) (inside : Bool) :
    List Glyph → Option (Block × List Glyph)
  | [] => some (b, [])
  | g :: rest =>
    if inside then
      if g.isBreak then blockLines folded least { b with lineBreak := [g.char] } indent false rest
      else blockLines folded least { b with text := g.char :: b.text } indent true rest
    else if g.char = ' ' && indent.covers g.column then
      let indent := match indent with
        | .known n => .known n
        | .unknown deepest => .unknown (max deepest (g.column + 1))
      blockLines folded least b indent false rest
    else if g.char = '\t' && indent.covers g.column then none
    else if g.isBreak then
      blockLines folded least { b with breaks := g.char :: b.breaks } indent false rest
    else
      let column := match indent with
        | .known n => n
        | .unknown deepest => max (max deepest g.column) least
      if g.column = column then
        blockLines folded least (b.startLine folded g.char) (.known column) true rest
      else some (b, g :: rest)

/-- A block scalar after its mark, inside a block that starts at the column before `margin`. -/
def blockScalar (folded : Bool) (margin : Nat) (gs : List Glyph) : Reading :=
  (blockHeader? gs).bind fun (chomping, digit, rest) =>
    let indent := match digit with
      | some n => Indent.known (margin - 1 + n)
      | none => .unknown 0
    (blockLines folded (max margin 1) {} indent false rest).map fun (b, rest) =>
      (b.chomp chomping, rest)

end ApiModel.Yaml
