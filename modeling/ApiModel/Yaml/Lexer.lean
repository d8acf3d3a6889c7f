import ApiModel.Number.Decimal
import ApiModel.Yaml.Scalar
import ApiModel.Yaml.Token

/-! # Reading YAML tokens

Indentation opens and closes blocks. A token that may turn out to be a key is remembered until
its colon comes, and the key is then announced before it; it has to stand on one line and within
1024 characters of its colon.

Tokens read so far are held last first.
-/

namespace ApiModel.Yaml

def anchorName? (gs : List Glyph) : Option (String × List Glyph) :=
  let name := gs.takeWhile Glyph.isWord
  let rest := gs.drop name.length
  if !name.isEmpty && (atSpace rest || rest.head?.any fun g => "?:,]\x7d%@\x60".toList.contains g.char)
  then some (textOf name, rest)
  else none

private def hexDigit? (c : Char) : Option Nat :=
  "0123456789abcdef".toList.idxOf? c.toLower

def tagBytes? : List Char → Option (List UInt8)
  | [] => some []
  | '%' :: a :: b :: rest =>
    match hexDigit? a, hexDigit? b with
    | some x, some y => (tagBytes? rest).map (UInt8.ofNat (x * 16 + y) :: ·)
    | _, _ => none
  | '%' :: _ => none
  | c :: rest => (tagBytes? rest).map (UInt8.ofNat c.toNat :: ·)

/-- A run of tag characters; brackets and commas belong to it only where `verbatim` is set. -/
def tagText? (verbatim : Bool) (gs : List Glyph) : Option (String × List Glyph) :=
  let run := gs.takeWhile fun g =>
    g.isWord || ";/?:@&=+$.%!~*'()".toList.contains g.char ||
      (verbatim && ",[]".toList.contains g.char)
  (tagBytes? (run.map (·.char))).bind fun bytes =>
    (String.fromUTF8? ⟨bytes.toArray⟩).map fun text => (text, gs.drop run.length)

private def nonempty? (read : String × List Glyph) : Option (String × List Glyph) :=
  if read.1.isEmpty then none else some read

def tagParts? (gs : List Glyph) : Option (String × String × List Glyph) :=
  let name := gs.takeWhile Glyph.isWord
  let rest := gs.drop name.length
  match gs.head?.map (·.char), rest.head?.map (·.char) with
  | some '<', _ =>
    ((tagText? true (gs.drop 1)).bind nonempty?).bind fun (suffix, rest) =>
      if rest.head?.any (·.char == '>') then some ("", suffix, rest.drop 1) else none
  | _, some '!' =>
    ((tagText? false (rest.drop 1)).bind nonempty?).map fun (suffix, rest) =>
      ("!" ++ textOf name ++ "!", suffix, rest)
  | _, _ =>
    (tagText? false gs).map fun (suffix, rest) =>
      if suffix.isEmpty then ("", "!", rest) else ("!", suffix, rest)

def tag? (flow : Bool) (gs : List Glyph) : Option (Token × List Glyph) :=
  (tagParts? gs).bind fun (handle, suffix, rest) =>
    if atSpace rest || (flow && rest.head?.any (·.char == ',')) then
      some (.tag handle suffix, rest)
    else none

private def skipBlanks (gs : List Glyph) : List Glyph := gs.dropWhile Glyph.isBlank

def versionPart? (gs : List Glyph) : Option (Nat × List Glyph) :=
  let digits := gs.takeWhile (·.char.isDigit)
  if digits.isEmpty || 9 < digits.length then none
  else some (Decimal.natOf (digits.map (·.char)), gs.drop digits.length)

def versionDirective? (gs : List Glyph) : Option (Token × List Glyph) := do
  let (major, rest) ← versionPart? gs
  if rest.head?.any (·.char == '.') then
    let (minor, rest) ← versionPart? (rest.drop 1)
    return (.version major minor, rest)
  else none

def tagDirective? (gs : List Glyph) : Option (Token × List Glyph) := do
  let name := (gs.drop 1).takeWhile Glyph.isWord
  let rest := gs.drop (name.length + 1)
  let closed := rest.head?.any (·.char == '!')
  let rest := if closed then rest.drop 1 else rest
  if gs.head?.any (·.char == '!') && (closed || name.isEmpty) && rest.head?.any Glyph.isBlank then
    let (expansion, rest) ← (tagText? true (skipBlanks rest)).bind nonempty?
    if atSpace rest then
      return (.tagDirective ("!" ++ textOf name ++ if closed then "!" else "") expansion, rest)
    else none
  else none

def directive? (gs : List Glyph) : Option (Token × List Glyph) := do
  let name := textOf (gs.takeWhile Glyph.isWord)
  let rest := gs.dropWhile Glyph.isWord
  if !atSpace rest then none
  else
    let (token, rest) ←
      if name = "YAML" then versionDirective? (skipBlanks rest)
      else if name = "TAG" then tagDirective? (skipBlanks rest)
      else none
    return (token, ← endOfLine? rest)

/-- A place where a key may have begun. -/
structure PossibleKey where
  /-- Nothing but a key can stand here. -/
  required : Bool
  /-- The number of tokens before it. -/
  before : Nat
  line : Nat
  column : Nat

structure Lexer where
  tokens : List Token := []
  /-- The number of tokens read. -/
  count : Nat := 0
  /-- Columns of the open blocks, innermost first. -/
  indents : List Nat := []
  /-- A possible key for every open bracket, innermost first, and one for outside. -/
  keys : List (Option PossibleKey) := [none]
  /-- Whether a key may begin here. -/
  keyAllowed : Bool := true

namespace Lexer

def inFlow (l : Lexer) : Bool := 1 < l.keys.length

/-- The least column of what belongs to the innermost block. -/
def margin (l : Lexer) : Nat :=
  match l.indents with
  | [] => 0
  | column :: _ => column + 1

def emit (l : Lexer) (t : Token) : Lexer :=
  { l with tokens := t :: l.tokens, count := l.count + 1 }

def allowKey (l : Lexer) (allowed : Bool) : Lexer := { l with keyAllowed := allowed }

def insert (l : Lexer) (before : Nat) (t : Token) : Lexer :=
  { l with tokens := l.tokens.insertIdx (l.count - before) t, count := l.count + 1 }

/-- Closes all blocks that start right of a column, or all blocks. -/
def closeBlocks (l : Lexer) (column : Option Nat) : Lexer :=
  if l.inFlow then l
  else
    let closed := l.indents.takeWhile fun c => column.all (· < c)
    { l with
      tokens := closed.map (fun _ => .closeBlock) ++ l.tokens
      count := l.count + closed.length
      indents := l.indents.drop closed.length }

/-- Opens a block at a column right of the innermost one, before the tokens after `before`. -/
def openBlock (l : Lexer) (column before : Nat) (t : Token) : Lexer :=
  if l.inFlow || !l.indents.head?.all (· < column) then l
  else { l.insert before t with indents := column :: l.indents }

def dropKey? (l : Lexer) : Option Lexer :=
  match l.keys with
  | some key :: rest => if key.required then none else some { l with keys := none :: rest }
  | _ => some l

def saveKey? (l : Lexer) (g : Glyph) : Option Lexer :=
  if l.keyAllowed then
    let required := !l.inFlow && l.indents.head? = some g.column
    l.dropKey?.map fun l =>
      { l with keys := some ⟨required, l.count, g.line, g.column⟩ :: l.keys.drop 1 }
  else some l

/-- Gives up the keys that are too far back to have their colon here. -/
def dropOldKeys? (l : Lexer) (g : Glyph) : Option Lexer :=
  (l.keys.mapM fun (key? : Option PossibleKey) =>
    match key? with
    | some key =>
      if key.line < g.line || key.column + 1024 < g.column then
        if key.required then none else some none
      else some key?
    | none => some none).map fun keys => { l with keys }

/-- Skips blanks, comments and line breaks. Tabs count as blanks where no key can begin. -/
def skip (l : Lexer) (comment : Bool) : List Glyph → Lexer × List Glyph
  | [] => (l, [])
  | g :: rest =>
    if g.isBreak then skip (if l.inFlow then l else l.allowKey true) false rest
    else if comment then skip l true rest
    else if g.char = ' ' || (g.char = '\t' && (l.inFlow || !l.keyAllowed)) ||
        (g.char = byteOrderMark && g.column = 0) then
      skip l false rest
    else if g.char = '#' then skip l true rest
    else (l, g :: rest)

def endBlocks? (l : Lexer) (t : Token) : Option Lexer :=
  (l.closeBlocks none).dropKey?.map fun l => (l.emit t).allowKey false

def begin? (l : Lexer) (g : Glyph) (t : Token) : Option Lexer :=
  (l.saveKey? g).map fun l => (l.emit t).allowKey false

def openBracket? (l : Lexer) (g : Glyph) (t : Token) : Option Lexer :=
  (l.saveKey? g).map fun l => { (l.emit t).allowKey true with keys := none :: l.keys }

def closeBracket? (l : Lexer) (t : Token) : Option Lexer :=
  l.dropKey?.map fun l =>
    { (l.emit t).allowKey false with keys := if l.inFlow then l.keys.drop 1 else l.keys }

/-- A dash or question mark, which opens a block if it is the first one. -/
def indicator? (l : Lexer) (g : Glyph) (opening t : Token) (allowed : Bool) : Option Lexer :=
  if !l.inFlow && !l.keyAllowed then none
  else
    (l.openBlock g.column l.count opening).dropKey?.map fun l =>
      (l.emit t).allowKey allowed

/-- A colon: the remembered key is announced, or the key was marked before. -/
def colon? (l : Lexer) (g : Glyph) : Option Lexer :=
  match l.keys with
  | some key :: rest =>
    let l := (l.insert key.before .key).openBlock key.column key.before .openBlockMapping
    some (({ l with keys := none :: rest }.emit .value).allowKey false)
  | _ =>
    if l.inFlow then some ((l.emit .value).allowKey false)
    else if l.keyAllowed then
      some (((l.openBlock g.column l.count .openBlockMapping).emit .value).allowKey true)
    else none

private def isIndicator (c : Char) : Bool :=
  "-?:,[]\x7b\x7d#&*!|>'\"%@\x60".toList.contains c

def startsPlain (l : Lexer) (g : Glyph) (rest : List Glyph) : Bool :=
  !(g.isSpace || isIndicator g.char) ||
    (g.char == '-' && !rest.head?.any Glyph.isBlank) ||
    (!l.inFlow && (g.char == '?' || g.char == ':') && !atSpace rest)

def next? (l : Lexer) (g : Glyph) (rest : List Glyph) : Option (Lexer × List Glyph) :=
  let alone := l.inFlow || atSpace rest
  let continueWith (l : Option Lexer) := l.map fun l => (l, rest)
  if g.column = 0 && g.char = '%' then
    (directive? rest).bind fun (t, rest) => (l.endBlocks? t).map fun l => (l, rest)
  else if atMarker '-' (g :: rest) then
    (l.endBlocks? .documentStart).map fun l => (l, rest.drop 2)
  else if atMarker '.' (g :: rest) then
    (l.endBlocks? .documentEnd).map fun l => (l, rest.drop 2)
  else if g.char = '[' then continueWith (l.openBracket? g .openSequence)
  else if g.char = '{' then continueWith (l.openBracket? g .openMapping)
  else if g.char = ']' then continueWith (l.closeBracket? .closeSequence)
  else if g.char = '}' then continueWith (l.closeBracket? .closeMapping)
  else if g.char = ',' then continueWith (l.dropKey?.map fun l => (l.emit .comma).allowKey true)
  else if g.char = '-' && atSpace rest then
    continueWith (l.indicator? g .openBlockSequence .dash true)
  else if g.char = '?' && alone then
    continueWith (l.indicator? g .openBlockMapping .key (!l.inFlow))
  else if g.char = ':' && alone then continueWith (l.colon? g)
  else if g.char = '*' then
    (anchorName? rest).bind fun (name, rest) => (l.begin? g (.alias name)).map fun l => (l, rest)
  else if g.char = '&' then
    (anchorName? rest).bind fun (name, rest) => (l.begin? g (.anchor name)).map fun l => (l, rest)
  else if g.char = '!' then
    (tag? l.inFlow rest).bind fun (t, rest) => (l.begin? g t).map fun l => (l, rest)
  else if (g.char = '|' || g.char = '>') && !l.inFlow then
    let folded := g.char = '>'
    (blockScalar folded l.margin rest).bind fun (text, rest) =>
      l.dropKey?.map fun l =>
        ((l.emit (.scalar (if folded then .folded else .literal) text)).allowKey true, rest)
  else if g.char = '\'' then
    (singleQuoted [] .empty rest).bind fun (text, rest) =>
      (l.begin? g (.scalar .quoted text)).map fun l => (l, rest)
  else if g.char = '"' then
    (doubleQuoted [] .empty rest).bind fun (text, rest) =>
      (l.begin? g (.scalar .quoted text)).map fun l => (l, rest)
  else if l.startsPlain g rest then
    (plain l.inFlow l.margin [] .empty (g :: rest)).bind fun (text, lineEnded, rest) =>
      (l.begin? g (.scalar .plain text)).map fun l => (l.allowKey lineEnded, rest)
  else none

def finish? (l : Lexer) : Option (List Token) :=
  (l.closeBlocks none).dropKey?.map fun l => l.tokens.reverse

/-- Reads all tokens; every step takes at least one character. -/
def run? (fuel : Nat) (l : Lexer) (gs : List Glyph) : Option (List Token) :=
  match fuel with
  | 0 => none
  | fuel + 1 =>
    match l.skip false gs with
    | (l, []) => l.finish?
    | (l, g :: rest) =>
      (l.dropOldKeys? g).bind fun l =>
        ((l.closeBlocks (some g.column)).next? g rest).bind fun (l, rest) => run? fuel l rest

end Lexer

def tokens? (text : String) : Option (List Token) :=
  (glyphs? text).bind fun gs => Lexer.run? (gs.length + 1) {} gs

end ApiModel.Yaml
