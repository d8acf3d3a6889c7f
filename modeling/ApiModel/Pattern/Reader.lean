import ApiModel.Pattern.Syntax
import ApiModel.Text.Letter

/-! # Reading patterns

A pattern is read from left to right with two stacks, one of open groups and one of open
brackets. In free spacing, blanks and comments between its parts are passed over.
-/

namespace ApiModel.Pattern

/-- Passes over blanks and comments in free spacing. `comment` holds inside a comment. -/
def skipFrom (comment : Bool) : List Char → List Char
  | [] => []
  | c :: rest =>
    if comment then skipFrom (c != '\n') rest
    else if Text.isBlank c then skipFrom false rest
    else if c = '#' then skipFrom true rest
    else c :: rest

def skip (spacing : Bool) (cs : List Char) : List Char :=
  if spacing then skipFrom false cs else cs

def advance (spacing : Bool) (cs : List Char) : List Char := skip spacing cs.tail

/-- The character after the next one, past blanks and the mark of one comment in free spacing. -/
def peek? (spacing : Bool) (cs : List Char) : Option Char :=
  let rest := cs.tail
  if spacing then
    let rest := rest.dropWhile Text.isBlank
    match rest with
    | '#' :: rest => (rest.dropWhile Text.isBlank).head?
    | rest => rest.head?
  else rest.head?

private def hexValue? (c : Char) : Option Nat :=
  if c.isDigit then some (c.toNat - '0'.toNat)
  else if 'a' ≤ c ∧ c ≤ 'f' then some (c.toNat - 'a'.toNat + 10)
  else if 'A' ≤ c ∧ c ≤ 'F' then some (c.toNat - 'A'.toNat + 10)
  else none

def charOf? (n : Nat) : Option Char :=
  if n < 0xD800 || (0xE000 ≤ n && n < 0x110000) then some (Char.ofNat n) else none

inductive Atom where
  | literal (value : Literal)
  | assertion
  | perl (kind : PerlClass) (negated : Bool)
  | property (query : Property)

def isMeta (c : Char) : Bool :=
  "\\.+*?()|[]\x7b\x7d^$#&-~".toList.contains c

/-- ASCII punctuation that means nothing special may be escaped all the same. -/
def isEscapable (c : Char) : Bool :=
  isMeta c || (c.toNat < 128 && !c.isAlphanum && c != '<' && c != '>')

def fixedHex? (spacing : Bool) : Nat → Nat → List Char → Option (Nat × List Char)
  | 0, value, cs => some (value, cs)
  | n + 1, value, cs =>
    match cs with
    | [] => none
    | c :: _ => (hexValue? c).bind fun d => fixedHex? spacing n (value * 16 + d) (advance spacing cs)

def bracedHex? (spacing : Bool) : Nat → Option Nat → List Char → Option (Nat × List Char)
  | 0, _, _ => none
  | fuel + 1, value, cs =>
    match cs with
    | [] => none
    | '}' :: _ => value.map fun v => (v, advance spacing cs)
    | c :: _ => (hexValue? c).bind fun d =>
        bracedHex? spacing fuel (some (value.getD 0 * 16 + d)) (advance spacing cs)

def hexEscape? (spacing : Bool) (digits : Nat) (cs : List Char) : Option (Atom × List Char) :=
  match cs with
  | '{' :: _ => do
    let rest := advance spacing cs
    let (value, rest) ← bracedHex? spacing (rest.length + 1) none rest
    let c ← charOf? value
    return (.literal ⟨c, false⟩, rest)
  | cs => do
    let (value, rest) ← fixedHex? spacing digits 0 cs
    let c ← charOf? value
    return (.literal ⟨c, digits == 2⟩, rest)

def splitAt? (mark : List Char) : List Char → Option (List Char × List Char)
  | [] => none
  | c :: rest =>
    if mark.isPrefixOf (c :: rest) then some ([], (c :: rest).drop mark.length)
    else (splitAt? mark rest).map fun (before, after) => (c :: before, after)

def propertyOf (name : List Char) : Property :=
  let split := (splitAt? ['!', '='] name).or ((splitAt? [':'] name).or (splitAt? ['='] name))
  match split with
  | some (name, value) => .valued (String.ofList name) (String.ofList value)
  | none => .named (String.ofList name)

def bracedName? (spacing : Bool) : Nat → List Char → List Char → Option (List Char × List Char)
  | 0, _, _ => none
  | fuel + 1, read, cs =>
    match cs with
    | [] => none
    | '}' :: rest => some (read.reverse, rest)
    | c :: _ => bracedName? spacing fuel (c :: read) (advance spacing cs)

def propertyEscape? (spacing : Bool) (cs : List Char) : Option (Atom × List Char) :=
  match cs with
  | [] => none
  | '{' :: _ =>
    let rest := advance spacing cs
    (bracedName? spacing (rest.length + 1) [] rest).map fun (name, rest) =>
      (.property (propertyOf name), rest)
  | c :: _ =>
    if c = '\\' then none
    else some (.property (.named (String.ofList [c])), advance spacing cs)

def perlOf? (c : Char) : Option (PerlClass × Bool) :=
  match c with
  | 'd' => some (.digit, false)
  | 's' => some (.space, false)
  | 'w' => some (.word, false)
  | 'D' => some (.digit, true)
  | 'S' => some (.space, true)
  | 'W' => some (.word, true)
  | _ => none

def controlOf? (c : Char) : Option Char :=
  match c with
  | 'a' => some (Char.ofNat 7)
  | 'f' => some (Char.ofNat 12)
  | 't' => some '\t'
  | 'n' => some '\n'
  | 'r' => some '\r'
  | 'v' => some (Char.ofNat 11)
  | _ => none

def isBoundaryChar (c : Char) : Bool := c.isAlpha || c == '-'

def boundaryName (spacing : Bool) : Nat → List Char → List Char → List Char × List Char
  | 0, read, cs => (read.reverse, cs)
  | fuel + 1, read, cs =>
    match cs with
    | c :: _ =>
      if isBoundaryChar c then boundaryName spacing fuel (c :: read) (advance spacing cs)
      else (read.reverse, cs)
    | [] => (read.reverse, [])

/-- A word boundary, perhaps with a name in braces. Braces that cannot hold a name are left for a
repetition. -/
def wordBoundary? (spacing : Bool) (cs : List Char) : Option (Atom × List Char) :=
  match cs with
  | '{' :: _ =>
    let inner := advance spacing cs
    match inner with
    | [] => none
    | c :: _ =>
      if isBoundaryChar c then
        let (name, rest) := boundaryName spacing inner.length [] inner
        let known := ["start", "end", "start-half", "end-half"].contains (String.ofList name)
        match rest with
        | '}' :: rest => if known then some (.assertion, rest) else none
        | _ => none
      else some (.assertion, cs)
  | cs => some (.assertion, cs)

def escape? (spacing : Bool) (cs : List Char) : Option (Atom × List Char) :=
  match cs with
  | [] => none
  | c :: rest =>
    if c.isDigit then none
    else if c = 'x' then hexEscape? spacing 2 (skip spacing rest)
    else if c = 'u' then hexEscape? spacing 4 (skip spacing rest)
    else if c = 'U' then hexEscape? spacing 8 (skip spacing rest)
    else if c = 'p' || c = 'P' then propertyEscape? spacing (skip spacing rest)
    else if isEscapable c then some (.literal ⟨c, false⟩, rest)
    else if c = 'b' then wordBoundary? spacing rest
    else if "AzB<>".toList.contains c then some (.assertion, rest)
    else match perlOf? c, controlOf? c with
      | some (kind, negated), _ => some (.perl kind negated, rest)
      | none, some control => some (.literal ⟨control, false⟩, rest)
      | none, none => none

namespace Bracket

/-- An open bracket with the items before it, or the left side of an operation. -/
inductive Open where
  | bracket (before : List ClassSet) (negated : Bool)
  | operation (left : ClassSet)

structure State where
  /-- Items of the innermost bracket, last first. -/
  items : List ClassSet
  stack : List Open
  rest : List Char

def unionOf : List ClassSet → ClassSet
  | [set] => set
  | sets => .union sets.reverse

def closeOperation (items : List ClassSet) : List Open → ClassSet × List Open
  | .operation left :: stack => (.operation left (unionOf items), stack)
  | stack => (unionOf items, stack)

/-- Hyphens right after the opening stand for themselves. -/
def leadingHyphens (spacing : Bool) : Nat → List ClassSet → List Char → List ClassSet × List Char
  | 0, items, cs => (items, cs)
  | fuel + 1, items, cs =>
    match cs with
    | '-' :: _ =>
      leadingHyphens spacing fuel (.item (.literal ⟨'-', false⟩) :: items) (advance spacing cs)
    | cs => (items, cs)

/-- Enters a bracket. A closing bracket as the first item stands for itself. -/
def enter? (spacing : Bool) (before : List ClassSet) (stack : List Open) (cs : List Char) :
    Option State :=
  let inner := advance spacing cs
  let (negated, inner) := match inner with
    | '^' :: _ => (true, advance spacing inner)
    | inner => (false, inner)
  let (items, inner) := leadingHyphens spacing inner.length [] inner
  let stack := .bracket before negated :: stack
  match items, inner with
  | _, [] => none
  | [], ']' :: _ =>
    let rest := advance spacing inner
    if rest.isEmpty then none
    else some ⟨[.item (.literal ⟨']', false⟩)], stack, rest⟩
  | items, inner => some ⟨items, stack, inner⟩

def asciiNames : List String :=
  ["alnum", "alpha", "ascii", "blank", "cntrl", "digit", "graph", "lower", "print", "punct",
   "space", "upper", "word", "xdigit"]

/-- A named ASCII class such as `[:alpha:]`. Anything else in its place is a nested bracket. -/
def asciiClass? (cs : List Char) : Option (ClassItem × List Char) :=
  match cs with
  | '[' :: ':' :: rest =>
    let (negated, rest) := match rest with
      | '^' :: rest => (true, rest)
      | rest => (false, rest)
    let name := rest.takeWhile (· != ':')
    match rest.drop name.length with
    | ':' :: ']' :: rest =>
      if asciiNames.contains (String.ofList name) then some (.ascii negated, rest) else none
    | _ => none
  | _ => none

def atom? (spacing : Bool) (cs : List Char) : Option (Atom × List Char) :=
  match cs with
  | '\\' :: rest => escape? spacing rest
  | c :: rest => some (.literal ⟨c, false⟩, rest)
  | [] => none

def itemOf? : Atom → Option ClassItem
  | .literal value => some (.literal value)
  | .perl kind negated => some (.perl kind negated)
  | .property query => some (.property query)
  | .assertion => none

def range? (spacing : Bool) (cs : List Char) : Option (ClassItem × List Char) := do
  let (first, rest) ← atom? spacing cs
  let rest := skip spacing rest
  match rest with
  | [] => none
  | c :: _ =>
    let next := peek? spacing rest
    if c != '-' || next == some ']' || next == some '-' then
      let item ← itemOf? first
      return (item, rest)
    else
      let (last, rest) ← atom? spacing (advance spacing rest)
      match first, last with
      | .literal a, .literal b => if a.char ≤ b.char then some (.range a b, rest) else none
      | _, _ => none

/-- The result of one step: further on inside, or past the outermost bracket. -/
inductive Progress where
  | inside (state : State)
  | done (negated : Bool) (set : ClassSet) (rest : List Char)

def close? (s : State) (rest : List Char) : Option Progress :=
  let (set, stack) := closeOperation s.items s.stack
  match stack with
  | [.bracket _ negated] => some (.done negated set rest)
  | .bracket before negated :: stack =>
    some (.inside ⟨.bracketed negated set :: before, stack, rest⟩)
  | _ => none

def operate (s : State) (rest : List Char) : Progress :=
  let (set, stack) := closeOperation s.items s.stack
  .inside ⟨[], .operation set :: stack, rest⟩

def step? (spacing : Bool) (s : State) : Option Progress :=
  match skip spacing s.rest with
  | [] => none
  | '[' :: rest =>
    match asciiClass? ('[' :: rest) with
    | some (item, rest) => some (.inside { s with items := .item item :: s.items, rest := rest })
    | none => (enter? spacing s.items s.stack ('[' :: rest)).map .inside
  | ']' :: rest => close? s rest
  | '&' :: '&' :: rest => some (operate s rest)
  | '-' :: '-' :: rest => some (operate s rest)
  | '~' :: '~' :: rest => some (operate s rest)
  | cs => (range? spacing cs).map fun (item, rest) =>
      .inside { s with items := .item item :: s.items, rest := rest }

def run? (spacing : Bool) : Nat → State → Option (Expr × List Char)
  | 0, _ => none
  | fuel + 1, s =>
    match step? spacing s with
    | none => none
    | some (.done negated set rest) => some (.bracketed negated set, rest)
    | some (.inside s) => run? spacing fuel s

def read? (spacing : Bool) (cs : List Char) : Option (Expr × List Char) :=
  (enter? spacing [] [] cs).bind (run? spacing (cs.length + 1))

end Bracket

/-- A decimal count of 32 bits; blanks around it are passed over. Nothing if there is none. -/
def count? (spacing : Bool) (cs : List Char) : Option (Option Nat × List Char) :=
  let cs := cs.dropWhile Text.isBlank
  let digits (fuel : Nat) := digitsFrom fuel [] cs
  let (read, rest) := digits cs.length
  let rest := skip spacing (rest.dropWhile Text.isBlank)
  match read with
  | [] => some (none, rest)
  | read =>
    let value := read.foldl (fun n c => n * 10 + (c.toNat - '0'.toNat)) 0
    if value < Nat.pow 2 32 then some (some value, rest) else none
where
  digitsFrom : Nat → List Char → List Char → List Char × List Char
    | 0, read, cs => (read.reverse, cs)
    | fuel + 1, read, cs =>
      match cs with
      | c :: _ =>
        if c.isDigit then digitsFrom fuel (c :: read) (advance spacing cs)
        else (read.reverse, cs)
      | [] => (read.reverse, [])

def bounds? (spacing : Bool) (cs : List Char) : Option (Nat × Option Nat × List Char) := do
  let (least, rest) ← count? spacing (advance spacing cs)
  match least, rest with
  | some least, '}' :: _ => return (least, some least, advance spacing rest)
  | some least, ',' :: _ =>
    let rest := advance spacing rest
    match rest with
    | '}' :: _ => return (least, none, advance spacing rest)
    | _ =>
      let (most, rest) ← count? spacing rest
      match most, rest with
      | some most, '}' :: _ =>
        if least ≤ most then return (least, some most, advance spacing rest) else none
      | _, _ => none
  | _, _ => none

/-- A question mark after a repetition makes it lazy. -/
def dropLazy : List Char → List Char
  | '?' :: rest => rest
  | cs => cs

def flagOf? (c : Char) : Option Flag :=
  match c with
  | 'i' => some .ignoreCase
  | 'm' => some .multiLine
  | 's' => some .dotMatchesNewLine
  | 'U' => some .swapGreed
  | 'u' => some .unicode
  | 'R' => some .crlf
  | 'x' => some .freeSpacing
  | _ => none

/-- Flags up to a colon or a closing parenthesis. A flag occurs once, and so does the minus sign,
which is not the last. -/
def flags? (negated afterMinus : Bool) (settings : FlagSettings) :
    List Char → Option (FlagSettings × List Char)
  | [] => none
  | c :: rest =>
    if c = ':' || c = ')' then if afterMinus then none else some (settings, c :: rest)
    else if c = '-' then if negated then none else flags? true true settings rest
    else match flagOf? c with
      | none => none
      | some flag =>
        if (settings.state? flag).isSome then none
        else flags? negated false (settings ++ [(flag, !negated)]) rest

def isNameChar (first : Bool) (c : Char) : Bool :=
  c == '_' ||
  (if first then Text.isAlphabetic c
   else Text.isAlphanumeric c || c == '.' || c == '[' || c == ']')

def captureName? (cs : List Char) : Option (String × List Char) :=
  let name := cs.takeWhile (· != '>')
  match name, cs.drop name.length with
  | c :: more, '>' :: rest =>
    if isNameChar true c && more.all (isNameChar false) then some (String.ofList name, rest)
    else none
  | _, _ => none

inductive Opening where
  | group (settings : FlagSettings) (name : Option String)
  | flags (settings : FlagSettings)

def opening? (cs : List Char) : Option (Opening × List Char) :=
  match cs with
  | '?' :: '=' :: _ | '?' :: '!' :: _ | '?' :: '<' :: '=' :: _ | '?' :: '<' :: '!' :: _ => none
  | '?' :: 'P' :: '<' :: rest | '?' :: '<' :: rest =>
    (captureName? rest).map fun (name, rest) => (.group [] (some name), rest)
  | '?' :: rest =>
    match flags? false false [] rest with
    | some (settings, ':' :: rest) => some (.group settings none, rest)
    | some (settings, ')' :: rest) =>
      if settings.isEmpty then none else some (.flags settings, rest)
    | _ => none
  | cs => some (.group [] none, cs)

/-- An open group with what stands before it, or the finished branches of an alternation. -/
inductive Open where
  | group (before : List Expr) (settings : FlagSettings) (spacing : Bool)
  | alternation (branches : List Expr)

structure State where
  /-- Parts of the current branch, last first. -/
  parts : List Expr
  stack : List Open
  spacing : Bool
  names : List String
  rest : List Char

def concatOf : List Expr → Expr
  | [] => .empty
  | [e] => e
  | parts => .concat parts.reverse

def branch (s : State) : List Open :=
  match s.stack with
  | .alternation branches :: stack => .alternation (concatOf s.parts :: branches) :: stack
  | stack => .alternation [concatOf s.parts] :: stack

def body (s : State) : Expr × List Open :=
  match s.stack with
  | .alternation branches :: stack =>
    (.alternation (concatOf s.parts :: branches).reverse, stack)
  | stack => (concatOf s.parts, stack)

/-- The part that a repetition is about; flags cannot be repeated. -/
def repeatable? : List Expr → Option (Expr × List Expr)
  | [] => none
  | .flags _ :: _ => none
  | e :: before => some (e, before)

def repeatLast? (s : State) (least : Nat) (most : Option Nat) (rest : List Char) : Option State :=
  (repeatable? s.parts).map fun (e, before) =>
    { s with parts := .repetition least most e :: before, rest := dropLazy rest }

def openGroup? (s : State) (cs : List Char) : Option State :=
  match opening? (skip s.spacing cs) with
  | none => none
  | some (.flags settings, rest) =>
    some { s with
      parts := .flags settings :: s.parts, rest := rest
      spacing := (settings.state? .freeSpacing).getD s.spacing }
  | some (.group settings name, rest) =>
    if name.any s.names.contains then none
    else some { s with
      parts := [], rest := rest, names := name.toList ++ s.names
      stack := .group s.parts settings s.spacing :: s.stack
      spacing := (settings.state? .freeSpacing).getD s.spacing }

def closeGroup? (s : State) (rest : List Char) : Option State :=
  match body s with
  | (e, .group before settings spacing :: stack) =>
    some { s with
      parts := .group settings e :: before, stack := stack, spacing := spacing, rest := rest }
  | _ => none

def exprOf : Atom → Expr
  | .literal value => .literal value
  | .assertion => .assertion
  | .perl kind negated => .perl kind negated
  | .property query => .property query

def step? (s : State) (c : Char) (rest : List Char) : Option State :=
  let put (e : Expr) (rest : List Char) : State := { s with parts := e :: s.parts, rest := rest }
  match c with
  | '(' => openGroup? s rest
  | ')' => closeGroup? s rest
  | '|' => some { s with parts := [], stack := branch s, rest := rest }
  | '[' => (Bracket.read? s.spacing (c :: rest)).map fun (e, rest) => put e rest
  | '?' => repeatLast? s 0 (some 1) rest
  | '*' => repeatLast? s 0 none rest
  | '+' => repeatLast? s 1 none rest
  | '{' => (bounds? s.spacing (c :: rest)).bind fun (least, most, rest) =>
      repeatLast? s least most rest
  | '\\' => (escape? s.spacing rest).map fun (atom, rest) => put (exprOf atom) rest
  | '.' => some (put .dot rest)
  | '^' | '$' => some (put .assertion rest)
  | c => some (put (.literal ⟨c, false⟩) rest)

def run? : Nat → State → Option Expr
  | 0, _ => none
  | fuel + 1, s =>
    match skip s.spacing s.rest with
    | [] =>
      match body s with
      | (e, []) => some e
      | _ => none
    | c :: rest => (step? s c rest).bind (run? fuel)

def read? (pattern : String) : Option Expr :=
  let cs := pattern.toList
  run? (cs.length + 1) ⟨[], [], false, [], cs⟩

end ApiModel.Pattern
