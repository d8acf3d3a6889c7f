/-! # Flat TOML documents

The part of TOML that flat settings need: keys of one part with texts, flags and lists of texts.
Tables, dotted keys and values of other kinds are refused, and so is a key that occurs twice.
-/

namespace ApiModel.Toml

inductive Value where
  | text (value : String)
  | flag (value : Bool)
  | texts (items : List String)
  deriving DecidableEq, Repr

/-- What a reader found, and the rest of the text. -/
abbrev Reading (α : Type) := Option (α × List Char)

def isBlank (c : Char) : Bool := c == ' ' || c == '\t'

def isPrinted (c : Char) : Bool := c == '\t' || (0x20 ≤ c.toNat && c.toNat != 0x7F)

def isBareKey (c : Char) : Bool := c.isAlphanum || c == '-' || c == '_'

def skipBlanks (cs : List Char) : List Char := cs.dropWhile isBlank

def lineBreak? : List Char → Option (List Char)
  | '\n' :: rest => some rest
  | '\r' :: '\n' :: rest => some rest
  | _ => none

def skipComment (cs : List Char) : List Char :=
  match skipBlanks cs with
  | '#' :: rest => rest.dropWhile isPrinted
  | rest => rest

private def hexValue? (c : Char) : Option Nat := "0123456789abcdef".toList.idxOf? c.toLower

def charOfHex? (count : Nat) (digits : List Char) : Option Char :=
  if digits.length = count then
    (digits.foldlM (fun n c => (hexValue? c).map (n * 16 + ·)) 0).bind fun n =>
      if n.isValidChar then some (Char.ofNat n) else none
  else none

def simpleEscape? : Char → Option Char
  | 'b' => some '\x08'
  | 't' => some '\t'
  | 'n' => some '\n'
  | 'f' => some '\x0c'
  | 'r' => some '\r'
  | '"' => some '"'
  | '\\' => some '\\'
  | _ => none

def escape? : List Char → Reading Char
  | 'u' :: rest => (charOfHex? 4 (rest.take 4)).map fun c => (c, rest.drop 4)
  | 'U' :: rest => (charOfHex? 8 (rest.take 8)).map fun c => (c, rest.drop 8)
  | c :: rest => (simpleEscape? c).map fun c => (c, rest)
  | [] => none

theorem escape?_shorter {cs rest : List Char} {c : Char} (h : escape? cs = some (c, rest)) :
    rest.length < cs.length := by
  unfold escape? at h
  split at h
  · obtain ⟨d, _, he⟩ := Option.map_eq_some_iff.mp h
    simp only [Prod.mk.injEq] at he
    simp only [← he.2, List.length_cons, List.length_drop]
    omega
  · obtain ⟨d, _, he⟩ := Option.map_eq_some_iff.mp h
    simp only [Prod.mk.injEq] at he
    simp only [← he.2, List.length_cons, List.length_drop]
    omega
  · obtain ⟨d, _, he⟩ := Option.map_eq_some_iff.mp h
    simp only [Prod.mk.injEq] at he
    simp [he.2]
  · simp at h

private def finish (read : List Char) (rest : List Char) : String × List Char :=
  (String.ofList read.reverse, rest)

def basicText (read cs : List Char) : Reading String :=
  match cs with
  | [] => none
  | '"' :: rest => some (finish read rest)
  | '\\' :: rest =>
    match _h : escape? rest with
    | some (c, rest) => basicText (c :: read) rest
    | none => none
  | c :: rest => if isPrinted c then basicText (c :: read) rest else none
termination_by cs.length
decreasing_by
  · have := escape?_shorter _h; simp; omega
  · simp

def literalText (read : List Char) : List Char → Reading String
  | [] => none
  | '\'' :: rest => some (finish read rest)
  | c :: rest => if isPrinted c then literalText (c :: read) rest else none

/-- Where a run of quotes ends a text of several lines: up to two of them belong to the text. -/
def closing? (quote : Char) (cs : List Char) : Option (Nat × List Char) :=
  let run := cs.takeWhile (· == quote)
  if run.length < 3 then none
  else some (min (run.length - 3) 2, cs.drop (min run.length 5))

def skipSpace : List Char → List Char
  | [] => []
  | '\r' :: '\n' :: rest => skipSpace rest
  | c :: rest => if isBlank c || c == '\n' then skipSpace rest else c :: rest

/-- The text after a backslash at the end of a line: blanks and line breaks are skipped. -/
def continuedLine? (cs : List Char) : Option (List Char) :=
  (lineBreak? (skipBlanks cs)).map skipSpace

/-- A text of several lines after its opening quotes; only between quotation marks, where `escapes`
is set, does a backslash escape. -/
def longText (fuel : Nat) (quote : Char) (escapes : Bool) (read cs : List Char) : Reading String :=
  match fuel with
  | 0 => none
  | fuel + 1 =>
    match closing? quote cs with
    | some (kept, rest) => some (finish (List.replicate kept quote ++ read) rest)
    | none =>
      match lineBreak? cs, cs with
      | some rest, _ => longText fuel quote escapes ('\n' :: read) rest
      | none, [] => none
      | none, c :: rest =>
        if c = '\\' && escapes then
          match continuedLine? rest, escape? rest with
          | some rest, _ => longText fuel quote escapes read rest
          | none, some (c, rest) => longText fuel quote escapes (c :: read) rest
          | none, none => none
        else if isPrinted c then longText fuel quote escapes (c :: read) rest
        else none

/-- A line break right after the opening quotes does not count. -/
def openedText (quote : Char) (escapes : Bool) (cs : List Char) : Reading String :=
  longText (cs.length + 1) quote escapes [] ((lineBreak? cs).getD cs)

def text? : List Char → Reading String
  | '"' :: '"' :: '"' :: rest => openedText '"' true rest
  | '\'' :: '\'' :: '\'' :: rest => openedText '\'' false rest
  | '"' :: rest => basicText [] rest
  | '\'' :: rest => literalText [] rest
  | _ => none

def skipLines (fuel : Nat) (cs : List Char) : List Char :=
  match fuel with
  | 0 => cs
  | fuel + 1 =>
    match lineBreak? (skipComment cs) with
    | some rest => skipLines fuel rest
    | none => skipBlanks cs

def items? (fuel : Nat) (cs : List Char) : Reading (List String) :=
  match fuel with
  | 0 => none
  | fuel + 1 =>
    let cs := skipLines cs.length cs
    if cs.head? = some ']' then some ([], cs.drop 1)
    else
      (text? cs).bind fun (item, rest) =>
        match skipLines rest.length rest with
        | ',' :: rest => (items? fuel rest).map fun (items, rest) => (item :: items, rest)
        | ']' :: rest => some ([item], rest)
        | _ => none

def value? (cs : List Char) : Reading Value :=
  match cs with
  | '[' :: rest => (items? cs.length rest).map fun (items, rest) => (.texts items, rest)
  | 't' :: 'r' :: 'u' :: 'e' :: rest => some (.flag true, rest)
  | 'f' :: 'a' :: 'l' :: 's' :: 'e' :: rest => some (.flag false, rest)
  | cs => (text? cs).map fun (text, rest) => (.text text, rest)

def key? (cs : List Char) : Reading String :=
  match cs with
  | '"' :: rest => basicText [] rest
  | '\'' :: rest => literalText [] rest
  | cs =>
    let name := cs.takeWhile isBareKey
    if name.isEmpty then none else some (String.ofList name, cs.drop name.length)

def field? (cs : List Char) : Reading (String × Value) :=
  (key? cs).bind fun (key, rest) =>
    match skipBlanks rest with
    | '=' :: rest => (value? (skipBlanks rest)).map fun (value, rest) => ((key, value), rest)
    | _ => none

def fields? (fuel : Nat) (cs : List Char) : Option (List (String × Value)) :=
  match fuel with
  | 0 => none
  | fuel + 1 =>
    let rest := skipComment cs
    match lineBreak? rest, rest with
    | some rest, _ => fields? fuel rest
    | none, [] => some []
    | none, rest =>
      (field? rest).bind fun (field, rest) =>
        let rest := skipComment rest
        match lineBreak? rest, rest with
        | some rest, _ => (fields? fuel rest).map (field :: ·)
        | none, [] => some [field]
        | none, _ => none

/-- The fields of a document; a byte order mark may come first. -/
def parse? (text : String) : Option (List (String × Value)) :=
  let cs := match text.toList with
    | '\uFEFF' :: rest => rest
    | cs => cs
  fields? (cs.length + 1) cs

end ApiModel.Toml
