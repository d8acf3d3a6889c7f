import ApiModel.Json.Basic
import ApiModel.Number.DoubleText

/-! # JSON text

Compact text without blanks, and indented text with one member or item a line.
Quotes, backslashes and control characters are escaped, everything else stands for itself.
-/

namespace ApiModel

def Number.text : Number → String
  | .int n => toString n
  | .double d => d.text

namespace Json

private def hexDigit (n : Nat) : Char := "0123456789abcdef".toList.getD n '0'

def escapedChar (c : Char) : List Char :=
  if c = '"' then ['\\', '"']
  else if c = '\\' then ['\\', '\\']
  else if c = '\n' then ['\\', 'n']
  else if c = '\r' then ['\\', 'r']
  else if c = '\t' then ['\\', 't']
  else if c.toNat = 8 then ['\\', 'b']
  else if c.toNat = 12 then ['\\', 'f']
  else if c.toNat < 32 then ['\\', 'u', '0', '0', hexDigit (c.toNat / 16), hexDigit (c.toNat % 16)]
  else [c]

def quoted (s : String) : String :=
  "\"" ++ String.ofList (s.toList.flatMap escapedChar) ++ "\""

mutual

def text : Json → String
  | .null => "null"
  | .bool b => if b then "true" else "false"
  | .num n => n.text
  | .str s => quoted s
  | .arr items => "[" ++ String.intercalate "," (itemTexts items) ++ "]"
  | .obj members => "\x7b" ++ String.intercalate "," (memberTexts members) ++ "\x7d"

def itemTexts : List Json → List String
  | [] => []
  | item :: rest => text item :: itemTexts rest

def memberTexts : List (String × Json) → List String
  | [] => []
  | (key, value) :: rest => (quoted key ++ ":" ++ text value) :: memberTexts rest

end

private def indent (depth : Nat) : String :=
  String.ofList (List.replicate (2 * depth) ' ')

/-- Lines between brackets, one deeper than the brackets; an empty list stays on the line. -/
private def block (opening closing : String) (depth : Nat) (lines : List String) : String :=
  if lines.isEmpty then opening ++ closing else
  opening ++ "\n" ++ String.intercalate ",\n" (lines.map (indent (depth + 1) ++ ·)) ++ "\n" ++
    indent depth ++ closing

mutual

/-- The indented text of a value that starts `depth` levels deep. -/
def indentedAt (depth : Nat) : Json → String
  | .arr items => block "[" "]" depth (itemLines depth items)
  | .obj members => block "\x7b" "\x7d" depth (memberLines depth members)
  | other => text other

def itemLines (depth : Nat) : List Json → List String
  | [] => []
  | item :: rest => indentedAt (depth + 1) item :: itemLines depth rest

def memberLines (depth : Nat) : List (String × Json) → List String
  | [] => []
  | (key, value) :: rest =>
    (quoted key ++ ": " ++ indentedAt (depth + 1) value) :: memberLines depth rest

end

def indented (value : Json) : String := indentedAt 0 value

end Json

end ApiModel
