import ApiModel.Text.Letter

/-! # Case keys

The small form of a whole text, by which names are compared when case does not matter.
A capital sigma at the end of a word has a small form of its own.
-/

namespace ApiModel.Text

/-- Whether the nearest character that case rules do not look through is cased. -/
def nextIsCased (cs : List Char) : Bool :=
  match cs.dropWhile isCaseIgnorable with
  | c :: _ => isCased c
  | [] => false

/-- Small forms of the rest of a text; `before` is the part already read, last character first. -/
def smallFrom (before : List Char) : List Char → List Char
  | [] => []
  | c :: rest =>
    (if c = 'Σ' then [if nextIsCased before && !nextIsCased rest then 'ς' else 'σ']
     else smallForm c) ++ smallFrom (c :: before) rest

/-- Two names are the same type name when their case keys agree. -/
def caseKey (s : String) : String :=
  String.ofList (smallFrom [] s.toList)

end ApiModel.Text
