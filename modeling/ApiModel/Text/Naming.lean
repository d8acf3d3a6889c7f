import ApiModel.Text.Letter

/-! # Naming

Names of model types are made of words. A word ends at a separator and where a capital follows
a small letter or a digit; other punctuation is dropped without ending a word. Snake case joins
the words with underscores, proper case capitalises each and joins them with nothing.
-/

namespace ApiModel.Naming

open Text

def isSeparator (c : Char) : Bool := c == '-' || c == '_' || c == ' ' || c == '.'

/-- The small forms of a text with an underscore at every word boundary. `afterSmall` holds after
a small letter or a digit, where a capital starts a new word. -/
def marked (afterSmall : Bool) : List Char → List Char
  | [] => []
  | c :: rest =>
    if isUppercase c then
      (if afterSmall then ['_'] else []) ++ smallForm c ++ marked false rest
    else if isAlphanumeric c then c :: marked (isLowercase c || c.isDigit) rest
    else if isSeparator c then '_' :: marked false rest
    else marked afterSmall rest

/-- The pieces between underscores, empty ones left out. -/
def pieces : List Char → List (List Char)
  | [] => []
  | c :: rest =>
    if c = '_' then pieces rest
    else match rest, pieces rest with
      | [], _ => [[c]]
      | d :: _, ps =>
        if d = '_' then [c] :: ps
        else match ps with
          | [] => [[c]]
          | p :: ps => (c :: p) :: ps

def words (s : String) : List (List Char) :=
  pieces (marked false s.toList)

def snakeCase (s : String) : String :=
  String.ofList (['_'].intercalate (words s))

def capitalised : List Char → List Char
  | [] => []
  | c :: rest => capitalForm c ++ rest

def properCase (s : String) : String :=
  String.ofList ((words s).flatMap capitalised)

/-- The name of an anonymous type declared by `member` inside the type `parent`. -/
def nested (parent member : String) : String :=
  parent ++ properCase member

end ApiModel.Naming
