import ApiModel.Host

/-! # Files in memory

A directory tree held as a value, and the host that runs on it.
-/

namespace ApiModel

inductive Entry where
  | directory
  | file (text : String)
  deriving DecidableEq, Repr

/-- A directory tree by the names on the way to each entry. -/
structure Files where
  entries : List (List String × Entry) := []
  deriving Repr

namespace Files

def entry? (files : Files) (place : List String) : Option Entry :=
  if place.isEmpty then some .directory else files.entries.lookup place

def put (files : Files) (place : List String) (entry : Entry) : Files :=
  ⟨(place, entry) :: files.entries.filter (·.1 != place)⟩

/-- The names of a path. A slash at the end stands for the directory that it names. -/
def names (path : String) : List String :=
  let parts := (path.splitOn "/").filter (!·.isEmpty)
  if path.endsWith "/" then parts ++ ["."] else parts

def nameLimit : Nat := 255

/-- The place that names lead to from `place`; all but the last have to be directories. -/
def walk (files : Files) (place : List String) : List String → Except FileFault (List String)
  | [] => .ok place
  | name :: rest =>
    match files.entry? place with
    | none => .error .notFound
    | some (.file _) => .error .notDirectory
    | some .directory =>
      if name = "." then walk files place rest
      else if name = ".." then walk files place.dropLast rest
      else if nameLimit < name.utf8ByteSize then .error .badName
      else walk files (place ++ [name]) rest

/-- The text of a file. Paths that start at a root lead out of the tree. -/
def read (files : Files) (path : String) : Except FileFault String := do
  if path.startsWith "/" then throw .notFound
  match files.entry? (← files.walk [] (names path)) with
  | some (.file text) => return text
  | some .directory => throw .isDirectory
  | none => throw .notFound

/-- The tree with the directories that names lead through, and the place of the last one. -/
def makeDirectories (files : Files) (place : List String) :
    List String → Except FileFault (Files × List String)
  | [] => .ok (files, place)
  | name :: rest =>
    if name = "." then makeDirectories files place rest
    else if name = ".." then makeDirectories files place.dropLast rest
    else if nameLimit < name.utf8ByteSize then .error .badName
    else
      let next := place ++ [name]
      match files.entry? next with
      | none => makeDirectories (files.put next .directory) next rest
      | some .directory => makeDirectories files next rest
      | some (.file _) => .error .notDirectory

def write (files : Files) (path text : String) : Except FileFault Files := do
  if path.startsWith "/" then throw .notFound
  match (names path).getLast? with
  | none | some "." | some ".." => throw .isDirectory
  | some name =>
    let (files, place) ← files.makeDirectories [] (names path).dropLast
    if nameLimit < name.utf8ByteSize then throw .badName
    match files.entry? (place ++ [name]) with
    | some .directory => throw .isDirectory
    | _ => return files.put (place ++ [name]) (.file text)

def host (answer : Url → Except String Http.Response) : Host (StateM Files) where
  readFile path := return (← get).read path
  writeFile path text := do
    match (← get).write path text with
    | .ok files =>
      set files
      return .ok ()
    | .error fault => return .error fault
  fetch url := return answer url

end Files

end ApiModel
