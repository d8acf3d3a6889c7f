import ApiModel.Url.Domain

/-! # URLs

Absolute URLs as browsers read them. Blanks around a URL and line breaks and tabs inside it do not
count. The web's own schemes need a host; other schemes may have an authority or a bare path.
-/

namespace ApiModel

structure Url where
  scheme : String
  /-- User, host and port, if there is an authority. -/
  authority : Option String
  path : String
  query : Option String
  fragment : Option String
  deriving DecidableEq, Repr

namespace Url

inductive Fault where
  | noScheme
  | emptyHost
  | invalidDomain
  | invalidHostCharacter
  | invalidPort
  | invalidIPv4
  | invalidIPv6
  deriving DecidableEq, Repr

def Fault.message : Fault → String
  | noScheme => "relative URL without a base"
  | emptyHost => "empty host"
  | invalidDomain => "invalid international domain name"
  | invalidHostCharacter => "invalid domain character"
  | invalidPort => "invalid port number"
  | invalidIPv4 => "invalid IPv4 address"
  | invalidIPv6 => "invalid IPv6 address"

def target (u : Url) : String :=
  u.path ++ (u.query.map ("?" ++ ·)).getD ""

def text (u : Url) : String :=
  u.scheme ++ ":" ++ (u.authority.map ("//" ++ ·)).getD "" ++ u.target ++
    (u.fragment.map ("#" ++ ·)).getD ""

private def hexDigit (n : Nat) : Char := "0123456789ABCDEF".toList.getD n '0'

private def percent (byte : UInt8) : List Char :=
  ['%', hexDigit (byte.toNat / 16), hexDigit (byte.toNat % 16)]

/-- Writes control characters, characters beyond ASCII and those in `more` as percent escapes. -/
def encodeChar (more : List Char) (c : Char) : List Char :=
  if c.toNat < 0x20 || 0x7F ≤ c.toNat || more.contains c then
    (String.singleton c).toUTF8.toList.flatMap percent
  else [c]

def encode (more : List Char) (cs : List Char) : List Char := cs.flatMap (encodeChar more)

def inPath : List Char := " \"<>\x60#?\x7b\x7d".toList

def inUser : List Char := inPath ++ "/:;=@[\\]^|".toList

def inQuery : List Char := " \"#<>".toList

def inFragment : List Char := " \"<>\x60".toList

private def hexValue? (c : Char) : Option Nat :=
  if c.isDigit then some (c.toNat - '0'.toNat)
  else if 'a' ≤ c ∧ c ≤ 'f' then some (c.toNat - 'a'.toNat + 10)
  else if 'A' ≤ c ∧ c ≤ 'F' then some (c.toNat - 'A'.toNat + 10)
  else none

def decodeBytes : List Char → List UInt8
  | '%' :: a :: b :: rest =>
    match hexValue? a, hexValue? b with
    | some x, some y => UInt8.ofNat (x * 16 + y) :: decodeBytes rest
    | _, _ => '%'.toNat.toUInt8 :: decodeBytes (a :: b :: rest)
  | c :: rest => (String.singleton c).toUTF8.toList ++ decodeBytes rest
  | [] => []

def decode? (cs : List Char) : Option (List Char) :=
  (String.fromUTF8? ⟨(decodeBytes cs).toArray⟩).map String.toList

/-- Whether the host is read as a domain or address; other schemes take it nearly as it is. -/
inductive SchemeKind where
  | web
  | file
  | other
  deriving DecidableEq, Repr

def SchemeKind.of (scheme : String) : SchemeKind :=
  if scheme = "file" then .file
  else if ["http", "https", "ws", "wss", "ftp"].contains scheme then .web
  else .other

def defaultPort? (scheme : String) : Option Nat :=
  if scheme = "http" || scheme = "ws" then some 80
  else if scheme = "https" || scheme = "wss" then some 443
  else if scheme = "ftp" then some 21
  else none

def bracketed? (cs : List Char) : Except Fault String :=
  if cs.getLast? = some ']' then
    match IPv6.parse? (cs.drop 1).dropLast with
    | some groups => .ok (IPv6.text groups)
    | none => .error .invalidIPv6
  else .error .invalidIPv6

def specialHost (cs : List Char) : Except Fault String :=
  if cs.head? = some '[' then bracketed? cs else
  match (decode? cs).bind Domain.ofChars? with
  | none => .error .invalidDomain
  | some domain =>
    if domain.isEmpty then .error .emptyHost
    else if IPv4.isMeant domain then
      match IPv4.parse? domain with
      | some address => .ok (IPv4.text address)
      | none => .error .invalidIPv4
    else .ok (String.ofList domain)

def opaqueHost (cs : List Char) : Except Fault String :=
  if cs.head? = some '[' then bracketed? cs
  else if cs.any fun c => "\x00\t\n\r #/:<>?@[\\]^|".toList.contains c then
    .error .invalidHostCharacter
  else .ok (String.ofList (encode [] cs))

def endsAuthority (kind : SchemeKind) (c : Char) : Bool :=
  c == '/' || c == '?' || c == '#' || (c == '\\' && kind != .other)

/-- The text of a host, up to a colon outside brackets. -/
def takeHost (inside : Bool) : List Char → List Char
  | [] => []
  | c :: rest =>
    if c = ':' && !inside then []
    else c :: takeHost (if c = '[' then true else if c = ']' then false else inside) rest

def userInfo (cs : List Char) : String :=
  let user := cs.takeWhile (· != ':')
  let password := (cs.drop user.length).drop 1
  let written := encode inUser user ++
    (if password.isEmpty then [] else ':' :: encode inUser password)
  if written.isEmpty then "" else String.ofList written ++ "@"

/-- The port after the colon, unless it is the one that goes without saying. -/
def port? (scheme : String) (cs : List Char) : Except Fault (Option Nat) :=
  if cs.any (!·.isDigit) then .error .invalidPort
  else
    let n := cs.foldl (fun n c => n * 10 + (c.toNat - '0'.toNat)) 0
    if 65535 < n then .error .invalidPort
    else .ok (if cs.isEmpty || defaultPort? scheme = some n then none else some n)

def splitUser (cs : List Char) : Option (List Char × List Char) :=
  let host := (cs.reverse.takeWhile (· != '@')).reverse
  if host.length = cs.length then none
  else some ((cs.take (cs.length - host.length)).dropLast, host)

/-- The normal form of an authority; `more` tells whether anything follows it. -/
def readAuthority (scheme : String) (kind : SchemeKind) (more : Bool) (cs : List Char) :
    Except Fault String := do
  let (user, rest) ← match splitUser cs with
    | none => .ok ("", cs)
    | some ([], []) => if more then .error .emptyHost else .ok ("", [])
    | some (user, rest) => .ok (userInfo user, rest)
  let hostText := takeHost false rest
  let after := rest.drop hostText.length
  if hostText.isEmpty && (kind = .web || !after.isEmpty || !user.isEmpty) then
    .error .emptyHost
  else
    let host ← if kind = .other then opaqueHost hostText else specialHost hostText
    let port ← port? scheme (after.drop 1)
    return user ++ host ++ (port.map fun n => ":" ++ toString n).getD ""

private def isDot (segment : String) : Bool :=
  [".", "%2e"].contains segment.toLower

private def isDoubleDot (segment : String) : Bool :=
  ["..", ".%2e", "%2e.", "%2e%2e"].contains segment.toLower

/-- Resolves segments that stand for the same or the parent directory. `done` comes last first. -/
def normalise (done : List String) : List String → List String
  | [] => done.reverse
  | segment :: rest =>
    if isDoubleDot segment then
      normalise (if rest.isEmpty then "" :: done.drop 1 else done.drop 1) rest
    else if isDot segment then normalise (if rest.isEmpty then "" :: done else done) rest
    else normalise (segment :: done) rest

def hierarchicalPath (kind : SchemeKind) (cs : List Char) : String :=
  let cs := if kind = .other then cs else cs.map fun c => if c = '\\' then '/' else c
  if cs.isEmpty then if kind = .other then "" else "/"
  else
    let cs := if cs.head? = some '/' then cs.drop 1 else cs
    let segments := (splitOn '/' cs).map fun s => String.ofList (encode inPath s)
    String.join ((normalise [] segments).map ("/" ++ ·))

def isTrimmed (c : Char) : Bool := c.toNat ≤ 0x20

/-- Blanks and controls at the ends, and tabs and line breaks anywhere, do not count. -/
def clean (cs : List Char) : List Char :=
  (((cs.dropWhile isTrimmed).reverse.dropWhile isTrimmed).reverse).filter fun c =>
    c != '\t' && c != '\n' && c != '\r'

def scheme? (cs : List Char) : Option (String × List Char) :=
  let isSchemeChar (c : Char) : Bool := c.isAlphanum || c == '+' || c == '-' || c == '.'
  let scheme := cs.takeWhile isSchemeChar
  match scheme, cs.drop scheme.length with
  | c :: _, ':' :: rest =>
    if c.isAlpha then some (String.ofList (scheme.map Char.toLower), rest) else none
  | _, _ => none

def splitAtMark (mark : Char) (cs : List Char) : List Char × Option (List Char) :=
  let before := cs.takeWhile (· != mark)
  match cs.drop before.length with
  | _ :: after => (before, some after)
  | [] => (before, none)

structure Parts where
  path : List Char
  query : Option String
  fragment : Option String

def parts (kind : SchemeKind) (cs : List Char) : Parts :=
  let (cs, fragment) := splitAtMark '#' cs
  let (path, query) := splitAtMark '?' cs
  let encoded := if kind = .other then inQuery else '\'' :: inQuery
  { path
    query := query.map fun q => String.ofList (encode encoded q)
    fragment := fragment.map fun f => String.ofList (encode inFragment f) }

def withAuthority (scheme : String) (kind : SchemeKind) (cs : List Char) : Except Fault Url := do
  let authorityText := cs.takeWhile fun c => !endsAuthority kind c
  let rest := cs.drop authorityText.length
  let p := parts kind rest
  let authority ← readAuthority scheme kind (!rest.isEmpty) authorityText
  return ⟨scheme, some authority, hierarchicalPath kind p.path, p.query, p.fragment⟩

/-- A file URL has no user and no port; its host may be missing, or a drive letter in its place. -/
def fileUrl (cs : List Char) : Except Fault Url := do
  let isSlash (c : Char) : Bool := c == '/' || c == '\\'
  let (hostText, rest) := match cs with
    | a :: b :: rest =>
      if isSlash a && isSlash b then
        let host := rest.takeWhile fun c => !endsAuthority .file c
        match host with
        | [d, m] => if d.isAlpha && (m = ':' || m = '|') then ([], rest) else (host, rest.drop 2)
        | host => (host, rest.drop host.length)
      else ([], cs)
    | cs => ([], cs)
  let p := parts .file rest
  let host ← if hostText.isEmpty then .ok "" else specialHost hostText
  return ⟨"file", some (if host = "localhost" then "" else host), hierarchicalPath .file p.path,
    p.query, p.fragment⟩

def parse (text : String) : Except Fault Url :=
  match scheme? (clean text.toList) with
  | none => .error .noScheme
  | some (scheme, rest) =>
    match SchemeKind.of scheme with
    | .web => withAuthority scheme .web (rest.dropWhile fun c => c == '/' || c == '\\')
    | .file => fileUrl rest
    | .other =>
      match rest with
      | '/' :: '/' :: rest => withAuthority scheme .other rest
      | rest =>
        let p := parts .other rest
        let path := if p.path.head? = some '/' then hierarchicalPath .other p.path
          else String.ofList (encode [] p.path)
        .ok ⟨scheme, none, path, p.query, p.fragment⟩

end Url

end ApiModel
