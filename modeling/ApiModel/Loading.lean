import ApiModel.Document.Decoding
import ApiModel.Document.Reader
import ApiModel.Host

/-! # Loading documents

A source is a URL of the web or the path of a file. What is found there is decoded and read.
-/

namespace ApiModel.Loading

inductive Fault where
  | file (reason : FileFault)
  | decoding (reason : DecodingFault)
  | document (reason : Document.Fault)
  | badUrl (source : String) (reason : Url.Fault)
  | notWeb (source : String)
  | unreachable (url : Url) (reason : String)
  | status (url : Url) (code : Nat)

/-- The wording of a failed load; of syntax errors only the notation is told. -/
def Fault.message : Fault → String
  | file reason => "I/O error: " ++ reason.message
  | decoding (.wrong .json) => "JSON parsing error"
  | decoding (.wrong .yaml) => "YAML parsing error"
  | decoding .neither => "Load error: Failed to parse Swagger document: <detail>"
  | document (.mismatch reason) => "JSON parsing error: " ++ reason.message
  | document reason => "Load error: " ++ reason.message
  | badUrl source reason => s!"Load error: Invalid document URL '{source}': {reason.message}"
  | notWeb source => s!"Load error: HttpSpecLoader only handles HTTP(S) URLs, got: {source}"
  | unreachable url reason =>
    s!"Load error: Failed to fetch Swagger document from {url.text}: {reason}"
  | status url code =>
    s!"Load error: HTTP {Http.statusText code} when fetching {url.text}"

def ofText (name text : String) : Except Fault Document := do
  let value ← (decode name text).mapError .decoding
  (Document.read value).mapError .document

def ofResponse (url : Url) (response : Http.Response) : Except Fault Document :=
  if Http.isSuccess response.status then ofText (response.contentName url) response.content
  else .error (.status url response.status)

def webUrl (source : String) : Except Fault Url := do
  let url ← (Url.parse source).mapError (.badUrl source)
  if url.scheme = "http" || url.scheme = "https" then return url else throw (.notWeb source)

variable {m : Type → Type} [Monad m]

def fromWeb (host : Host m) (source : String) : m (Except Fault Document) := do
  match webUrl source with
  | .error fault => return .error fault
  | .ok url =>
    match ← host.fetch url with
    | .error reason => return .error (.unreachable url reason)
    | .ok response => return ofResponse url response

def fromFile (host : Host m) (path : String) : m (Except Fault Document) := do
  match ← host.readFile path with
  | .error reason => return .error (.file reason)
  | .ok text => return ofText path text

/-- Whether a source is asked for over HTTP; all others are paths. -/
def isWeb (source : String) : Bool :=
  source.startsWith "http://" || source.startsWith "https://"

def load (host : Host m) (source : String) : m (Except Fault Document) :=
  if isWeb source then fromWeb host source else fromFile host source

end ApiModel.Loading
