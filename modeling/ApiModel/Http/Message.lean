import ApiModel.Http.Status
import ApiModel.Url.Parser

/-! # HTTP messages

Requests for a document and the responses to them, as far as loading looks at them.
-/

namespace ApiModel.Http

structure Response where
  status : Nat
  contentType : Option String
  body : String
  deriving DecidableEq, Repr

namespace Response

def content (r : Response) : String := if hasNoBody r.status then "" else r.body

/-- The content type; one that is not plain ASCII does not count. -/
def plainType (r : Response) : String :=
  let type := r.contentType.getD ""
  if type.toList.all fun c => c = '\t' || (32 ≤ c.toNat && c.toNat < 127) then type else ""

/-- The name under which the content is decoded: the content type decides before the path. -/
def contentName (r : Response) (url : Url) : String :=
  let type := r.plainType
  if type.contains "json" then "document.json"
  else if type.contains "yaml" then "document.yaml"
  else url.path

end Response

def userAgent : String := "swagger-modeler/0.1.0"

def requestLine (url : Url) : String := "GET " ++ url.target ++ " HTTP/1.1"

end ApiModel.Http
