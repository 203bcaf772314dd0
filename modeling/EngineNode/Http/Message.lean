import EngineNode.Bytes
import EngineNode.Json.Printer

/-!
# HTTP messages

Requests with the headers that matter here, and responses.
-/

namespace EngineNode.Http

structure Request where
  method : String
  /-- The path with what follows it. -/
  target : String
  origin : Option String := none
  authorization : Option String := none
  body : Bytes := []
deriving DecidableEq

/-- The path alone. -/
def Request.path (request : Request) : String :=
  String.ofList (request.target.toList.takeWhile (· ≠ '?'))

inductive Status where
  | ok
  | unauthorized
  | notFound
  | methodNotAllowed
deriving DecidableEq, Repr

namespace Status

def code : Status → Nat
  | .ok => 200
  | .unauthorized => 401
  | .notFound => 404
  | .methodNotAllowed => 405

def text : Status → String
  | .ok => "200 OK"
  | .unauthorized => "401 Unauthorized"
  | .notFound => "404 Not Found"
  | .methodNotAllowed => "405 Method Not Allowed"

end Status

/-- What a response carries. -/
inductive Content where
  | none
  | plain (text : String)
  | document (json : Json)

namespace Content

/-- The type that is told in a header. -/
def type? : Content → Option String
  | .none => Option.none
  | .plain _ => some "text/plain; charset=utf-8"
  | .document _ => some "application/json"

/-- The text of the body. -/
def body : Content → String
  | .none => ""
  | .plain text => text
  | .document json => json.render

end Content

structure Response where
  status : Status
  content : Content := .none
  /-- The origin that may read the response. -/
  allowOrigin : Option String := none
  /-- Leaves the body out, as in the answer to a request for the head alone. -/
  withoutBody : Bool := false

/-- The body that is sent. -/
def Response.body (response : Response) : String :=
  if response.withoutBody then "" else response.content.body

/-! ### Origins -/

/-- Which origins may read the responses. -/
inductive AllowedOrigins where
  | any
  | only (origins : List String)
deriving DecidableEq, Repr

namespace AllowedOrigins

/-- Whether a text can stand in a header: no control characters but tabs. -/
def isHeaderText (text : String) : Bool :=
  text.toList.all fun c => (32 ≤ c.toNat && c.toNat ≠ 127) || c = '\t'

/-- The origins of a list. An asterisk allows all of them; else each must be able to stand in a
header. -/
def ofList? (origins : List String) : Option AllowedOrigins :=
  if origins.contains "*" then some .any
  else if origins.all isHeaderText then some (.only origins)
  else none

/-- What is told to a request from an origin. -/
def allow (allowed : AllowedOrigins) (origin : Option String) : Option String :=
  match allowed with
  | .any => some "*"
  | .only origins => origin.filter (origins.contains ·)

end AllowedOrigins

/-- The complaint about an origin that cannot stand in a header. -/
def originFault : String := "failed to parse header value"

end EngineNode.Http
