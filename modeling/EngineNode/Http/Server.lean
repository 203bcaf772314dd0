import EngineNode.Auth.Token
import EngineNode.Http.Message
import EngineNode.JsonRpc.Exchange

/-!
# The server of the engine

A request passes through layers: requests that only ask for permission are answered at once, the
others are logged and counted, need a token, and reach the methods by POST on the root path.
-/

namespace EngineNode.Http

open JsonRpc (ServeM)

/-- What the server knows beside the node. -/
structure Server where
  allowed : AllowedOrigins
  secret : Secret
  /-- The time in seconds. -/
  now : Nat

/-- Why a request is turned away. -/
inductive Rejection where
  | missingToken
  | invalidToken (error : TokenError)
deriving DecidableEq, Repr

namespace Rejection

/-- What the caller is told. -/
def message : Rejection → String
  | .missingToken => "missing token"
  | .invalidToken _ => "invalid token"

/-- What is logged. -/
def logText : Rejection → String
  | .missingToken => "missing token"
  | .invalidToken error => "invalid token: " ++ error.message

end Rejection

/-- Whether a text has visible ASCII characters, spaces and tabs only. -/
def isVisible (text : String) : Bool :=
  text.toList.all fun c => (32 ≤ c.toNat && c.toNat < 127) || c = '\t'

/-- The word in front of a token. -/
def bearer : List Char := "Bearer ".toList

/-- Blanks around a token. -/
def isTokenBlank (c : Char) : Bool := c = ' ' || c = '\t'

/-- The token of a request. -/
def tokenOf? (request : Request) : Option String := do
  let value ← request.authorization
  guard (isVisible value)
  guard (bearer.isPrefixOf value.toList)
  let token := (value.toList.drop bearer.length).dropWhile isTokenBlank
  return String.ofList (token.reverse.dropWhile isTokenBlank).reverse

/-- Accepts requests with a token that verifies. -/
def Server.authorize (server : Server) (request : Request) : Except Rejection Unit :=
  match tokenOf? request with
  | none => .error .missingToken
  | some token =>
    match Token.verify server.secret server.now token with
    | .ok _ => .ok ()
    | .error error => .error (.invalidToken error)

/-- Answers a request that is allowed to come in. -/
def route (request : Request) : ServeM Response := do
  if request.path ≠ "/" then return { status := .notFound }
  else if request.method ≠ "POST" then return { status := .methodNotAllowed }
  else
    let response ← JsonRpc.answerBody request.body
    return { status := .ok, content := .document response.toJson }

/-- Logs the body of a request and that of its response, if that is wanted. A body that is not
UTF-8 is not logged. -/
def routeLoggingBodies (request : Request) : ServeM Response := do
  if (← get).hasFeature .logHttpBodies then
    if let some text := String.fromUTF8? ⟨request.body.toArray⟩ then
      NodeM.log .info ("request body: " ++ text)
    let response ← route request
    NodeM.log .info ("response body: " ++ response.body)
    NodeM.log .info ("finished logging bodies for " ++ request.target)
    return response
  else route request

/-- Turns requests without a valid token away. -/
def Server.guarded (server : Server) (request : Request) : ServeM Response := do
  match server.authorize request with
  | .ok _ => routeLoggingBodies request
  | .error rejection =>
    NodeM.log .debug ("HTTP request rejected: " ++ rejection.logText)
    return { status := .unauthorized, content := .plain rejection.message }

/-- A header in a log. -/
def headerText (value : String) : String :=
  String.ofList ('"' :: value.toUTF8.toList.flatMap (fun b =>
    let c := Char.ofNat b.toNat
    if c = '"' then ['\\', '"']
    else if isVisible (String.singleton c) then [c]
    else '\\' :: 'x' :: Hex.natDigits b.toNat) ++ ['"'])

/-- The headers of a request in a log. -/
def headersText (request : Request) : String :=
  let header (name : String) : Option String → List String
    | some value => ["\"" ++ name ++ "\": " ++ headerText value]
    | none => []
  "\x7b" ++ String.intercalate ", "
    (header "origin" request.origin ++ header "authorization" request.authorization) ++ "\x7d"

/-- Logs a request and its response if that is wanted, and counts those that were found. The
clock stands still meanwhile. -/
def Server.logged (server : Server) (request : Request) : ServeM Response := do
  let name := "(" ++ request.method ++ " " ++ request.target ++ ")"
  let features := (← get).features
  if features.contains .logHttpRequests then
    NodeM.log .info ("received request " ++ name ++ " from None")
  if features.contains .logHttpHeaders then
    NodeM.log .info ("request headers for " ++ name ++ ": " ++ headersText request)
  let response ← server.guarded request
  if features.contains .logHttpRequests then
    NodeM.log .info ("produced response (" ++ response.status.text ++ ") to " ++ name ++
      " for None in 0ns")
  if response.status ≠ .notFound then
    NodeM.count fun m =>
      { m with httpResponses := m.httpResponses.add (request.method ++ " " ++ request.path) }
  return response

/-- Answers a request. -/
def Server.serve (server : Server) (request : Request) : ServeM Response := do
  let allowOrigin := server.allowed.allow request.origin
  if request.method = "OPTIONS" then return { status := .ok, allowOrigin }
  let response ← server.logged request
  return { response with allowOrigin, withoutBody := request.method = "HEAD" }

end EngineNode.Http
