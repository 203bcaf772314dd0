import EngineNode.Auth.Secret
import EngineNode.Hash.Sha256
import EngineNode.Json.Decode
import EngineNode.Json.Value
import EngineNode.Text.Base64

/-!
# Tokens

The consensus layer proves with each request that it knows the shared secret: it sends a token that
is signed with it and was issued about now. A token has three parts with points between them: a
header that names the algorithm, claims, and a tag over both.

Times are counts of seconds.
-/

namespace EngineNode

/-- The claims of a token that matter here. -/
structure Claims where
  issuedAt : Option Nat := none
  expiresAt : Option Nat := none
  notBefore : Option Nat := none
deriving DecidableEq, Repr

/-- Why a token is not accepted. -/
inductive TokenError where
  | compactEncoding
  | invalidCharacters
  | invalidJson
  | notAToken
  | algorithmMismatch
  | invalidTag
  | clockDrift
  | tooOld
  | notValidYet
  | expired
  | missingIssuedAt
deriving DecidableEq, Repr

def TokenError.message : TokenError → String
  | .compactEncoding => "JWT compact encoding error"
  | .invalidCharacters => "Invalid input"
  | .invalidJson => "invalid JSON"
  | .notAToken => "Not a JWT token"
  | .algorithmMismatch => "JWT algorithm mismatch"
  | .invalidTag => "Authentication tag didn't verify"
  | .clockDrift => "Clock drift detected"
  | .tooOld => "Token is too old"
  | .notValidYet => "Token not valid yet"
  | .expired => "Token has expired"
  | .missingIssuedAt => "token has no issued-at claim"

/-- By how many seconds the clocks of both sides may differ, and how old a token may be. -/
def clockTolerance : Nat := 60

namespace Claims

def toJson (c : Claims) : Json :=
  let field (name : String) : Option Nat → List (String × Json)
    | some time => [(name, .ofNat time)]
    | none => []
  .obj (field "iat" c.issuedAt ++ field "exp" c.expiresAt ++ field "nbf" c.notBefore)

def record : RecordDecoder Claims :=
  let time (name : String) : RecordDecoder (Option Nat) :=
    .optional name fun json => UInt64.toNat <$> Decoder.word json
  Claims.mk <$> time "iat" <*> time "exp" <*> time "nbf"

def ofJson : Decoder Claims := record.decode "JWTClaims"

/-- Accepts claims at a time. -/
def validate (c : Claims) (now : Nat) : Except TokenError Unit := do
  if c.issuedAt.any (now + clockTolerance < ·) then throw .clockDrift
  if c.issuedAt.any (· + clockTolerance < now) then throw .tooOld
  if c.notBefore.any (now + clockTolerance < ·) then throw .notValidYet
  if c.expiresAt.any (· + clockTolerance < now) then throw .expired
  if c.issuedAt.isNone then throw .missingIssuedAt

end Claims

namespace Token

/-- The algorithm of the tags. -/
def algorithmName : String := "HS256"

def encodeText (text : String) : String := String.ofList (Base64.encode text.toUTF8.toList)

/-- The header of a token. -/
def headerJson (algorithm : String) : Json := .obj [("alg", .str algorithm), ("typ", .str "JWT")]

/-- The tag over the first two parts. -/
def tag (secret : Bytes) (signed : String) : Bytes :=
  (hmacSha256 secret signed.toUTF8.toList).toList

/-- The token of some claims, whose header names an algorithm. -/
def sign (secret : Bytes) (algorithm : String) (claims : Claims) : String :=
  let signed := encodeText (headerJson algorithm).render ++ "." ++ encodeText claims.toJson.render
  signed ++ "." ++ String.ofList (Base64.encode (tag secret signed))

/-- The value of a part that is JSON. -/
def readPart (part : String) : Except TokenError Json :=
  match Base64.decode? part.toList with
  | none => .error .invalidCharacters
  | some bytes =>
    match String.fromUTF8? ⟨bytes.toArray⟩ >>= Json.parse? with
    | some json => .ok json
    | none => .error .invalidJson

/-- The names of the algorithm and of the type in a header. -/
def headerRecord : RecordDecoder (String × Option String) :=
  Prod.mk <$> .required "alg" Decoder.string <*> .optional "typ" Decoder.string

/-- Whether a type is one of tokens. -/
def isTokenType (type : String) : Bool :=
  let upper := type.map Char.toUpper
  upper = "JWT" || upper.endsWith "+JWT"

/-- Accepts a header that names our algorithm. -/
def checkHeader (header : Json) : Except TokenError Unit :=
  match headerRecord.decode "JWTHeader" header with
  | .error _ => .error .invalidJson
  | .ok (algorithm, type) =>
    if type.any (!isTokenType ·) then .error .notAToken
    else if algorithm = algorithmName then .ok ()
    else .error .algorithmMismatch

/-- Accepts the tag of the first two parts. -/
def checkTag (secret : Secret) (signed given : String) : Except TokenError Unit :=
  match Base64.decode? given.toList with
  | none => .error .invalidCharacters
  | some bytes => if bytes = tag secret.toList signed then .ok () else .error .invalidTag

/-- Accepts a token that was signed with the secret and issued about now. -/
def verify (secret : Secret) (now : Nat) (token : String) : Except TokenError Unit := do
  match token.splitOn "." with
  | [header, claims, given] =>
    checkHeader (← readPart header)
    checkTag secret (header ++ "." ++ claims) given
    match Claims.ofJson (← readPart claims) with
    | .error _ => throw .invalidJson
    | .ok claims => claims.validate now
  | _ => throw .compactEncoding

end Token

end EngineNode
