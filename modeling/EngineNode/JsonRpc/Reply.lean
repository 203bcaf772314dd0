import EngineNode.Engine.Error
import EngineNode.Json.Value

/-!
# Replies

A call is answered with its result or with an error, next to the identifier of the call. Errors
have a code, a message, and sometimes a text that says more.
-/

namespace EngineNode.JsonRpc

/-- The name that the caller gives a call. -/
inductive CallId where
  | null
  | number (n : UInt64)
  | string (value : String)
deriving DecidableEq, Repr

namespace CallId

def toJson : CallId → Json
  | .null => .null
  | .number n => .number (.nat n)
  | .string value => .str value

/-- Nulls, whole numbers from zero on, and texts name a call. -/
def ofJson? : Json → Option CallId
  | .null => some .null
  | .number (.nat n) => some (.number n)
  | .str value => some (.string value)
  | _ => none

end CallId

/-- What is wrong with the parameters of a call. -/
inductive ParamsError where
  | notAList (found : Json) (place : Json.Position)
  | unreadable (error : Json.ValueError) (place : Json.Position)
  | tooMany (most : Nat)
  | missing (index : Nat)
  | invalid (index : Nat) (error : DecodeError)

/-- A place in a message. -/
def placeText (place : Json.Position) : String :=
  " at line " ++ toString place.line ++ " column " ++ toString place.column

def ParamsError.message : ParamsError → String
  | .notAList found place =>
    "non-array args: invalid type: " ++ found.describe ++ ", expected a sequence" ++
      placeText place
  | .unreadable error place => "non-array args: " ++ error.message ++ placeText place
  | .tooMany most => "too many arguments, want at most " ++ toString most
  | .missing index => "missing value for required argument " ++ toString index
  | .invalid index error => "invalid argument " ++ toString index ++ ": " ++ error.message

/-- Why a call has no result. -/
inductive CallError where
  | parse
  | invalidRequest
  | unknownMethod (name : String)
  | params (error : ParamsError)
  | engine (error : EngineError)

namespace CallError

def code : CallError → Int
  | .parse => -32700
  | .invalidRequest => -32600
  | .unknownMethod _ => -32601
  | .params _ => -32602
  | .engine error => error.code

def message : CallError → String
  | .parse => "Parse error"
  | .invalidRequest => "Invalid request"
  | .unknownMethod name => "the method " ++ name ++ " does not exist/is not available"
  | .params error => error.message
  | .engine error => error.message

/-- What is said beside the message. -/
def details? : CallError → Option String
  | .engine error => error.details?
  | _ => none

/-- A small integer as a number. -/
def codeJson : Int → Json
  | .ofNat n => .number (.nat (UInt64.ofNat n))
  | .negSucc n => .number (.negative (UInt64.ofNat (n + 1)))

def toJson (error : CallError) : Json :=
  .obj <| [("code", codeJson error.code), ("message", .str error.message)] ++
    match error.details? with
    | some details => [("data", .str details)]
    | none => []

/-- The kind of a code in a log. -/
def kindText (error : CallError) : String :=
  match error.code with
  | -32700 => "ParseError"
  | -32600 => "InvalidRequest"
  | -32601 => "MethodNotFound"
  | -32602 => "InvalidParams"
  | -32603 => "InternalError"
  | code => "ServerError(" ++ toString code ++ ")"

/-- An error in a log. -/
def logText (error : CallError) : String :=
  "ErrorObject \x7b code: " ++ error.kindText ++ ", message: " ++ Text.quoted error.message ++
    ", data: " ++
    (match error.details? with
      | some details => "Some(RawValue(" ++ (Json.str details).render ++ "))"
      | none => "None") ++ " \x7d"

end CallError

/-- The answer to a call. -/
structure Reply where
  id : CallId
  outcome : Except CallError Json

namespace Reply

/-- The answer to something whose identifier cannot be read. -/
def anonymous (error : CallError) : Reply := ⟨.null, .error error⟩

def toJson (reply : Reply) : Json :=
  .obj [
    ("jsonrpc", .str "2.0"),
    match reply.outcome with
    | .ok result => ("result", result)
    | .error error => ("error", error.toJson),
    ("id", reply.id.toJson)]

end Reply

end EngineNode.JsonRpc
