import EngineNode.JsonRpc.Reply

/-!
# Requests

A request is an object with the version of the protocol, an identifier, the name of a method and,
if there are any, parameters. Other fields are passed over; none of the four may occur twice. An
array of the four in this order is a request too. Parameters stay unread until the call.
-/

namespace EngineNode.JsonRpc

open Json (Raw)

structure Request where
  id : CallId
  method : String
  params : Option Raw

/-- The text that a tree stands for. -/
def textOf? : Raw → Option String
  | .string start content => (Json.readString start content).toOption
  | _ => none

/-- The value that a tree stands for. -/
def valueOf? (raw : Raw) : Option Json := (raw.toJson Json.maxDepth).toOption

/-- The fields of an object by their names, if the names can be read and none of some occurs
twice. -/
def fieldsOf? (unique : List String) (fields : List ((Json.Position × List Char) × Raw)) :
    Option (List (String × Raw)) := do
  let named ← fields.mapM fun ((start, name), value) => do
    return (← (Json.readString start name).toOption, value)
  if unique.all fun name => (named.filter (·.1 = name)).length ≤ 1 then some named else none

namespace Request

/-- The request of its parts. Null parameters are none. -/
def ofParts? (version id method : Raw) (params : Option Raw) : Option Request := do
  guard (textOf? version = some "2.0")
  let id ← valueOf? id >>= CallId.ofJson?
  let method ← textOf? method
  let params :=
    match params with
    | some (.null _) => none
    | params => params
  return { id, method, params }

def ofRaw? : Raw → Option Request
  | .object _ fields => do
    let named ← fieldsOf? ["jsonrpc", "id", "method", "params"] fields
    ofParts? (← named.lookup "jsonrpc") (← named.lookup "id") (← named.lookup "method")
      (named.lookup "params")
  | .array _ [version, id, method, params] => ofParts? version id method (some params)
  | _ => none

/-- The identifier of something that is no request; null where there is none. -/
def idOfInvalid : Raw → CallId
  | .object _ fields =>
    (do
      let named ← fieldsOf? ["id"] fields
      let id ← named.lookup "id"
      valueOf? id >>= CallId.ofJson?).getD .null
  | .array _ [id] => (valueOf? id >>= CallId.ofJson?).getD .null
  | _ => .null

end Request

end EngineNode.JsonRpc
