import EngineNode.JsonRpc.Call
import EngineNode.JsonRpc.Request

/-!
# Answering a body

The body of a message holds one call or a list of calls. The calls of a list are answered one after
another; one that is no request has an answer of its own and leaves the others alone.
-/

namespace EngineNode.JsonRpc

open Json (Raw)

/-- A number left its fixed width in the middle of a call: the message stays unanswered. -/
inductive Breakdown where
  | overflow
deriving DecidableEq, Repr

/-- A program of the node that may break down. -/
abbrev ServeM := ExceptT Breakdown NodeM

/-- The answer to a message. -/
inductive Response where
  | single (reply : Reply)
  | batch (replies : List Reply)

def Response.toJson : Response → Json
  | .single reply => reply.toJson
  | .batch replies => .ofList Reply.toJson replies

/-- Counts a call of a method, and runs it. Names that are no methods are not counted. -/
def countedDispatch (name : String) (params : Params) : NodeM (Except CallError Json) := do
  if (Method.ofName? name).isSome then
    NodeM.count fun m => { m with requests := m.requests.add name }
    let outcome ← (dispatch name params).run
    NodeM.count fun m => { m with responses := m.responses.add name }
    return outcome
  else (dispatch name params).run

/-- Answers a request. -/
def answerRequest (request : Request) : ServeM Reply := do
  match Params.ofOption request.params with
  | .error error => return ⟨request.id, .error (.params error)⟩
  | .ok params =>
    NodeM.logFeature .logEngineApiCalls (request.method ++ " called with " ++ params.logText)
    match ← countedDispatch request.method params with
    | .ok result =>
      NodeM.logFeature .logEngineApiCalls (request.method ++ " returned " ++ result.render)
      return ⟨request.id, .ok result⟩
    | .error (.engine .overflow) => throw .overflow
    | .error error =>
      NodeM.logFeature .logEngineApiCalls (request.method ++ " failed: " ++ error.logText)
      return ⟨request.id, .error error⟩

/-- Answers a call, or says that it is none. -/
def answerCall (raw : Raw) : ServeM Reply :=
  match Request.ofRaw? raw with
  | some request => answerRequest request
  | none => return ⟨Request.idOfInvalid raw, .error .invalidRequest⟩

/-- Answers the calls of a list in order. -/
def answerCalls : List Raw → ServeM (List Reply)
  | [] => return []
  | raw :: rest => do
    let reply ← answerCall raw
    return reply :: (← answerCalls rest)

/-- Answers a document. -/
def answerDocument : Raw → ServeM Response
  | .array _ [] => return .single (.anonymous .invalidRequest)
  | .array _ items => .batch <$> answerCalls items
  | raw => .single <$> answerCall raw

/-- Answers a text. -/
def answerText (text : String) : ServeM Response :=
  match Raw.parse? text.toList with
  | some raw => answerDocument raw
  | none => return .single (.anonymous .parse)

/-- Answers a body; one that is not UTF-8 is no document. -/
def answerBody (body : Bytes) : ServeM Response :=
  match String.fromUTF8? ⟨body.toArray⟩ with
  | some text => answerText text
  | none => return .single (.anonymous .parse)

end EngineNode.JsonRpc
