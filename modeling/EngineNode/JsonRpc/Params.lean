import EngineNode.JsonRpc.Reply

/-!
# Parameters of a call

Parameters are a list of values. Those that are missing at its end count as null.
-/

namespace EngineNode.JsonRpc

open Json (Raw Position)

structure Params where
  values : List Json := []

namespace Params

/-- The bytes that characters take. -/
def byteCount (chars : List Char) : Nat := chars.foldr (fun c count => c.utf8Size + count) 0

/-- Where the error stands in a text that starts with the parameters. -/
def unreadable (raw : Raw) : Json.ReadError → ParamsError
  | (error, place) => .unreadable error (place.relativeTo raw.start)

/-- The parameters of a tree. In an error about something that is no list the place is behind it,
but for an object it is in front of it. -/
def ofRaw (raw : Raw) : Except ParamsError Params :=
  match raw with
  | .null _ => .ok {}
  | .object _ _ => .error (.notAList (.obj []) .zero)
  | .bool _ value =>
    .error (.notAList (.bool value) (Position.zero.shift (if value then 4 else 5)))
  | .number start literal =>
    match Json.readNumber start literal with
    | .ok n => .error (.notAList (.number n) (Position.zero.shift literal.length))
    | .error error => .error (unreadable raw error)
  | .string start content =>
    match Json.readString start content with
    | .ok text => .error (.notAList (.str text) (Position.zero.shift (byteCount content + 2)))
    | .error error => .error (unreadable raw error)
  | .array _ _ =>
    match raw.toJson Json.maxDepth with
    | .ok (.arr values) => .ok ⟨values⟩
    | .ok json => .error (.notAList json .zero)
    | .error error => .error (unreadable raw error)

/-- A call without parameters has an empty list. -/
def ofOption : Option Raw → Except ParamsError Params
  | some raw => ofRaw raw
  | none => .ok {}

/-- Refuses more parameters than a method has. -/
def checkCount (params : Params) (most : Nat) : Except ParamsError Unit :=
  if most < params.values.length then .error (.tooMany most) else .ok ()

/-- A parameter that may be null. -/
def optional {α : Type} (params : Params) (index : Nat) (decode : Decoder α) :
    Except ParamsError (Option α) :=
  match params.values[index]? with
  | none | some .null => .ok none
  | some json =>
    match decode json with
    | .ok value => .ok (some value)
    | .error error => .error (.invalid index error)

/-- A parameter that may not be null. -/
def required {α : Type} (params : Params) (index : Nat) (decode : Decoder α) :
    Except ParamsError α := do
  match ← params.optional index decode with
  | some value => return value
  | none => throw (.missing index)

/-- The only parameter of a method. -/
def single {α : Type} (params : Params) (decode : Decoder α) : Except ParamsError α := do
  params.checkCount 1
  params.required 0 decode

/-! ### In logs -/

mutual

/-- A value in a log. -/
def valueText : Json → String
  | .null => "Null"
  | .bool value => "Bool(" ++ (if value then "true" else "false") ++ ")"
  | .number n => "Number(" ++ n.render ++ ")"
  | .str text => "String(" ++ Text.quoted text ++ ")"
  | .arr items => "Array [" ++ String.intercalate ", " (valueTexts items) ++ "]"
  | .obj fields => "Object \x7b" ++ String.intercalate ", " (fieldTexts fields) ++ "\x7d"

def valueTexts : List Json → List String
  | [] => []
  | item :: rest => valueText item :: valueTexts rest

def fieldTexts : List (String × Json) → List String
  | [] => []
  | (name, value) :: rest => (Text.quoted name ++ ": " ++ valueText value) :: fieldTexts rest

end

def logText (params : Params) : String :=
  "Params([" ++ String.intercalate ", " (valueTexts params.values) ++ "])"

end Params

end EngineNode.JsonRpc
