import EngineNode.Json.Float

/-!
# Writing JSON documents

`Json.render` writes a document without blanks, fields in the order of the object.
-/

namespace EngineNode.Json

/-- Two hexadecimal digits of a control character. -/
def controlEscape (c : Char) : List Char :=
  ['\\', 'u', '0', '0', Nat.digitChar (c.toNat / 16), Nat.digitChar (c.toNat % 16)]

/-- One character of a string. -/
def escapeChar (c : Char) : List Char :=
  if c = '"' then ['\\', '"']
  else if c = '\\' then ['\\', '\\']
  else if c = '\x08' then ['\\', 'b']
  else if c = '\t' then ['\\', 't']
  else if c = '\n' then ['\\', 'n']
  else if c = '\x0c' then ['\\', 'f']
  else if c = '\r' then ['\\', 'r']
  else if c.toNat < 32 then controlEscape c
  else [c]

/-- A string with its quotes. -/
def renderString (text : String) : String :=
  String.ofList ('"' :: text.toList.flatMap escapeChar ++ ['"'])

end EngineNode.Json

namespace EngineNode

/-- The text of a number. -/
def JsonNumber.render : JsonNumber → String
  | .nat value => toString value.toNat
  | .negative magnitude => "-" ++ toString magnitude.toNat
  | .float bits => Json.Float64.render bits

end EngineNode

namespace EngineNode.Json

mutual

/-- The text of a document. -/
def render : Json → String
  | .null => "null"
  | .bool value => if value then "true" else "false"
  | .number value => value.render
  | .str text => renderString text
  | .arr items => "[" ++ String.intercalate "," (renderItems items) ++ "]"
  | .obj fields => "\x7b" ++ String.intercalate "," (renderFields fields) ++ "\x7d"

def renderItems : List Json → List String
  | [] => []
  | item :: rest => render item :: renderItems rest

def renderFields : List (String × Json) → List String
  | [] => []
  | (name, value) :: rest => (renderString name ++ ":" ++ render value) :: renderFields rest

end

end EngineNode.Json
