import EngineNode.Bytes

/-!
# JSON values

Objects keep the order of their fields. Numbers are 64-bit words, negative 64-bit integers, or
floating point numbers, which are kept by their bits.
-/

namespace EngineNode

/-- The number of a JSON document. -/
inductive JsonNumber where
  | nat (value : UInt64)
  /-- The negative integer `-magnitude`. -/
  | negative (magnitude : UInt64)
  | float (bits : UInt64)
deriving DecidableEq, Repr

/-- A JSON document. -/
inductive Json where
  | null
  | bool (value : Bool)
  | number (value : JsonNumber)
  | str (text : String)
  | arr (items : List Json)
  | obj (fields : List (String × Json))

namespace Json

instance : Inhabited Json := ⟨.null⟩

/-- A small integer. -/
def ofNat (n : Nat) : Json := .number (.nat (UInt64.ofNat n))

/-- An absent value is written as null. -/
def ofOption {α : Type} (toJson : α → Json) : Option α → Json
  | some value => toJson value
  | none => .null

/-- A list of values. -/
def ofList {α : Type} (toJson : α → Json) (values : List α) : Json := .arr (values.map toJson)

/-- The field of an object; null where there is none. -/
def getField (json : Json) (name : String) : Json :=
  match json with
  | .obj fields => (fields.lookup name).getD .null
  | _ => .null

/-- The field of an object, if it is there at all. -/
def getField? (json : Json) (name : String) : Option Json :=
  match json with
  | .obj fields => fields.lookup name
  | _ => none

/-- Adds a field behind the others, or replaces the one of that name in its place. -/
def setField (name : String) (value : Json) : List (String × Json) → List (String × Json)
  | [] => [(name, value)]
  | field :: rest =>
    if field.1 = name then (name, value) :: rest else field :: setField name value rest

end Json

end EngineNode
