import EngineNode.Json.Printer
import EngineNode.Text.Quoted

/-!
# Decoding values of a type

A decoder reads a JSON value as a value of some type, or says why it is none. Records are decoded
from objects by the names of their fields, or from arrays by their positions. In an object the
first field that cannot be decoded decides, in the order of the object; fields that are missing
come after that.

`DecodeError.message` fixes the wording of every refusal.
-/

namespace EngineNode

/-- Why a text is no hexadecimal number or byte string. -/
inductive HexError where
  | missingMark
  | noDigits
  | leadingZeros
  | invalidDigit
  | tooLarge
  | oddLength
  /-- A character, given by its byte, that is no digit of a byte string. -/
  | invalidByteDigit (byte : UInt8) (index : Nat)
  /-- A character, given by its byte, that is no digit of a word of fixed width. -/
  | invalidWordDigit (byte : UInt8) (index : Nat)
deriving DecidableEq, Repr

def HexError.message : HexError → String
  | .missingMark => "string does not have hexadecimal prefix"
  | .noDigits => "string contains no hexadecimal digits"
  | .leadingZeros => "string contains leading zeros after hexadecimal prefix"
  | .invalidDigit => "invalid digit found in string"
  | .tooLarge => "number too large to fit in target type"
  | .oddLength => "odd number of digits"
  | .invalidByteDigit byte index =>
    "invalid character " ++ Text.quotedChar (Char.ofNat byte.toNat) ++ " at position " ++
      toString index
  | .invalidWordDigit byte index =>
    "invalid hex character: " ++ String.singleton (Char.ofNat byte.toNat) ++ ", at " ++
      toString index

/-- Why a JSON value is no value of a type. -/
inductive DecodeError where
  | missingField (name : String)
  | unknownVariant (name : String) (known : List String)
  | invalidType (found : Json) (expected : String)
  | invalidValue (found : Json) (expected : String)
  | invalidLength (length : Nat) (expected : String)
  | hex (error : HexError)

/-- How a value is called in a message. -/
def Json.describe : Json → String
  | .null => "null"
  | .bool value => "boolean `" ++ (if value then "true" else "false") ++ "`"
  | .number (.float bits) => "floating point `" ++ Json.Float64.render bits ++ "`"
  | .number n => "integer `" ++ n.render ++ "`"
  | .str text => "string " ++ Text.quoted text
  | .arr _ => "sequence"
  | .obj _ => "map"

/-- A list of alternatives in a message. -/
def oneOf : List String → String
  | [] => "there are no variants"
  | [a] => "`" ++ a ++ "`"
  | [a, b] => "`" ++ a ++ "` or `" ++ b ++ "`"
  | names => "one of " ++ String.intercalate ", " (names.map fun name => "`" ++ name ++ "`")

def DecodeError.message : DecodeError → String
  | .missingField name => "missing field `" ++ name ++ "`"
  | .unknownVariant name [] => "unknown variant `" ++ name ++ "`, there are no variants"
  | .unknownVariant name known => "unknown variant `" ++ name ++ "`, expected " ++ oneOf known
  | .invalidType found expected => "invalid type: " ++ found.describe ++ ", expected " ++ expected
  | .invalidValue found expected => "invalid value: " ++ found.describe ++ ", expected " ++ expected
  | .invalidLength length expected =>
    "invalid length " ++ toString length ++ ", expected " ++ expected
  | .hex error => error.message

/-- Reads a value of a type. -/
abbrev Decoder (α : Type) := Json → Except DecodeError α

namespace Decoder

def bool : Decoder Bool
  | .bool value => .ok value
  | json => .error (.invalidType json "a boolean")

def string : Decoder String
  | .str text => .ok text
  | json => .error (.invalidType json "a string")

/-- A number that is written as an integer. -/
def word : Decoder UInt64
  | .number (.nat value) => .ok value
  | .number (.negative magnitude) =>
    .error (.invalidValue (.number (.negative magnitude)) "u64")
  | json => .error (.invalidType json "u64")

/-- Null stands for no value. -/
def nullable {α : Type} (decode : Decoder α) : Decoder (Option α)
  | .null => .ok none
  | json => some <$> decode json

/-- A list of values; the first one that cannot be decoded decides. -/
def list {α : Type} (decode : Decoder α) : Decoder (List α)
  | .arr items => items.mapM decode
  | json => .error (.invalidType json "a sequence")

/-- One of several names; a name may also stand alone in an object, with null beside it. -/
def variant {α : Type} (variants : List (String × α)) : Decoder α
  | .str name => choose name
  | .obj [(name, value)] => do
    let chosen ← choose name
    match value with
    | .null => return chosen
    | value => throw (.invalidType value "unit")
  | .obj fields => .error (.invalidValue (.obj fields) "map with a single key")
  | json => .error (.invalidType json "string or map")
where
  choose (name : String) : Except DecodeError α :=
    match variants.lookup name with
    | some value => .ok value
    | none => .error (.unknownVariant name (variants.map Prod.fst))

end Decoder

/-- When a field of a record may be left out. -/
inductive Presence where
  /-- Never. -/
  | required
  /-- In an object, but not in an array. -/
  | optional
  /-- Always. -/
  | defaulted
deriving DecidableEq, Repr

/-- What a record expects under a name. -/
structure FieldRule where
  name : String
  presence : Presence
  /-- Refuses the values that cannot stand under the name. -/
  check : Json → Except DecodeError Unit

/-- Reads a record from its fields. -/
structure RecordDecoder (α : Type) where
  rules : List FieldRule
  build : (String → Option Json) → Except DecodeError α

namespace RecordDecoder

/-- A field that must be there. -/
def required {α : Type} (name : String) (decode : Decoder α) : RecordDecoder α :=
  ⟨[⟨name, .required, fun json => (fun _ => ()) <$> decode json⟩],
    fun field =>
      match field name with
      | some json => decode json
      | none => .error (.missingField name)⟩

/-- A field that may be null, and in an object may be missing. -/
def optional {α : Type} (name : String) (decode : Decoder α) : RecordDecoder (Option α) :=
  ⟨[⟨name, .optional, fun json => (fun _ => ()) <$> Decoder.nullable decode json⟩],
    fun field =>
      match field name with
      | some json => Decoder.nullable decode json
      | none => .ok none⟩

/-- A field that may be missing. -/
def defaulted {α : Type} (name : String) (decode : Decoder α) (value : α) : RecordDecoder α :=
  ⟨[⟨name, .defaulted, fun json => (fun _ => ()) <$> decode json⟩],
    fun field =>
      match field name with
      | some json => decode json
      | none => .ok value⟩

/-- A record without fields. -/
def pure {α : Type} (value : α) : RecordDecoder α := ⟨[], fun _ => .ok value⟩

/-- The fields of two records, in order. -/
def seq {α β : Type} (f : RecordDecoder (α → β)) (x : RecordDecoder α) : RecordDecoder β :=
  ⟨f.rules ++ x.rules, fun field => do
    let g ← f.build field
    let a ← x.build field
    return g a⟩

instance : Functor RecordDecoder where
  map f x := seq (pure f) x

instance : Seq RecordDecoder where
  seq f x := seq f (x ())

/-- A field with a value of its own in place of null, and where it is missing. -/
def withDefault {α : Type} (name : String) (decode : Decoder α) (value : α) : RecordDecoder α :=
  (fun given => given.getD value) <$> defaulted name (Decoder.nullable decode) none

/-- Checks the fields of an object in their order; names that are not known are passed over. -/
def checkObject (rules : List FieldRule) : List (String × Json) → Except DecodeError Unit
  | [] => .ok ()
  | (name, value) :: rest => do
    match rules.find? fun rule => rule.name = name with
    | some rule => rule.check value
    | none => .ok ()
    checkObject rules rest

/-- Checks the items of an array by their positions. `index` counts the rules before these. -/
def checkArray (expected : String) :
    (index : Nat) → List FieldRule → List Json → Except DecodeError Unit
  | _, [], _ => .ok ()
  | index, rule :: rules, [] =>
    if rule.presence = .defaulted then checkArray expected (index + 1) rules []
    else .error (.invalidLength index expected)
  | index, rule :: rules, item :: items => do
    rule.check item
    checkArray expected (index + 1) rules items

/-- Reads a record that messages call by the name of its type. -/
def decode {α : Type} (typeName : String) (record : RecordDecoder α) : Decoder α
  | .obj fields => do
    checkObject record.rules fields
    record.build fun name => fields.lookup name
  | .arr items => do
    let count := record.rules.length
    checkArray ("struct " ++ typeName ++ " with " ++ toString count ++
      (if count = 1 then " element" else " elements")) 0 record.rules items
    let named := (record.rules.map FieldRule.name).zip items
    let value ← record.build fun name => named.lookup name
    if items.length > count then
      throw (.invalidLength items.length "fewer elements in array")
    return value
  | json => .error (.invalidType json ("struct " ++ typeName))

end RecordDecoder

end EngineNode
