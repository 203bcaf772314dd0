import EngineNode.ChainConfig
import EngineNode.Yaml.Node

/-!
# Chain configurations in files

A file in YAML may hold a configuration for a chain of one's own. What it leaves out has its value
by default, and names that are not known are passed over.
-/

namespace EngineNode

namespace Yaml.Document

/-! ### Values -/

/-- The node that a node stands for. -/
def resolve (document : Document) : Node → Option Node
  | .alias anchor => document.anchors.lookup anchor
  | node => some node

/-- A scalar of any form as text. -/
def text? (document : Document) (node : Node) : Option String := do
  let .scalar _ _ text ← document.resolve node | none
  return text

/-- The number that digits of a base spell. -/
def digitsBelow? (base : Nat) (digits : List Char) : Option Nat :=
  if digits.isEmpty then none
  else
    digits.foldlM (fun n c => do
      let d ← Hex.digitValue? c
      if d < base then some (base * n + d) else none) 0

/-- An integer that is not negative: decimal without leading zeros, or behind the mark of another
base. A plus sign may stand in front of it. -/
def natural? (text : List Char) : Option Nat :=
  let unsigned :=
    match text with
    | '+' :: rest => rest
    | _ => text
  match unsigned with
  | '0' :: 'x' :: digits => digitsBelow? 16 digits
  | '0' :: 'o' :: digits => digitsBelow? 8 digits
  | '0' :: 'b' :: digits => digitsBelow? 2 digits
  | '0' :: _ :: _ => none
  | digits => digitsBelow? 10 digits

/-- A scalar that is an integer of 64 bits. Quotes make text of it. -/
def word? (document : Document) (node : Node) : Option UInt64 := do
  let .scalar tag style text ← document.resolve node | none
  unless style = .plain ∨ (style = .literalBlock ∧ tag = some "tag:yaml.org,2002:int") do failure
  let n ← natural? text.toList
  if n < UInt64.size then some (UInt64.ofNat n) else none

/-- Words that stand for no value. -/
def isNullWord (text : String) : Bool := text ∈ ["null", "Null", "NULL", "~"]

/-- A value that may be missing. A tag says that there is one, or that there is none. -/
def nullable? {α : Type} (document : Document) (decode : Node → Option α) (node : Node) :
    Option (Option α) := do
  let node ← document.resolve node
  match node with
  | .scalar (some "tag:yaml.org,2002:null") .plain text =>
    if isNullWord text then some none else none
  | .scalar none .plain text =>
    if text.isEmpty || isNullWord text then some none else some <$> decode node
  | _ => some <$> decode node

/-- The fields of a record. A scalar that is left out stands for a record without fields. -/
def fields? (document : Document) (node : Node) : Option (List (String × Node)) := do
  match ← document.resolve node with
  | .mapping pairs => pairs.mapM fun (key, value) => (·, value) <$> document.text? key
  | .scalar _ .plain "" => some []
  | _ => none

end Yaml.Document

/-- The fields of a record in a document. -/
structure YamlRecord where
  document : Yaml.Document
  fields : List (String × Yaml.Node)

namespace YamlRecord

/-- The record at a node; of the names that are known, none is given twice. -/
def ofNode? (document : Yaml.Document) (known : List String) (node : Yaml.Node) :
    Option YamlRecord := do
  let fields ← document.fields? node
  if known.any fun name => 1 < (fields.map Prod.fst).count name then none
  else some ⟨document, fields⟩

/-- A field, or its value by default when it is missing. -/
def read? {α : Type} (record : YamlRecord) (decode : Yaml.Document → Yaml.Node → Option α)
    (default : α) (name : String) : Option α :=
  match record.fields.lookup name with
  | some node => decode record.document node
  | none => some default

def text? (record : YamlRecord) : (default name : String) → Option String :=
  record.read? Yaml.Document.text?

def word? (record : YamlRecord) : (default : UInt64) → (name : String) → Option UInt64 :=
  record.read? Yaml.Document.word?

/-- A time, or none when the field is missing or null. -/
def time? (record : YamlRecord) (name : String) : Option (Option UInt64) :=
  record.read? (fun document => document.nullable? document.word?) none name

end YamlRecord

/-- The fee market of a rollup chain at a node. -/
def RollupConfig.ofYaml? (document : Yaml.Document) (node : Yaml.Node) : Option RollupConfig := do
  let record ← YamlRecord.ofNode? document (RollupConfig.record.rules.map FieldRule.name) node
  let default : RollupConfig := {}
  return {
    elasticity := ← record.word? default.elasticity "EIP1559_ELASTICITY"
    denominator := ← record.word? default.denominator "EIP1559_DENOMINATOR"
    denominatorCanyon := ←
      record.read? (fun document => document.nullable? document.word?) default.denominatorCanyon
        "EIP1559_DENOMINATOR_CANYON" }

namespace ChainConfig

/-- A number in hexadecimal digits. -/
def difficulty? (document : Yaml.Document) (node : Yaml.Node) : Option U256 := do
  let text ← document.text? node
  (Wire.decodeU256 (.str text)).toOption

/-- The configuration of a document; one without any part has every value by default. -/
def ofDocument? (document : Yaml.Document) : Option ChainConfig := do
  let default : ChainConfig := {}
  let known := ChainConfig.record.rules.map FieldRule.name
  let record ← YamlRecord.ofNode? document known (document.root.getD .empty)
  return {
    name := ← record.text? default.name "CONFIG_NAME"
    chainId := ← record.word? default.chainId "CHAIN_ID"
    terminalTotalDifficulty := ←
      record.read? (fun document => document.nullable? (difficulty? document)) none
        "TERMINAL_TOTAL_DIFFICULTY"
    shanghaiTime := ← record.time? "SHANGHAI_TIME"
    cancunTime := ← record.time? "CANCUN_TIME"
    pragueTime := ← record.time? "PRAGUE_TIME"
    osakaTime := ← record.time? "OSAKA_TIME"
    canyonTime := ← record.time? "CANYON_TIME"
    holoceneTime := ← record.time? "HOLOCENE_TIME"
    isthmusTime := ← record.time? "ISTHMUS_TIME"
    rollup := ←
      record.read? (fun document => document.nullable? (RollupConfig.ofYaml? document)) none
        "OPTIMISM" }

/-- The configuration that a file holds, or `none` when it is malformed. -/
def ofYaml? (text : String) : Option ChainConfig := do
  ofDocument? (← Yaml.Document.ofText? text)

end ChainConfig

end EngineNode
