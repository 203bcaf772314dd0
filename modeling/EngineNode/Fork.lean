import EngineNode.Json.Decode

/-!
# Forks

The forks of the execution layer that the Engine API tells apart, in the order of their activation.
-/

namespace EngineNode

/-- A fork of the execution layer. -/
inductive Fork where
  | paris
  | shanghai
  | cancun
  | prague
  | osaka
deriving DecidableEq, Repr

namespace Fork

/-- All forks, the oldest first. -/
def all : List Fork := [paris, shanghai, cancun, prague, osaka]

/-- The place of a fork in the order of activation. -/
def index : Fork → Nat
  | .paris => 0
  | .shanghai => 1
  | .cancun => 2
  | .prague => 3
  | .osaka => 4

instance : LE Fork := ⟨fun a b => a.index ≤ b.index⟩

instance (a b : Fork) : Decidable (a ≤ b) := inferInstanceAs (Decidable (a.index ≤ b.index))

def name : Fork → String
  | .paris => "paris"
  | .shanghai => "shanghai"
  | .cancun => "cancun"
  | .prague => "prague"
  | .osaka => "osaka"

/-- The fork of a name; the case of ASCII letters does not matter. -/
def ofName? (text : String) : Option Fork :=
  all.find? fun fork => fork.name = text.map Char.toLower

def toJson (fork : Fork) : Json := .str fork.name

/-- The fork of a name in lower case. -/
def decode : Decoder Fork := Decoder.variant (all.map fun fork => (fork.name, fork))

end Fork

end EngineNode
