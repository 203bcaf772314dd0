import EngineNode.Forkchoice
import EngineNode.Log

/-!
# Halting on protocol changes

The rollup node tells which protocol versions are recommended and required. The node logs how it
stands to them, and an operator may let it halt when it is too far behind a required one.
-/

namespace EngineNode

/-- How far the node may fall behind before it halts. -/
inductive HaltLevel where
  | major
  | minor
  | patch
deriving DecidableEq, Repr

namespace HaltLevel

def all : List HaltLevel := [major, minor, patch]

def name : HaltLevel → String
  | .major => "major"
  | .minor => "minor"
  | .patch => "patch"

def ofName? (name : String) : Option HaltLevel := all.find? (·.name = name)

/-- The least distance that halts the node. -/
def severity : HaltLevel → Nat
  | .major => 3
  | .minor => 2
  | .patch => 1

end HaltLevel

/-- How far behind a comparison says that the node is. -/
def VersionComparison.severity : VersionComparison → Nat
  | .outdatedMajor => 3
  | .outdatedMinor => 2
  | .outdatedPatch => 1
  | _ => 0

/-- Whether a node that halts at a level, if at any, halts for a required version. -/
def shouldHalt (level : Option HaltLevel) (ours required : ProtocolVersion) : Bool :=
  level.any fun level => level.severity ≤ (ours.compare required).severity

namespace ProtocolVersion

/-- What is logged about a version that is recommended or required, as `term` says. -/
def supportLog (ours theirs : ProtocolVersion) (term : String) : LogEntry :=
  let versions := " (local: " ++ ours.toText ++ ", " ++ term ++ ": " ++ theirs.toText ++ ")"
  let ahead (kind : String) := "Ahead with " ++ kind ++ " " ++ term ++ " protocol version change"
  let outdated (kind : String) :=
    "Failed to support " ++ kind ++ " " ++ term ++ " protocol version change"
  match ours.compare theirs with
  | .aheadMajor => ⟨.info, ahead "major" ++ versions⟩
  | .aheadMinor | .aheadPatch | .aheadPrerelease => ⟨.debug, ahead "compatible" ++ versions⟩
  | .matching =>
    ⟨.debug, "Latest " ++ term ++ " protocol version is supported (local: " ++ ours.toText ++ ")"⟩
  | .outdatedMajor => ⟨.error, outdated "major" ++ versions⟩
  | .outdatedMinor => ⟨.warn, outdated "minor" ++ versions⟩
  | .outdatedPatch => ⟨.info, outdated "patch" ++ versions⟩
  | .outdatedPrerelease => ⟨.debug, outdated "pre-release" ++ versions⟩
  | .invalidVersion => ⟨.warn, "Received invalid protocol version" ++ versions⟩
  | .emptyVersion => ⟨.debug, "No " ++ term ++ " protocol version available to check"⟩

end ProtocolVersion

end EngineNode
