import EngineNode.Text.Quoted

/-!
# Protocol versions

A version fills 32 bytes: its type, seven reserved bytes, eight bytes that name a build, and four
numbers of four bytes. A full release has zero in place of the pre-release number and comes after
all its pre-releases.
-/

namespace EngineNode

/-- A version of the rollup protocol. -/
structure ProtocolVersion where
  bytes : Hash
deriving DecidableEq

/-- How one version stands to another. -/
inductive VersionComparison where
  | aheadMajor
  | outdatedMajor
  | aheadMinor
  | outdatedMinor
  | aheadPatch
  | outdatedPatch
  | aheadPrerelease
  | outdatedPrerelease
  | matching
  /-- Versions of different types or builds cannot be compared. -/
  | invalidVersion
  | emptyVersion
deriving DecidableEq, Repr

def VersionComparison.name : VersionComparison → String
  | .aheadMajor => "AheadMajor"
  | .outdatedMajor => "OutdatedMajor"
  | .aheadMinor => "AheadMinor"
  | .outdatedMinor => "OutdatedMinor"
  | .aheadPatch => "AheadPatch"
  | .outdatedPatch => "OutdatedPatch"
  | .aheadPrerelease => "AheadPrerelease"
  | .outdatedPrerelease => "OutdatedPrerelease"
  | .matching => "Matching"
  | .invalidVersion => "InvalidVersion"
  | .emptyVersion => "EmptyVersion"

namespace ProtocolVersion

/-- A version of type zero. -/
def ofParts (build : FixedBytes 8) (major minor patch prerelease : UInt32) : ProtocolVersion :=
  ⟨List.replicate 8 0 ++ build.toList ++ Bytes.ofNatPadded 4 major.toNat ++
    Bytes.ofNatPadded 4 minor.toNat ++ Bytes.ofNatPadded 4 patch.toNat ++
    Bytes.ofNatPadded 4 prerelease.toNat, by simp [build.length_toList]⟩

/-- The newest version that this node supports. -/
def supported : ProtocolVersion := ofParts (.zero 8) 9 0 0 0

/-- Some of the bytes. -/
def slice (v : ProtocolVersion) (start length : Nat) : Bytes :=
  (v.bytes.toList.drop start).take length

def versionType (v : ProtocolVersion) : UInt8 := v.bytes.toList.headD 0

def build (v : ProtocolVersion) : Bytes := v.slice 8 8

def major (v : ProtocolVersion) : Nat := Bytes.toNat (v.slice 16 4)

def minor (v : ProtocolVersion) : Nat := Bytes.toNat (v.slice 20 4)

def patch (v : ProtocolVersion) : Nat := Bytes.toNat (v.slice 24 4)

def prerelease (v : ProtocolVersion) : Nat := Bytes.toNat (v.slice 28 4)

def isEmpty (v : ProtocolVersion) : Bool := v.bytes.isZero

/-- Compares two pre-release numbers, of which zero is the greatest. -/
def comparePrerelease (ours theirs : Nat) : VersionComparison :=
  if ours = theirs then .matching
  else if ours = 0 then .aheadPrerelease
  else if theirs = 0 then .outdatedPrerelease
  else if ours < theirs then .outdatedPrerelease
  else .aheadPrerelease

/-- How our version stands to theirs. The first number that differs decides. -/
def compare (ours theirs : ProtocolVersion) : VersionComparison :=
  if ours.isEmpty || theirs.isEmpty then .emptyVersion
  else if ours.versionType ≠ theirs.versionType || ours.build ≠ theirs.build then .invalidVersion
  else if ours.major < theirs.major then .outdatedMajor
  else if theirs.major < ours.major then .aheadMajor
  else if ours.minor < theirs.minor then .outdatedMinor
  else if theirs.minor < ours.minor then .aheadMinor
  else if ours.patch < theirs.patch then .outdatedPatch
  else if theirs.patch < ours.patch then .aheadPatch
  else comparePrerelease ours.prerelease theirs.prerelease

/-- The text of a build name: its characters where all can be shown, otherwise its digits. -/
def buildText (build : Bytes) : String :=
  if build.all fun b => (33 ≤ b && b ≤ 126) || b = 0 then
    String.ofList ((build.filter (· ≠ 0)).map fun b => Char.ofNat b.toNat)
  else Hex.text build

/-- The text of a version. -/
def toText (v : ProtocolVersion) : String :=
  if v.versionType ≠ 0 then "unknown " ++ Hex.text v.bytes.toList
  else
    "v" ++ toString v.major ++ "." ++ toString v.minor ++ "." ++ toString v.patch ++
      (if v.prerelease ≠ 0 then "-" ++ toString v.prerelease else "") ++
      (if v.build.all (· = 0) then "" else "+" ++ buildText v.build)

end ProtocolVersion

end EngineNode
