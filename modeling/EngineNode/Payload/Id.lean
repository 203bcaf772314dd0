import EngineNode.Wire.Hex

/-!
# Payload identifiers

Eight bytes that name a payload while it is built. The first byte is the version of the request
that started the build.
-/

namespace EngineNode

/-- The version of the request that starts a build. -/
inductive PayloadVersion where
  | v1
  | v2
  | v3
deriving DecidableEq, Repr

namespace PayloadVersion

def toByte : PayloadVersion → UInt8
  | .v1 => 1
  | .v2 => 2
  | .v3 => 3

def ofByte? (b : UInt8) : Option PayloadVersion :=
  [v1, v2, v3].find? (·.toByte = b)

end PayloadVersion

/-- The name of a payload. -/
structure PayloadId where
  bytes : FixedBytes 8
deriving DecidableEq

namespace PayloadId

def version? (id : PayloadId) : Option PayloadVersion :=
  PayloadVersion.ofByte? (id.bytes.toList.headD 0)

/-- Whether the payload was started in one of the versions. -/
def isOneOf (id : PayloadId) (versions : List PayloadVersion) : Bool :=
  id.version?.any (versions.contains ·)

def toText (id : PayloadId) : String := Hex.text id.bytes.toList

def toJson (id : PayloadId) : Json := Wire.encodeFixed id.bytes

def ofJson : Decoder PayloadId := fun json => PayloadId.mk <$> Wire.decodeFixed 8 json

end PayloadId

end EngineNode
