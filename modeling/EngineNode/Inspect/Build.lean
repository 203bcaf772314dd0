import EngineNode.Build.Args
import EngineNode.Build.MinerConfig
import EngineNode.Inspect.Block

/-!
# Orders and settings in JSON

The form in which operators write the arguments of a build and the settings of the builder.
-/

namespace EngineNode

/-- The version of a build, given by its number. -/
def PayloadVersion.ofJson : Decoder PayloadVersion := fun json => do
  match PayloadVersion.ofByte? (UInt8.ofNat (← Wire.decodeInteger json)) with
  | some version => return version
  | none => throw (.invalidValue json "a version")

namespace BuildArgs

/-- The arguments of a build; the parent may be left out. -/
def record (parent : Hash) : RecordDecoder BuildArgs :=
  BuildArgs.mk <$> Header.hashField "parent" parent
    <*> .required "timestamp" Header.decodeWord
    <*> .withDefault "feeRecipient" (Wire.decodeFixed 20) (.zero 20)
    <*> Header.hashField "random" (.zero 32)
    <*> absentField "withdrawals" (Decoder.list Withdrawal.ofJson)
    <*> absentField "beaconRoot" (Wire.decodeFixed 32)
    <*> .withDefault "version" PayloadVersion.ofJson .v3
    <*> .withDefault "noTxPool" Decoder.bool false
    <*> .withDefault "transactions" (Decoder.list Transaction.ofJson) []
    <*> absentField "gasLimit" Header.decodeWord
    <*> absentField "eip1559Params" Wire.decodeByteString

def ofJson (parent : Hash) : Decoder BuildArgs := (record parent).decode "BuildArgs"

end BuildArgs

namespace MinerConfig

def record : RecordDecoder MinerConfig :=
  MinerConfig.mk <$> .withDefault "pendingFeeRecipient" (Wire.decodeFixed 20) (.zero 20)
    <*> .withDefault "extraData" Wire.decodeByteString []
    <*> .withDefault "gasCeil" Header.decodeWord ({} : MinerConfig).gasCeil
    <*> .withDefault "recommitMs" Wire.decodeInteger ({} : MinerConfig).recommit
    <*> .withDefault "computePendingBlock" Decoder.bool false
    <*> absentField "maxDaTxSize" Header.decodeWord
    <*> absentField "maxDaBlockSize" Header.decodeWord

/-- Settings that are left out have their values by default. -/
def ofJson : Decoder MinerConfig := record.decode "MinerConfig"

def toJson (m : MinerConfig) : Json :=
  .obj [
    ("pendingFeeRecipient", Wire.encodeFixed m.pendingFeeRecipient),
    ("extraData", Wire.encodeByteString m.extraData), ("gasCeil", Wire.encodeUInt64 m.gasCeil),
    ("recommitMs", Json.ofNat m.recommit), ("computePendingBlock", .bool m.computePendingBlock),
    ("maxDaTxSize", .ofOption Wire.encodeUInt64 m.maxTransactionSize),
    ("maxDaBlockSize", .ofOption Wire.encodeUInt64 m.maxBlockSize)]

end MinerConfig

end EngineNode
