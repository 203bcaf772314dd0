import EngineNode.Engine.Method
import EngineNode.Inspect.Build

/-!
# The forms of the wire

Every type that travels over the wire by its name, with its form in JSON: a value that is accepted
is written again, with what else is known about it.
-/

namespace EngineNode

/-- Reads a value and says what is known about it. -/
abbrev WireForm := Json → Except DecodeError (List (String × Json))

namespace WireForm

/-- A value is written again, and described by more fields. -/
def described {α : Type} (decode : Decoder α) (encode : α → Json)
    (fields : α → List (String × Json)) : WireForm := fun json => do
  let value ← decode json
  return ("ok", encode value) :: fields value

/-- A value is written again. -/
def plain {α : Type} (decode : Decoder α) (encode : α → Json) : WireForm :=
  described decode encode fun _ => []

/-- Two fields that may both be missing. -/
def optionalFields : Decoder (Option UInt64 × Option Bytes) :=
  RecordDecoder.decode "Optional" <|
    Prod.mk <$> absentField "quantity" Wire.decodeUInt64
      <*> absentField "bytes" Wire.decodeByteString

def all : List (String × WireForm) := [
  ("H256", plain (Wire.decodeFixed 32) Wire.encodeFixed),
  ("H160", plain (Wire.decodeFixed 20) Wire.encodeFixed),
  ("U256", plain Wire.decodeU256 Wire.encodeU256),
  ("Withdrawal", plain Withdrawal.ofJson Withdrawal.toJson),
  ("Fork", plain Fork.decode Fork.toJson),
  ("Config", plain ChainConfig.decode ChainConfig.toJson),
  ("ProtocolVersion", plain ProtocolVersion.ofJson ProtocolVersion.toJson),
  ("ExecutionPayload", plain Payload.ofJson Payload.toJson),
  ("BlobsBundle", plain BlobsBundle.ofJson BlobsBundle.toJson),
  ("ExecutionRequests", plain decodeByteStrings encodeByteStrings),
  ("ExecutionPayloadEnvelope", plain Envelope.ofJson Envelope.toJson),
  ("ForkChoiceStateV1", plain ForkchoiceState.ofJson ForkchoiceState.toJson),
  ("PayloadAttributes", plain PayloadAttributes.ofJson PayloadAttributes.toJson),
  ("PayloadStatusV1", plain PayloadStatus.ofJson PayloadStatus.toJson),
  ("ForkChoiceUpdatedResponse", plain ForkchoiceResponse.ofJson ForkchoiceResponse.toJson),
  ("PayloadId", plain PayloadId.ofJson PayloadId.toJson),
  ("StatelessPayloadStatusV1", plain StatelessStatus.ofJson StatelessStatus.toJson),
  ("TransitionConfigurationV1",
    plain TransitionConfiguration.ofJson TransitionConfiguration.toJson),
  ("ExecutionPayloadBody", plain PayloadBody.ofJson PayloadBody.toJson),
  ("BlobAndProofV1", plain BlobAndProof.ofJson BlobAndProof.toJson),
  ("SuperchainSignal", plain SuperchainSignal.ofJson SuperchainSignal.toJson),
  ("PayloadValidationStatus",
    described PayloadVerdict.ofJson PayloadVerdict.toJson fun verdict =>
      [("str", .str verdict.name),
        ("flags", .ofList .bool [verdict.isValid, verdict.isInvalid, verdict.isSyncing])]),
  ("ClientVersionV1",
    described ClientVersion.ofJson ClientVersion.toJson fun version =>
      [("display", .str version.toText)]),
  ("HexBytes", plain Wire.decodeByteString Wire.encodeByteString),
  ("Optional",
    plain optionalFields fun (quantity, bytes) =>
      .obj [("quantity", .ofOption Wire.encodeUInt64 quantity),
        ("bytes", .ofOption Wire.encodeByteString bytes)])]

end WireForm

end EngineNode
