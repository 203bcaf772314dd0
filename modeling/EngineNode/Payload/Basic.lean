import EngineNode.Wire.Hex
import EngineNode.Withdrawal

/-!
# Execution payloads

The form in which blocks travel between the consensus layer and the execution layer: a block
without the fields that follow from others, and with the hash that it must have. Each type has an
`encode` to JSON and a `decode` from it.
-/

namespace EngineNode

namespace Withdrawal

def toJson (w : Withdrawal) : Json :=
  .obj [
    ("index", Wire.encodeUInt64 w.index),
    ("validatorIndex", Wire.encodeUInt64 w.validatorIndex),
    ("address", Wire.encodeFixed w.address),
    ("amount", Wire.encodeUInt64 w.amount)]

def record : RecordDecoder Withdrawal :=
  Withdrawal.mk <$> .required "index" Wire.decodeUInt64
    <*> .required "validatorIndex" Wire.decodeUInt64
    <*> .required "address" (Wire.decodeFixed 20)
    <*> .required "amount" Wire.decodeUInt64

def ofJson : Decoder Withdrawal := record.decode "Withdrawal"

end Withdrawal

/-- A field that is left out when it is absent. -/
def presentField {α : Type} (name : String) (encode : α → Json) :
    Option α → List (String × Json)
  | some value => [(name, encode value)]
  | none => []

/-- A field that may be null or missing, also in an array. -/
def absentField {α : Type} (name : String) (decode : Decoder α) : RecordDecoder (Option α) :=
  .defaulted name (Decoder.nullable decode) none

/-- A list of byte strings. -/
def encodeByteStrings (items : List Bytes) : Json := .ofList Wire.encodeByteString items

def decodeByteStrings : Decoder (List Bytes) := Decoder.list Wire.decodeByteString

/-- A block as it is sent to and from the execution layer. Fields of later forks are optional; the
withdrawals root is only sent on rollup chains. -/
structure Payload where
  parentHash : Hash
  feeRecipient : Address
  stateRoot : Hash
  receiptsRoot : Hash
  logsBloom : Bytes
  prevRandao : Hash
  blockNumber : UInt64
  gasLimit : UInt64
  gasUsed : UInt64
  timestamp : UInt64
  extraData : Bytes
  baseFeePerGas : Option U256
  blockHash : Hash
  transactions : List Bytes
  withdrawals : Option (List Withdrawal)
  blobGasUsed : Option UInt64
  excessBlobGas : Option UInt64
  withdrawalsRoot : Option Hash
deriving DecidableEq

namespace Payload

def toJson (p : Payload) : Json :=
  .obj <| [
    ("parentHash", Wire.encodeFixed p.parentHash),
    ("feeRecipient", Wire.encodeFixed p.feeRecipient),
    ("stateRoot", Wire.encodeFixed p.stateRoot),
    ("receiptsRoot", Wire.encodeFixed p.receiptsRoot),
    ("logsBloom", Wire.encodeByteString p.logsBloom),
    ("prevRandao", Wire.encodeFixed p.prevRandao),
    ("blockNumber", Wire.encodeUInt64 p.blockNumber),
    ("gasLimit", Wire.encodeUInt64 p.gasLimit),
    ("gasUsed", Wire.encodeUInt64 p.gasUsed),
    ("timestamp", Wire.encodeUInt64 p.timestamp),
    ("extraData", Wire.encodeByteString p.extraData),
    ("baseFeePerGas", .ofOption Wire.encodeU256 p.baseFeePerGas),
    ("blockHash", Wire.encodeFixed p.blockHash),
    ("transactions", encodeByteStrings p.transactions)] ++
    presentField "withdrawals" (Json.ofList Withdrawal.toJson) p.withdrawals ++
    presentField "blobGasUsed" Wire.encodeUInt64 p.blobGasUsed ++
    presentField "excessBlobGas" Wire.encodeUInt64 p.excessBlobGas ++
    presentField "withdrawalsRoot" Wire.encodeFixed p.withdrawalsRoot

def record : RecordDecoder Payload :=
  Payload.mk <$> .required "parentHash" (Wire.decodeFixed 32)
    <*> .required "feeRecipient" (Wire.decodeFixed 20)
    <*> .required "stateRoot" (Wire.decodeFixed 32)
    <*> .required "receiptsRoot" (Wire.decodeFixed 32)
    <*> .required "logsBloom" Wire.decodeByteString
    <*> .required "prevRandao" (Wire.decodeFixed 32)
    <*> .required "blockNumber" Wire.decodeUInt64
    <*> .required "gasLimit" Wire.decodeUInt64
    <*> .required "gasUsed" Wire.decodeUInt64
    <*> .required "timestamp" Wire.decodeUInt64
    <*> .required "extraData" Wire.decodeByteString
    <*> .optional "baseFeePerGas" Wire.decodeU256
    <*> .required "blockHash" (Wire.decodeFixed 32)
    <*> .required "transactions" decodeByteStrings
    <*> absentField "withdrawals" (Decoder.list Withdrawal.ofJson)
    <*> absentField "blobGasUsed" Wire.decodeUInt64
    <*> absentField "excessBlobGas" Wire.decodeUInt64
    <*> absentField "withdrawalsRoot" (Wire.decodeFixed 32)

def ofJson : Decoder Payload := record.decode "ExecutionPayload"

end Payload

/-- The blobs of a payload with their commitments and proofs. -/
structure BlobsBundle where
  commitments : List Bytes := []
  proofs : List Bytes := []
  blobs : List Bytes := []
deriving DecidableEq

namespace BlobsBundle

def toJson (b : BlobsBundle) : Json :=
  .obj [
    ("commitments", encodeByteStrings b.commitments),
    ("proofs", encodeByteStrings b.proofs),
    ("blobs", encodeByteStrings b.blobs)]

def record : RecordDecoder BlobsBundle :=
  BlobsBundle.mk <$> .required "commitments" decodeByteStrings
    <*> .required "proofs" decodeByteStrings
    <*> .required "blobs" decodeByteStrings

def ofJson : Decoder BlobsBundle := record.decode "BlobsBundle"

end BlobsBundle

/-- A built payload with everything that goes beside it. -/
structure Envelope where
  payload : Payload
  blockValue : U256
  blobsBundle : Option BlobsBundle
  executionRequests : Option (List Bytes)
  shouldOverrideBuilder : Bool
  witness : Option Bytes
  parentBeaconBlockRoot : Option Hash
deriving DecidableEq

namespace Envelope

def toJson (e : Envelope) : Json :=
  .obj <| [
    ("executionPayload", e.payload.toJson),
    ("blockValue", Wire.encodeU256 e.blockValue),
    ("blobsBundle", .ofOption BlobsBundle.toJson e.blobsBundle)] ++
    presentField "executionRequests" encodeByteStrings e.executionRequests ++
    [("shouldOverrideBuilder", .bool e.shouldOverrideBuilder)] ++
    presentField "witness" Wire.encodeByteString e.witness ++
    presentField "parentBeaconBlockRoot" Wire.encodeFixed e.parentBeaconBlockRoot

def record : RecordDecoder Envelope :=
  Envelope.mk <$> .required "executionPayload" Payload.ofJson
    <*> .required "blockValue" Wire.decodeU256
    <*> .optional "blobsBundle" BlobsBundle.ofJson
    <*> absentField "executionRequests" decodeByteStrings
    <*> .required "shouldOverrideBuilder" Decoder.bool
    <*> absentField "witness" Wire.decodeByteString
    <*> absentField "parentBeaconBlockRoot" (Wire.decodeFixed 32)

def ofJson : Decoder Envelope := record.decode "ExecutionPayloadEnvelope"

end Envelope

/-- The transactions and withdrawals of a block that is asked for by hash or number. -/
structure PayloadBody where
  transactions : List Bytes
  withdrawals : Option (List Withdrawal)
deriving DecidableEq

namespace PayloadBody

def toJson (b : PayloadBody) : Json :=
  .obj [
    ("transactions", encodeByteStrings b.transactions),
    ("withdrawals", .ofOption (Json.ofList Withdrawal.toJson) b.withdrawals)]

def record : RecordDecoder PayloadBody :=
  PayloadBody.mk <$> .required "transactions" decodeByteStrings
    <*> .optional "withdrawals" (Decoder.list Withdrawal.ofJson)

def ofJson : Decoder PayloadBody := record.decode "ExecutionPayloadBody"

end PayloadBody

/-- A blob with the proof that it belongs to its hash. -/
structure BlobAndProof where
  blob : Bytes
  proof : Bytes
deriving DecidableEq

namespace BlobAndProof

def toJson (b : BlobAndProof) : Json :=
  .obj [("blob", Wire.encodeByteString b.blob), ("proof", Wire.encodeByteString b.proof)]

def record : RecordDecoder BlobAndProof :=
  BlobAndProof.mk <$> .required "blob" Wire.decodeByteString
    <*> .required "proof" Wire.decodeByteString

def ofJson : Decoder BlobAndProof := record.decode "BlobAndProofV1"

end BlobAndProof

end EngineNode
