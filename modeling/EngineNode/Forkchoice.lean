import EngineNode.Payload.Basic
import EngineNode.Payload.Id
import EngineNode.ProtocolVersion

/-!
# Requests and answers of the Engine API

The values that the consensus layer sends beside payloads, and the answers it gets.
-/

namespace EngineNode

/-- The blocks that the consensus layer has chosen. -/
structure ForkchoiceState where
  headBlockHash : Hash
  safeBlockHash : Hash
  finalizedBlockHash : Hash
deriving DecidableEq

namespace ForkchoiceState

def toJson (s : ForkchoiceState) : Json :=
  .obj [
    ("headBlockHash", Wire.encodeFixed s.headBlockHash),
    ("safeBlockHash", Wire.encodeFixed s.safeBlockHash),
    ("finalizedBlockHash", Wire.encodeFixed s.finalizedBlockHash)]

def record : RecordDecoder ForkchoiceState :=
  ForkchoiceState.mk <$> .required "headBlockHash" (Wire.decodeFixed 32)
    <*> .required "safeBlockHash" (Wire.decodeFixed 32)
    <*> .required "finalizedBlockHash" (Wire.decodeFixed 32)

def ofJson : Decoder ForkchoiceState := record.decode "ForkChoiceStateV1"

end ForkchoiceState

/-- What the next block shall contain. The last four fields are only sent on rollup chains. -/
structure PayloadAttributes where
  timestamp : UInt64
  prevRandao : Hash
  suggestedFeeRecipient : Address
  withdrawals : Option (List Withdrawal)
  parentBeaconBlockRoot : Option Hash
  transactions : List Bytes
  noTxPool : Bool
  gasLimit : Option UInt64
  eip1559Params : Bytes
deriving DecidableEq

namespace PayloadAttributes

def toJson (a : PayloadAttributes) : Json :=
  .obj <| [
    ("timestamp", Wire.encodeUInt64 a.timestamp),
    ("prevRandao", Wire.encodeFixed a.prevRandao),
    ("suggestedFeeRecipient", Wire.encodeFixed a.suggestedFeeRecipient)] ++
    presentField "withdrawals" (Json.ofList Withdrawal.toJson) a.withdrawals ++
    presentField "parentBeaconBlockRoot" Wire.encodeFixed a.parentBeaconBlockRoot ++
    (if a.transactions.isEmpty then [] else [("transactions", encodeByteStrings a.transactions)]) ++
    [("noTxPool", .bool a.noTxPool)] ++
    presentField "gasLimit" Wire.encodeUInt64 a.gasLimit ++
    (if a.eip1559Params.isEmpty then []
      else [("eip1559Params", Wire.encodeByteString a.eip1559Params)])

def record : RecordDecoder PayloadAttributes :=
  PayloadAttributes.mk <$> .required "timestamp" Wire.decodeUInt64
    <*> .required "prevRandao" (Wire.decodeFixed 32)
    <*> .required "suggestedFeeRecipient" (Wire.decodeFixed 20)
    <*> absentField "withdrawals" (Decoder.list Withdrawal.ofJson)
    <*> absentField "parentBeaconBlockRoot" (Wire.decodeFixed 32)
    <*> .defaulted "transactions" decodeByteStrings []
    <*> .defaulted "noTxPool" Decoder.bool false
    <*> absentField "gasLimit" Wire.decodeUInt64
    <*> .defaulted "eip1559Params" Wire.decodeByteString []

def ofJson : Decoder PayloadAttributes := record.decode "PayloadAttributes"

end PayloadAttributes

/-- The verdict on a payload. -/
inductive PayloadVerdict where
  | valid
  | invalid
  | syncing
  | accepted
  | invalidBlockHash
  | invalidTerminalBlock
deriving DecidableEq, Repr

namespace PayloadVerdict

def all : List PayloadVerdict :=
  [valid, invalid, syncing, accepted, invalidBlockHash, invalidTerminalBlock]

def name : PayloadVerdict → String
  | .valid => "VALID"
  | .invalid => "INVALID"
  | .syncing => "SYNCING"
  | .accepted => "ACCEPTED"
  | .invalidBlockHash => "INVALID_BLOCK_HASH"
  | .invalidTerminalBlock => "INVALID_TERMINAL_BLOCK"

def isValid (v : PayloadVerdict) : Bool := v = .valid

def isInvalid (v : PayloadVerdict) : Bool :=
  v = .invalid || v = .invalidBlockHash || v = .invalidTerminalBlock

def isSyncing (v : PayloadVerdict) : Bool := v = .syncing

def toJson (v : PayloadVerdict) : Json := .str v.name

def ofJson : Decoder PayloadVerdict := Decoder.variant (all.map fun v => (v.name, v))

end PayloadVerdict

/-- The answer to a payload: the verdict, the newest valid ancestor where it is known, and what is
wrong. The witness is only sent to those who ask for it. -/
structure PayloadStatus where
  status : PayloadVerdict
  latestValidHash : Option Hash := none
  validationError : Option String := none
  witness : Option Bytes := none
deriving DecidableEq

namespace PayloadStatus

def valid (latestValidHash : Hash) : PayloadStatus :=
  { status := .valid, latestValidHash := some latestValidHash }

def syncing : PayloadStatus := { status := .syncing }

def accepted : PayloadStatus := { status := .accepted }

def toJson (s : PayloadStatus) : Json :=
  .obj <| [
    ("status", s.status.toJson),
    ("latestValidHash", .ofOption Wire.encodeFixed s.latestValidHash),
    ("validationError", .ofOption Json.str s.validationError)] ++
    presentField "witness" Wire.encodeByteString s.witness

def record : RecordDecoder PayloadStatus :=
  PayloadStatus.mk <$> .required "status" PayloadVerdict.ofJson
    <*> .optional "latestValidHash" (Wire.decodeFixed 32)
    <*> .optional "validationError" Decoder.string
    <*> absentField "witness" Wire.decodeByteString

def ofJson : Decoder PayloadStatus := record.decode "PayloadStatusV1"

end PayloadStatus

/-- The answer to a choice of blocks, with the name of the payload whose build was started. -/
structure ForkchoiceResponse where
  payloadStatus : PayloadStatus
  payloadId : Option PayloadId := none
deriving DecidableEq

namespace ForkchoiceResponse

def toJson (r : ForkchoiceResponse) : Json :=
  .obj [
    ("payloadStatus", r.payloadStatus.toJson),
    ("payloadId", .ofOption PayloadId.toJson r.payloadId)]

def record : RecordDecoder ForkchoiceResponse :=
  ForkchoiceResponse.mk <$> .required "payloadStatus" PayloadStatus.ofJson
    <*> .optional "payloadId" PayloadId.ofJson

def ofJson : Decoder ForkchoiceResponse := record.decode "ForkChoiceUpdatedResponse"

end ForkchoiceResponse

/-- The answer to a payload that is executed from a witness alone. -/
structure StatelessStatus where
  status : PayloadVerdict
  stateRoot : Hash
  receiptsRoot : Hash
  validationError : Option String
deriving DecidableEq

namespace StatelessStatus

def invalid (validationError : String) : StatelessStatus :=
  ⟨.invalid, .zero 32, .zero 32, some validationError⟩

def toJson (s : StatelessStatus) : Json :=
  .obj [
    ("status", s.status.toJson),
    ("stateRoot", Wire.encodeFixed s.stateRoot),
    ("receiptsRoot", Wire.encodeFixed s.receiptsRoot),
    ("validationError", .ofOption Json.str s.validationError)]

def record : RecordDecoder StatelessStatus :=
  StatelessStatus.mk <$> .required "status" PayloadVerdict.ofJson
    <*> .required "stateRoot" (Wire.decodeFixed 32)
    <*> .required "receiptsRoot" (Wire.decodeFixed 32)
    <*> .optional "validationError" Decoder.string

def ofJson : Decoder StatelessStatus := record.decode "StatelessPayloadStatusV1"

end StatelessStatus

/-- When the proof-of-work part of the chain ends. -/
structure TransitionConfiguration where
  terminalTotalDifficulty : Option U256
  terminalBlockHash : Hash
  terminalBlockNumber : UInt64
deriving DecidableEq

namespace TransitionConfiguration

def toJson (c : TransitionConfiguration) : Json :=
  .obj [
    ("terminalTotalDifficulty", .ofOption Wire.encodeU256 c.terminalTotalDifficulty),
    ("terminalBlockHash", Wire.encodeFixed c.terminalBlockHash),
    ("terminalBlockNumber", Wire.encodeUInt64 c.terminalBlockNumber)]

def record : RecordDecoder TransitionConfiguration :=
  TransitionConfiguration.mk <$> absentField "terminalTotalDifficulty" Wire.decodeU256
    <*> .required "terminalBlockHash" (Wire.decodeFixed 32)
    <*> .required "terminalBlockNumber" Wire.decodeUInt64

def ofJson : Decoder TransitionConfiguration := record.decode "TransitionConfigurationV1"

end TransitionConfiguration

/-- How a node presents itself. -/
structure ClientVersion where
  code : String
  name : String
  version : String
  commit : String
deriving DecidableEq

namespace ClientVersion

def toText (c : ClientVersion) : String :=
  c.code ++ "-" ++ c.name ++ "-" ++ c.version ++ "-" ++ c.commit

def toJson (c : ClientVersion) : Json :=
  .obj [
    ("code", .str c.code), ("name", .str c.name), ("version", .str c.version),
    ("commit", .str c.commit)]

def record : RecordDecoder ClientVersion :=
  ClientVersion.mk <$> .required "code" Decoder.string
    <*> .required "name" Decoder.string
    <*> .required "version" Decoder.string
    <*> .required "commit" Decoder.string

def ofJson : Decoder ClientVersion := record.decode "ClientVersionV1"

end ClientVersion

namespace ProtocolVersion

def toJson (v : ProtocolVersion) : Json := Wire.encodeFixed v.bytes

def ofJson : Decoder ProtocolVersion := fun json => ProtocolVersion.mk <$> Wire.decodeFixed 32 json

end ProtocolVersion

/-- The protocol versions that the rollup node asks for. -/
structure SuperchainSignal where
  recommended : ProtocolVersion
  required : ProtocolVersion
deriving DecidableEq

namespace SuperchainSignal

def toJson (s : SuperchainSignal) : Json :=
  .obj [("recommended", s.recommended.toJson), ("required", s.required.toJson)]

def record : RecordDecoder SuperchainSignal :=
  SuperchainSignal.mk <$> .required "recommended" ProtocolVersion.ofJson
    <*> .required "required" ProtocolVersion.ofJson

def ofJson : Decoder SuperchainSignal := record.decode "SuperchainSignal"

end SuperchainSignal

end EngineNode
