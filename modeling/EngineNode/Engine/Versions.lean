import EngineNode.ChainConfig
import EngineNode.Engine.Error
import EngineNode.Forkchoice

/-!
# Versions of the engine methods

Each fork came with new versions of the methods. A version accepts only the parameters of its own
forks; what it accepts is decided here before anything happens.
-/

namespace EngineNode

/-- The versions of the method that chooses the head. They number the payloads they start. -/
abbrev ForkchoiceVersion := PayloadVersion

namespace ForkchoiceVersion

/-- The first version knows neither withdrawals nor beacon roots. -/
def checkV1 (config : ChainConfig) (attributes : PayloadAttributes) : Except EngineError Unit :=
  if attributes.withdrawals.isSome ∨ attributes.parentBeaconBlockRoot.isSome then
    .error (.invalidParams "withdrawals and beacon root not supported in V1")
  else if config.isShanghai attributes.timestamp then
    .error (.invalidParams "forkChoiceUpdateV1 called post-shanghai")
  else .ok ()

/-- The second version has withdrawals exactly when Shanghai is active. -/
def checkV2 (config : ChainConfig) (attributes : PayloadAttributes) : Except EngineError Unit :=
  if attributes.parentBeaconBlockRoot.isSome then
    .error (.invalidPayloadAttributes "unexpected beacon root")
  else
    match config.latestFork attributes.timestamp with
    | .paris =>
      if attributes.withdrawals.isSome then
        .error (.invalidPayloadAttributes "withdrawals before shanghai")
      else .ok ()
    | .shanghai =>
      if attributes.withdrawals.isNone then
        .error (.invalidPayloadAttributes "missing withdrawals")
      else .ok ()
    | .cancun | .prague | .osaka =>
      .error (.unsupportedFork
        "forkchoiceUpdatedV2 must only be called with paris and shanghai payloads")

/-- The third version has withdrawals and a beacon root, from Cancun on. -/
def checkV3 (config : ChainConfig) (attributes : PayloadAttributes) : Except EngineError Unit :=
  if attributes.withdrawals.isNone then
    .error (.invalidPayloadAttributes "missing withdrawals")
  else if attributes.parentBeaconBlockRoot.isNone then
    .error (.invalidPayloadAttributes "missing beacon root")
  else if Fork.cancun ≤ config.latestFork attributes.timestamp then .ok ()
  else .error (.unsupportedFork "forkchoiceUpdatedV3 must only be called for cancun payloads")

/-- Whether a version accepts payload attributes. -/
def checkAttributes : ForkchoiceVersion → ChainConfig → PayloadAttributes → Except EngineError Unit
  | .v1 => checkV1
  | .v2 => checkV2
  | .v3 => checkV3

end ForkchoiceVersion

/-- A payload with the parameters that are sent next to it. -/
structure PayloadRequest where
  payload : Payload
  versionedHashes : Option (List Hash) := none
  beaconRoot : Option Hash := none
  executionRequests : Option (List Bytes) := none
deriving DecidableEq

/-- The methods that take a payload. -/
inductive PayloadMethod where
  | newPayload
  | newPayloadWithWitness
  | executeStateless
deriving DecidableEq, Repr

def PayloadMethod.name : PayloadMethod → String
  | .newPayload => "newPayload"
  | .newPayloadWithWitness => "newPayloadWithWitness"
  | .executeStateless => "executeStatelessPayload"

/-- The versions of the methods that take a payload. -/
inductive NewPayloadVersion where
  | v1
  | v2
  | v3
  | v4
deriving DecidableEq, Repr

namespace NewPayloadVersion

def number : NewPayloadVersion → Nat
  | .v1 => 1
  | .v2 => 2
  | .v3 => 3
  | .v4 => 4

/-- A method with its version. -/
def methodName (version : NewPayloadVersion) (method : PayloadMethod) : String :=
  method.name ++ "V" ++ toString version.number

def checkV1 (payload : Payload) : Except EngineError Unit :=
  if payload.withdrawals.isSome then .error (.invalidParams "withdrawals not supported in V1")
  else .ok ()

/-- The second version is for the forks before Cancun and has withdrawals exactly when Shanghai is
active. -/
def checkV2 (config : ChainConfig) (method : String) (payload : Payload) :
    Except EngineError Unit := do
  if config.isCancun payload.timestamp then
    throw (.invalidParams ("can't use " ++ method ++ " post-cancun"))
  let shanghai : Bool := config.latestFork payload.timestamp = .shanghai
  if shanghai ∧ payload.withdrawals.isNone then
    throw (.invalidParams "nil withdrawals post-shanghai")
  if ¬ shanghai ∧ payload.withdrawals.isSome then
    throw (.invalidParams "non-nil withdrawals pre-shanghai")
  if payload.excessBlobGas.isSome then
    throw (.invalidParams "non-nil excessBlobGas pre-cancun")
  if payload.blobGasUsed.isSome then throw (.invalidParams "non-nil blobGasUsed pre-cancun")

/-- From Cancun on nothing of Cancun may be missing. -/
def checkCancunFields (request : PayloadRequest) : Except EngineError Unit := do
  if request.payload.withdrawals.isNone then
    throw (.invalidParams "nil withdrawals post-shanghai")
  if request.payload.excessBlobGas.isNone then
    throw (.invalidParams "nil excessBlobGas post-cancun")
  if request.payload.blobGasUsed.isNone then throw (.invalidParams "nil blobGasUsed post-cancun")
  if request.versionedHashes.isNone then
    throw (.invalidParams "nil versionedHashes post-cancun")
  if request.beaconRoot.isNone then throw (.invalidParams "nil beaconRoot post-cancun")

/-- The third version is for Cancun alone. -/
def checkV3 (config : ChainConfig) (method : String) (request : PayloadRequest) :
    Except EngineError Unit := do
  checkCancunFields request
  if config.latestFork request.payload.timestamp ≠ .cancun then
    throw (.unsupportedFork (method ++ " must only be called for cancun payloads"))

/-- The fourth version is for Prague and later, and has requests. -/
def checkV4 (config : ChainConfig) (method : String) (request : PayloadRequest) :
    Except EngineError Unit := do
  checkCancunFields request
  if request.executionRequests.isNone then
    throw (.invalidParams "nil executionRequests post-prague")
  unless Fork.prague ≤ config.latestFork request.payload.timestamp do
    throw (.unsupportedFork (method ++ " must only be called for prague payloads"))
  if config.isIsthmus request.payload.timestamp ∧ request.payload.withdrawalsRoot.isNone then
    throw (.invalidParams "nil withdrawalsRoot post-isthmus")

/-- Whether a version of a method accepts a payload with its parameters. -/
def check (version : NewPayloadVersion) (method : PayloadMethod) (config : ChainConfig)
    (request : PayloadRequest) : Except EngineError Unit :=
  match version with
  | .v1 => checkV1 request.payload
  | .v2 => checkV2 config (version.methodName method) request.payload
  | .v3 => checkV3 config (version.methodName method) request
  | .v4 => checkV4 config (version.methodName method) request

end NewPayloadVersion

/-- The versions of the method that fetches a payload. -/
inductive GetPayloadVersion where
  | v1
  | v2
  | v3
  | v4
deriving DecidableEq, Repr

namespace GetPayloadVersion

def number : GetPayloadVersion → Nat
  | .v1 => 1
  | .v2 => 2
  | .v3 => 3
  | .v4 => 4

/-- The payloads that a version hands out. -/
def accepted : GetPayloadVersion → List PayloadVersion
  | .v1 => [.v1]
  | .v2 => [.v1, .v2]
  | .v3 | .v4 => [.v3]

/-- Whether a version hands out a payload. -/
def check (version : GetPayloadVersion) (id : PayloadId) : Except EngineError Unit :=
  if id.isOneOf version.accepted then .ok ()
  else
    .error (.unsupportedFork ("getPayloadV" ++ toString version.number ++
      " does not serve payload " ++ id.toText))

end GetPayloadVersion

end EngineNode
