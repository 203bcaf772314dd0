import EngineNode.Engine.Queries
import EngineNode.JsonRpc.Params

/-!
# Calling a method

A method reads its parameters and runs on the node; its result is written as JSON.
-/

namespace EngineNode.JsonRpc

/-- A program of the node that may end without a result. -/
abbrev CallM := ExceptT CallError NodeM

namespace CallM

/-- Goes on if the parameters can be read. -/
def ofParams {α : Type} : Except ParamsError α → CallM α
  | .ok value => pure value
  | .error error => throw (.params error)

/-- Runs a method of the engine. -/
def ofEngine {α : Type} (program : EngineM α) : CallM α := fun node => do
  match ← program.run node with
  | (.ok value, node) => return (.ok value, node)
  | (.error error, node) => return (.error (.engine error), node)

end CallM

open CallM

def decodeHashes : Decoder (List Hash) := Decoder.list (Wire.decodeFixed 32)

/-- The payload of a call with what its version has beside it, and the number of these
parameters. -/
def payloadRequest (params : Params) (version : NewPayloadVersion) :
    Except ParamsError (PayloadRequest × Nat) := do
  let payload ← params.required 0 Payload.ofJson
  match version with
  | .v1 | .v2 => return ({ payload }, 1)
  | .v3 =>
    let versionedHashes ← params.optional 1 decodeHashes
    let beaconRoot ← params.optional 2 (Wire.decodeFixed 32)
    return ({ payload, versionedHashes, beaconRoot }, 3)
  | .v4 =>
    let versionedHashes ← params.optional 1 decodeHashes
    let beaconRoot ← params.optional 2 (Wire.decodeFixed 32)
    let executionRequests ← params.optional 3 decodeByteStrings
    return ({ payload, versionedHashes, beaconRoot, executionRequests }, 4)

def forkchoiceUpdated (params : Params) (version : ForkchoiceVersion) (wantWitness : Bool) :
    CallM Json := do
  ofParams (params.checkCount 2)
  let choice ← ofParams (params.required 0 ForkchoiceState.ofJson)
  let attributes ← ofParams (params.optional 1 PayloadAttributes.ofJson)
  let response ← ofEngine (EngineM.forkchoiceUpdated version choice attributes wantWitness)
  return response.toJson

def newPayload (params : Params) (version : NewPayloadVersion) (wantWitness : Bool) :
    CallM Json := do
  let (request, count) ← ofParams (payloadRequest params version)
  ofParams (params.checkCount count)
  let status ← ofEngine (EngineM.newPayload version request wantWitness)
  return status.toJson

/-- The witness is the parameter behind those of the payload. -/
def executeStatelessPayload (params : Params) (version : NewPayloadVersion) : CallM Json := do
  let (request, count) ← ofParams (payloadRequest params version)
  ofParams (params.checkCount (count + 1))
  let witness ← ofParams (params.required count Wire.decodeByteString)
  let status ← ofEngine (EngineM.executeStatelessPayload version request witness)
  return status.toJson

/-- The first version answers with the payload alone. -/
def getPayload (params : Params) (version : GetPayloadVersion) : CallM Json := do
  let id ← ofParams (params.single PayloadId.ofJson)
  let envelope ← ofEngine (EngineM.getPayload version id)
  return if version = .v1 then envelope.payload.toJson else envelope.toJson

def getBlobs (params : Params) : CallM Json := do
  let hashes ← ofParams (params.single decodeHashes)
  let blobs ← ofEngine (EngineM.getBlobs hashes)
  return .ofList (Json.ofOption BlobAndProof.toJson) blobs

def bodiesJson (bodies : List (Option PayloadBody)) : Json :=
  .ofList (Json.ofOption PayloadBody.toJson) bodies

def bodiesByHash (params : Params) : CallM Json := do
  let hashes ← ofParams (params.single decodeHashes)
  return bodiesJson (← ofEngine (EngineM.bodiesByHash hashes))

def bodiesByRange (params : Params) : CallM Json := do
  ofParams (params.checkCount 2)
  let start ← ofParams (params.required 0 Wire.decodeUInt64)
  let count ← ofParams (params.required 1 Wire.decodeUInt64)
  return bodiesJson (← ofEngine (EngineM.bodiesByRange start count))

def exchangeTransitionConfiguration (params : Params) : CallM Json := do
  let remote ← ofParams (params.single TransitionConfiguration.ofJson)
  return (← ofEngine (EngineM.exchangeTransitionConfiguration remote)).toJson

def exchangeCapabilities (params : Params) : CallM Json := do
  let remote ← ofParams (params.single (Decoder.list Decoder.string))
  return .ofList Json.str (← ofEngine (EngineM.exchangeCapabilities remote))

def clientVersion (params : Params) : CallM Json := do
  let remote ← ofParams (params.single ClientVersion.ofJson)
  return .ofList ClientVersion.toJson (← ofEngine (EngineM.clientVersion remote))

def signalSuperchain (params : Params) : CallM Json := do
  ofParams (params.checkCount 1)
  let signal ← ofParams (params.optional 0 SuperchainSignal.ofJson)
  return (← ofEngine (EngineM.signalSuperchain signal)).toJson

/-- Runs a method. -/
def callMethod (params : Params) : Method → CallM Json
  | .forkchoiceUpdated version wantWitness => forkchoiceUpdated params version wantWitness
  | .exchangeTransitionConfiguration => exchangeTransitionConfiguration params
  | .getPayload version => getPayload params version
  | .getBlobs => getBlobs params
  | .newPayload version wantWitness => newPayload params version wantWitness
  | .executeStatelessPayload version => executeStatelessPayload params version
  | .bodiesByHash _ => bodiesByHash params
  | .bodiesByRange _ => bodiesByRange params
  | .clientVersion => clientVersion params
  | .exchangeCapabilities => exchangeCapabilities params
  | .signalSuperchain => signalSuperchain params

/-- Runs the method of a name, if there is one. -/
def dispatch (name : String) (params : Params) : CallM Json :=
  match Method.ofName? name with
  | some method => callMethod params method
  | none => throw (.unknownMethod name)

end EngineNode.JsonRpc
