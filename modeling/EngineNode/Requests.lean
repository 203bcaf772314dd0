import EngineNode.Hash.Sha256
import EngineNode.Hex

/-!
# Execution requests

Requests from the execution layer to the consensus layer: byte strings whose first byte is their
type. A block carries at most one request of each type, in ascending order.
-/

namespace EngineNode

/-- Why a list of requests is refused. -/
inductive RequestsError where
  | empty (request : Bytes)
  | invalidOrder (request : Bytes)
deriving DecidableEq, Repr

def RequestsError.message : RequestsError → String
  | .empty request => "empty request: " ++ Hex.text request
  | .invalidOrder request => "invalid request order: " ++ Hex.text request

namespace Requests

/-- Checks the requests that follow one of a type. -/
def validateAfter (previous : Option UInt8) : List Bytes → Except RequestsError Unit
  | [] => .ok ()
  | (type :: data) :: rest =>
    if data.isEmpty then .error (.empty (type :: data))
    else if previous.any (type ≤ ·) then .error (.invalidOrder (type :: data))
    else validateAfter (some type) rest
  | [] :: _ => .error (.empty [])

/-- Accepts requests that carry data and whose types ascend. -/
def validate (requests : List Bytes) : Except RequestsError Unit := validateAfter none requests

/-- The hash that a header carries: the hash of the hashes of the requests that carry data. -/
def hash (requests : List Bytes) : Hash :=
  sha256 ((requests.filter (1 < ·.length)).flatMap fun request => (sha256 request).toList)

end Requests

end EngineNode
