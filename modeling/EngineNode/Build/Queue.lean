import EngineNode.Build.Job
import EngineNode.RecencyMap

/-!
# Payloads waiting to be fetched

The payloads that the consensus layer has ordered, the oldest first. When there are too many the
oldest are given up. `PayloadQueue.deliver` hands one out and stops its improvement.
-/

namespace EngineNode

abbrev PayloadQueue (capacity : Nat) := BoundedMap PayloadId PayloadJob capacity

/-- As many payloads as a consensus layer may have ordered at a time. -/
def payloadQueueCapacity : Nat := 10

namespace PayloadQueue

variable {capacity : Nat}

/-- Catches up with the rounds of all payloads, each with lots of its own, or with none. -/
def advance (queue : PayloadQueue capacity) (g : Generator) (closed : Bool) (now : Nat)
    (lots : PayloadId → List Wake := fun _ => []) :
    BoundedMap PayloadId PayloadJob.Progress capacity :=
  BoundedMap.mapValues queue fun id job => job.advance g closed now (lots id)

/-- The payloads after some rounds. -/
def ofProgress (progress : BoundedMap PayloadId PayloadJob.Progress capacity) :
    PayloadQueue capacity :=
  progress.mapValues fun _ p => p.job

/-- Hands out the best block of a payload and stops its improvement. -/
def deliver (queue : PayloadQueue capacity) (closed : Bool) (id : PayloadId) :
    Option BuiltBlock × PayloadQueue capacity × List LogEntry :=
  match BoundedMap.get? queue id with
  | none => (none, queue, [])
  | some job =>
    let (stopped, logs) := job.deliver closed
    (some job.best, BoundedMap.set queue id stopped, logs)

/-- Whether a payload is there and has to be waited for. -/
def mustWait (queue : PayloadQueue capacity) (id : PayloadId) : Bool :=
  (BoundedMap.get? queue id).any (!·.isReady)

end PayloadQueue

end EngineNode
