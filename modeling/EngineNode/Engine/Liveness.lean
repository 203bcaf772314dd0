import EngineNode.ChainConfig
import EngineNode.Log

/-!
# Watching the consensus layer

A chain after the merge stands still unless a consensus layer drives it. The node remembers when it
was called last, and a heartbeat warns when the calls stay away, but not more often than it has to.

Times are counts of milliseconds or of another unit.
-/

namespace EngineNode

/-- The times of the latest calls. -/
structure Activity where
  transition : Option Nat := none
  forkchoice : Option Nat := none
  newPayload : Option Nat := none
deriving DecidableEq, Repr

/-- When the heartbeat looks and when it warns. -/
structure HeartbeatTimings where
  /-- How long it waits before the first look. -/
  grace : Nat := 30000
  /-- How long it waits between two looks. -/
  poll : Nat := 5000
  /-- Calls older than this do not count. -/
  offline : Nat := 120000
  /-- How long it stays silent after a warning. -/
  warn : Nat := 300000
deriving DecidableEq, Repr

/-- What is missing. -/
inductive LivenessWarning where
  | noConsensusLayer
  | noUpdates
  | staleUpdates
deriving DecidableEq, Repr

def LivenessWarning.message : LivenessWarning → String
  | .noConsensusLayer =>
    "Post-merge network, but no beacon client seen. Please launch one to follow the chain!"
  | .noUpdates =>
    "Beacon client online, but never received consensus updates. Please ensure your beacon " ++
      "client is operational to follow the chain!"
  | .staleUpdates =>
    "Beacon client online, but no consensus updates received in a while. Please fix your " ++
      "beacon client to follow the chain!"

/-- The log entry of a warning. -/
def LivenessWarning.entry (warning : LivenessWarning) (report : HeadReport) : LogEntry :=
  ⟨.warn, report.mark warning.message⟩

namespace Activity

/-- Whether something happened at most `limit` ago. -/
def isRecent (time : Option Nat) (now limit : Nat) : Bool := time.any fun t => now - t ≤ limit

/-- Whether the consensus layer sent an update recently. -/
def isOnline (activity : Activity) (now limit : Nat) : Bool :=
  isRecent activity.forkchoice now limit || isRecent activity.newPayload now limit

/-- What is missing when there is no recent update. -/
def warning (activity : Activity) : LivenessWarning :=
  if activity.forkchoice.isSome || activity.newPayload.isSome then .staleUpdates
  else if activity.transition.isSome then .noUpdates
  else .noConsensusLayer

end Activity

/-- When the last warning was given, unless an update came since. -/
structure LivenessMonitor where
  warnedAt : Option Nat := none
deriving DecidableEq, Repr

/-- One look at the activity. -/
def LivenessMonitor.poll (monitor : LivenessMonitor) (activity : Activity) (now : Nat)
    (timings : HeartbeatTimings) : Option LivenessWarning × LivenessMonitor :=
  if activity.isOnline now timings.offline then (none, {})
  else if Activity.isRecent monitor.warnedAt now timings.warn then (none, monitor)
  else (some activity.warning, { warnedAt := some now })

/-- What the heartbeat does next. -/
inductive HeartbeatPhase where
  | sleeping
  /-- The next look is due at this time. -/
  | polling (next : Nat)
  | finished
deriving DecidableEq, Repr

/-- The heartbeat with its own clock. Activity is dated by a second clock, which moves by one at
each reading. -/
structure Heartbeat where
  timings : HeartbeatTimings
  /-- Whether the chain will go through the merge at all. -/
  hasTransition : Bool
  phase : HeartbeatPhase
  elapsed : Nat := 0
  reading : Nat := 0
  activity : Activity := {}
  monitor : LivenessMonitor := {}
deriving DecidableEq, Repr

namespace Heartbeat

/-- Rollup nodes are driven by their own consensus layer and need no heartbeat. -/
def start (config : ChainConfig) (timings : HeartbeatTimings) : Heartbeat where
  timings := timings
  hasTransition := config.terminalTotalDifficulty.isSome
  phase := if config.isRollup then .finished else .sleeping

/-- Notes a call of the consensus layer. -/
def record (h : Heartbeat) (note : Activity → Nat → Activity) : Heartbeat :=
  { h with activity := note h.activity (h.reading + 1), reading := h.reading + 1 }

/-- Ends the heartbeat. -/
def stop (h : Heartbeat) : Heartbeat := { h with phase := .finished }

/-- One look, and the time of the next one. -/
def look (h : Heartbeat) (next : Nat) : Heartbeat × List LivenessWarning :=
  let (warning, monitor) := h.monitor.poll h.activity (h.reading + 1) h.timings
  ({ h with monitor, reading := h.reading + 1, phase := .polling (next + h.timings.poll) },
    warning.toList)

/-- Several looks one after another, the first of them at a time `next`. -/
def looks (h : Heartbeat) (next : Nat) : (count : Nat) → Heartbeat × List LivenessWarning
  | 0 => (h, [])
  | count + 1 =>
    let (h, warnings) := h.look next
    let (h, more) := h.looks (next + h.timings.poll) count
    (h, warnings ++ more)

/-- Ends the grace period when it is over. The heartbeat ends with it if there is no merge to wait
for, or if it has no time between two looks. -/
def wake (h : Heartbeat) : Heartbeat :=
  if h.phase = .sleeping ∧ h.timings.grace ≤ h.elapsed then
    { h with
      phase :=
        if h.hasTransition ∧ h.timings.poll ≠ 0 then .polling h.timings.grace else .finished }
  else h

/-- Lets time pass. After the grace period the heartbeat looks at once and then at regular
distances. -/
def advance (h : Heartbeat) (duration : Nat) : Heartbeat × List LivenessWarning :=
  let h := wake { h with elapsed := h.elapsed + duration }
  match h.phase with
  | .polling next =>
    if next ≤ h.elapsed then h.looks next ((h.elapsed - next) / h.timings.poll + 1) else (h, [])
  | _ => (h, [])

end Heartbeat

end EngineNode
