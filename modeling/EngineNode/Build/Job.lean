import EngineNode.Build.Generate

/-!
# Payloads under construction

A payload starts as the block of the demanded transactions alone. Unless the pool is left out, a
loop improves it in rounds: the first is due at once, the next ones at regular distances. The loop
ends when the payload is stopped and when twelve seconds have passed. A round replaces the best
block so far if its own earns more.

When the loop looks, several of the things that it waits for may have come about. Which of them it
takes is left to chance: rounds that are due may still be done after a stop, all, some or none of
them. `Wake` names what the loop waits for, and a list of lots says where it begins to look.

Time is a count of milliseconds. `PayloadJob.advance` catches up with what has come about.
-/

namespace EngineNode

/-- For how many milliseconds a payload is improved. -/
def buildDeadline : Nat := 12000

/-- The rounds of a payload that is being improved. -/
structure Improvement where
  startedAt : Nat
  /-- The time between two rounds, never zero. -/
  recommit : Nat
  /-- How many rounds have been done. -/
  rounds : Nat := 0
deriving DecidableEq

/-- How many rounds are due that have not been done. -/
def Improvement.due (i : Improvement) (now : Nat) : Nat :=
  (now - i.startedAt) / i.recommit + 1 - i.rounds

/-- Whether the time for rounds is over. -/
def Improvement.isOver (i : Improvement) (now : Nat) : Bool := i.startedAt + buildDeadline ≤ now

/-- What the loop that improves a payload waits for. -/
inductive Wake where
  /-- A round is due. -/
  | round
  /-- The payload was stopped. -/
  | stop
  /-- The time for rounds is over. -/
  | deadline
deriving DecidableEq, Repr

namespace Wake

/-- The order in which the loop looks when it begins somewhere. -/
def order : Wake → List Wake
  | round => [round, stop, deadline]
  | stop => [stop, deadline, round]
  | deadline => [deadline, round, stop]

/-- Whether something has come about. -/
def isReady (due : Nat) (stopped expired : Bool) : Wake → Bool
  | round => due ≠ 0
  | stop => stopped
  | deadline => expired

/-- What the loop takes of the things that have come about. The lot says where it begins to look. -/
def take (lot : Wake) (due : Nat) (stopped expired : Bool) : Option Wake :=
  lot.order.find? (isReady due stopped expired)

/-- How many rounds the loop does before it waits again, and what ends it, if anything does. Each
time that it looks takes a lot. Where there are none left it begins with the rounds. -/
def turns (stopped expired : Bool) : (due : Nat) → (lots : List Wake) → Nat × Option Wake
  | 0, lots => (0, (lots.headD round).take 0 stopped expired)
  | due + 1, lots =>
    match (lots.headD round).take (due + 1) stopped expired with
    | some round =>
      let (rounds, ending) := turns stopped expired due lots.tail
      (rounds + 1, ending)
    | ending => (0, ending)

end Wake

/-- A payload being built. -/
structure PayloadJob where
  id : PayloadId
  plan : BlockPlan
  empty : BuiltBlock
  full : Option BuiltBlock := none
  improvement : Option Improvement := none
  stopped : Bool := false
deriving DecidableEq

namespace PayloadJob

/-- The best block so far. -/
def best (job : PayloadJob) : BuiltBlock := job.full.getD job.empty

/-- Whether a block earns more than the best one from the pool. -/
def isImprovedBy (job : PayloadJob) (candidate : BuiltBlock) : Bool :=
  job.full.all (·.fees < candidate.fees)

/-- What is logged when a payload gets a better block. The clock stands still during a round. -/
def updateLog (id : PayloadId) (built : BuiltBlock) : LogEntry where
  level := .info
  message := "Updated payload (id: " ++ id.toText ++ ", number: " ++
    toString built.block.number.toNat ++ ", hash: " ++ Hex.text built.block.hash.toList ++
    ", txs: " ++ toString built.block.transactions.length ++ ", gas: " ++
    toString built.block.header.gasUsed.toNat ++ ", fees: " ++ toString built.fees ++
    ", elapsed: 0ns)"

/-- What is logged when work on a payload ends. -/
def stopLog (id : PayloadId) (reason : String) : LogEntry :=
  ⟨.info, "Stopping work on payload (id: " ++ id.toText ++ ", reason: " ++ reason ++ ")"⟩

/-- A payload after some rounds: what was logged, and how often its block was replaced. -/
structure Progress where
  job : PayloadJob
  logs : List LogEntry := []
  improvements : Nat := 0

/-- One round of improvement. -/
def round (g : Generator) (p : Progress) : Progress :=
  match g.generate p.job.plan true with
  | .ok (candidate, logs) =>
    if p.job.isImprovedBy candidate then
      { job := { p.job with full := some candidate }
        logs := p.logs ++ logs ++ [updateLog p.job.id candidate]
        improvements := p.improvements + 1 }
    else { p with logs := p.logs ++ logs }
  | .error error =>
    { p with logs := p.logs ++ [⟨.warn, "Error while generating work (id: " ++ p.job.id.toText ++
        "): " ++ error.message⟩] }

/-- Several rounds. -/
def runRounds (g : Generator) : (count : Nat) → Progress → Progress
  | 0, p => p
  | count + 1, p => runRounds g count (round g p)

/-- Catches up with what has come about, in an order that the lots decide. -/
def advance (g : Generator) (closed : Bool) (now : Nat) (lots : List Wake) (job : PayloadJob) :
    Progress :=
  match job.improvement with
  | none => { job }
  | some i =>
    let (rounds, ending) := Wake.turns (job.stopped || closed) (i.isOver now) (i.due now) lots
    let p := runRounds g rounds { job }
    let improvement := if ending.isNone then some { i with rounds := i.rounds + rounds } else none
    { p with
      job := { p.job with improvement }
      logs := p.logs ++ if ending = some .deadline then [stopLog job.id "timeout"] else [] }

/-- Starts the payload of some arguments on top of their parent. -/
def start (g : Generator) (now : Nat) (args : BuildArgs) (parent : Header) (wantWitness : Bool) :
    Except BuildError PayloadJob := do
  let plan := args.plan parent wantWitness
  let (empty, _) ← g.generate plan false
  let improvement :=
    if args.noTxPool ∨ g.miner.recommit = 0 then none
    else some { startedAt := now, recommit := g.miner.recommit }
  return { id := args.id, plan, empty, improvement }

/-- Whether there is nothing to wait for: a block from the pool, or the end of the improvement. -/
def isReady (job : PayloadJob) : Bool := job.full.isSome || job.improvement.isNone

/-- Stops the payload for its delivery. Nothing is logged when it was stopped before. -/
def deliver (closed : Bool) (job : PayloadJob) : PayloadJob × List LogEntry :=
  ({ job with stopped := true },
    if job.stopped || closed then [] else [stopLog job.id "delivery"])

end PayloadJob

/-- What is logged when a payload is started. -/
def startLog (args : BuildArgs) : LogEntry where
  level := .info
  message := "Starting work on payload (id: " ++ args.id.toText ++ ", parent: " ++
    Hex.text args.parent.toList ++ ", version: V" ++ toString args.version.toByte.toNat ++ ")"

/-- Looks the parent up and starts a payload on it. -/
def Chain.startPayload (chain : Chain) (g : Generator) (now : Nat) (args : BuildArgs)
    (wantWitness : Bool) : Except BuildError PayloadJob :=
  match chain.headerByHash? args.parent with
  | none => .error (.missingParent args.parent)
  | some parent =>
    if chain.hasState args.parent then PayloadJob.start g now args parent wantWitness
    else .error (.missingParentState args.parent)

end EngineNode
