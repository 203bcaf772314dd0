import EngineNode.Proofs.Build.Job
import EngineNode.Proofs.Engine.Import
import Mathlib.Data.List.Induction

/-!
Runs of a node.

A run is a list of events: calls of the consensus layer, reports of the downloader, time, and what
the operator does. Only three kinds of events reach the chain, and `Chain.Step` lists what they do
to it. A property of chains that holds of a new chain and is kept by every step therefore holds at
the end of every run.

* `Node.after_cases`: most events happen beside the chain; they only make payloads go on.
* `Node.after_step`: every event is a step of the chain.
* `Node.run_induction`: the induction over runs.
-/

namespace EngineNode

/-- A method of the engine with its arguments. -/
inductive Call where
  | forkchoiceUpdated (version : ForkchoiceVersion) (choice : ForkchoiceState)
      (attributes : Option PayloadAttributes) (wantWitness : Bool)
  | newPayload (version : NewPayloadVersion) (request : PayloadRequest) (wantWitness : Bool)
  | executeStatelessPayload (version : NewPayloadVersion) (request : PayloadRequest)
      (witness : Bytes)
  | getPayload (version : GetPayloadVersion) (id : PayloadId)
  | getBlobs (hashes : List Hash)
  | bodiesByHash (hashes : List Hash)
  | bodiesByRange (start count : UInt64)
  | exchangeTransitionConfiguration (remote : TransitionConfiguration)
  | exchangeCapabilities (remote : List String)
  | clientVersion (remote : ClientVersion)
  | signalSuperchain (signal : Option SuperchainSignal)

namespace Call

/-- What a method answers with. -/
def Answer : Call → Type
  | forkchoiceUpdated .. => ForkchoiceResponse
  | newPayload .. => PayloadStatus
  | executeStatelessPayload .. => StatelessStatus
  | getPayload .. => Envelope
  | getBlobs .. => List (Option BlobAndProof)
  | bodiesByHash .. | bodiesByRange .. => List (Option PayloadBody)
  | exchangeTransitionConfiguration .. => TransitionConfiguration
  | exchangeCapabilities .. => List String
  | clientVersion .. => List ClientVersion
  | signalSuperchain .. => ProtocolVersion

/-- The program of a method. -/
def program : (call : Call) → EngineM call.Answer
  | forkchoiceUpdated version choice attributes wantWitness =>
    EngineM.forkchoiceUpdated version choice attributes wantWitness
  | newPayload version request wantWitness => EngineM.newPayload version request wantWitness
  | executeStatelessPayload version request witness =>
    EngineM.executeStatelessPayload version request witness
  | getPayload version id => EngineM.getPayload version id
  | getBlobs hashes => EngineM.getBlobs hashes
  | bodiesByHash hashes => EngineM.bodiesByHash hashes
  | bodiesByRange start count => EngineM.bodiesByRange start count
  | exchangeTransitionConfiguration remote => EngineM.exchangeTransitionConfiguration remote
  | exchangeCapabilities remote => EngineM.exchangeCapabilities remote
  | clientVersion remote => EngineM.clientVersion remote
  | signalSuperchain signal => EngineM.signalSuperchain signal

/-- The block that a call describes, if it sends a payload that can be converted. -/
def block? (config : ChainConfig) : Call → Option Block
  | newPayload _ request _ => (request.payload.toBlock config request.sidecar).toOption
  | _ => none

end Call

/-- Something that happens to a node. -/
inductive Event where
  | call (call : Call)
  /-- The downloader reports a bad block. -/
  | badBlock (bad : BadBlock)
  /-- Time passes and payloads are improved. -/
  | advance (duration : Nat)
  | setSyncMode (mode : SyncMode)
  | setPool (pool : TxPool)
  | setMiner (miner : MinerConfig)
  | pending (now : UInt64)
  | buildOwn (args : BuildArgs) (wantWitness : Bool)
  | resolveOwn (id : PayloadId)
  | resolveOwnFull (id : PayloadId)
  | dropOwn (id : PayloadId)
  | close

/-- The block that an event describes. -/
def Event.block? (config : ChainConfig) : Event → Option Block
  | .call method => method.block? config
  | _ => none

theorem Event.block?_newPayload {config : ChainConfig} {request : PayloadRequest} {block : Block}
    (version : NewPayloadVersion) (wantWitness : Bool)
    (converted : request.payload.toBlock config request.sidecar = .ok block) :
    block? config (.call (.newPayload version request wantWitness)) = some block := by
  rw [block?, Call.block?, converted]
  rfl

namespace Node

/-- A node on a new chain, whatever else it holds. -/
def fresh (node : Node) : Node := { node with chain := .new node.config }

/-- A node on a new chain that has met no bad blocks and builds no payloads yet. -/
def started (node : Node) : Node :=
  { node.fresh with badChains := ⟨default, default⟩, payloads := default }

/-- The answer to a call, or the error, and the node afterwards. -/
def answer (node : Node) (call : Call) : Except EngineError call.Answer × Node :=
  let (result, node', _) := call.program.run.exec node
  (result, node')

/-- The node that a program leaves. -/
def left {α : Type} (node : Node) (program : NodeM α) : Node := (program.exec node).2.1

/-- The node after an event. -/
def after (node : Node) : Event → Node
  | .call call => (node.answer call).2
  | .badBlock bad => node.left (NodeM.markBadBlock bad)
  | .advance duration => node.left (NodeM.advance duration)
  | .setSyncMode syncMode => { node with chain := { node.chain with syncMode } }
  | .setPool pool => { node with pool }
  | .setMiner miner => { node with miner }
  | .pending now => node.left (NodeM.pending now)
  | .buildOwn args wantWitness => node.left (NodeM.buildOwn args wantWitness)
  | .resolveOwn id => node.left (NodeM.resolveOwn id)
  | .resolveOwnFull id => node.left (NodeM.resolveOwnFull id)
  | .dropOwn id => node.left (NodeM.dropOwn id)
  | .close => node.left NodeM.close

/-- The node after a row of events. -/
def run (node : Node) (events : List Event) : Node := events.foldl after node

end Node

/-! ### Programs that leave the chain alone -/

/-- Neither the headers that are remembered nor the features differ between two nodes. -/
structure Node.SameHeaders (node node' : Node) : Prop where
  remoteHeaders : node'.remoteHeaders = node.remoteHeaders
  features : node'.features = node.features

theorem Node.SameHeaders.trans {node node' node'' : Node} (first : node.SameHeaders node')
    (second : node'.SameHeaders node'') : node.SameHeaders node'' :=
  ⟨second.remoteHeaders.trans first.remoteHeaders, second.features.trans first.features⟩

/-- What happens beside the chain: neither what is known of bad blocks and of headers nor the
settings of the node and of the builder change, and the payloads that were ordered go on. -/
structure Node.Beside (node node' : Node) : Prop extends
    node.SameChain node', node.SameHeaders node' where
  badChains : node'.badChains = node.badChains
  miner : node'.miner = node.miner
  payloads : node.payloads.Continues node.config node.miner node'.payloads

theorem Node.Beside.trans {node node' node'' : Node} (first : node.Beside node')
    (second : node'.Beside node'') : node.Beside node'' where
  toSameChain := first.toSameChain.trans second.toSameChain
  toSameHeaders := first.toSameHeaders.trans second.toSameHeaders
  badChains := second.badChains.trans first.badChains
  miner := second.miner.trans first.miner
  payloads := by
    have later := second.payloads
    rw [first.config, first.miner] at later
    exact first.payloads.trans later

namespace NodeM

theorem settle_ensures (node : Node) (logs : List LogEntry) :
    Ensures settle node logs fun _ node' _ => node.Beside node' :=
  ⟨⟨rfl, rfl⟩, ⟨rfl, rfl⟩, rfl, rfl,
    PayloadQueue.continues_advance node.payloads node.generator node.closed node.clock
      (node.lots.headD {}).ordered⟩

theorem passTime_ensures (node : Node) (logs : List LogEntry) (duration : Nat) :
    Ensures (passTime duration) node logs fun _ node' _ => node.Beside node' := by
  induction duration using passTime.induct generalizing node logs with
  | case1 duration ih =>
      rw [passTime]
      simp only [ensures_bind, ensures_modify]
      refine (settle_ensures _ logs).mono ?_
      intro _ node' logs' settled
      -- Only the clock has moved before the payloads catch up.
      have kept : node.Beside node' :=
        ⟨⟨settled.config, settled.chain⟩, ⟨settled.remoteHeaders, settled.features⟩,
          settled.badChains, settled.miner, settled.payloads⟩
      split
      · rename_i longer
        exact (ih longer node' logs').mono fun _ _ _ kept' => kept.trans kept'
      · exact kept

theorem advance_ensures (node : Node) (logs : List LogEntry) (duration : Nat) :
    Ensures (advance duration) node logs fun _ node' _ => node.Beside node' := by
  unfold advance
  rw [ensures_bind]
  refine (settle_ensures node logs).mono ?_
  rintro _ node' logs' kept
  split
  · refine (passTime_ensures node' logs' duration).mono ?_
    exact fun _ _ _ kept' => kept.trans kept'
  · exact kept

theorem pending_ensures (node : Node) (logs : List LogEntry) (now : UInt64) :
    Ensures (pending now) node logs fun _ node' _ => node.Beside node' := by
  simp only [pending, ensures_bind, ensures_get]
  cases node.generator.pending node.chain node.pendingBlock now <;>
    exact ⟨⟨rfl, rfl⟩, ⟨rfl, rfl⟩, rfl, rfl, .refl _⟩

theorem buildOwn_ensures (node : Node) (logs : List LogEntry) (args : BuildArgs)
    (wantWitness : Bool) :
    Ensures (buildOwn args wantWitness) node logs fun _ node' _ => node.Beside node' := by
  simp only [buildOwn, ensures_bind, ensures_get]
  cases node.chain.startPayload node.generator node.clock args wantWitness <;>
    exact ⟨⟨rfl, rfl⟩, ⟨rfl, rfl⟩, rfl, rfl, .refl _⟩

theorem resolveOwn_ensures (node : Node) (logs : List LogEntry) (id : PayloadId) :
    Ensures (resolveOwn id) node logs fun _ node' _ => node.Beside node' := by
  simp only [resolveOwn, ensures_bind, ensures_get]
  cases node.ownPayloads.get? id <;> exact ⟨⟨rfl, rfl⟩, ⟨rfl, rfl⟩, rfl, rfl, .refl _⟩

theorem resolveOwnFull_ensures (node : Node) (logs : List LogEntry) (id : PayloadId) :
    Ensures (resolveOwnFull id) node logs fun _ node' _ => node.Beside node' := by
  simp only [resolveOwnFull, ensures_bind, ensures_get]
  split
  · rw [ensures_bind]
    refine (settle_ensures node logs).mono ?_
    intro _ node' logs' kept
    exact (resolveOwn_ensures node' logs' id).mono fun _ _ _ kept' => kept.trans kept'
  · exact resolveOwn_ensures node logs id

end NodeM

namespace EngineM

open NodeM

theorem getPayload_ensures (node : Node) (logs : List LogEntry) (version : GetPayloadVersion)
    (id : PayloadId) :
    Ensures (getPayload version id) node logs fun _ node' _ => node.Beside node' := by
  rw [getPayload, ensures_bind, ensures_liftExcept]
  cases version.check id with
  | error e => exact ⟨⟨rfl, rfl⟩, ⟨rfl, rfl⟩, rfl, rfl, .refl _⟩
  | ok _ =>
      dsimp only
      rw [ensures_bind, ensures_get]
      dsimp only
      split
      · exact ⟨⟨rfl, rfl⟩, ⟨rfl, rfl⟩, rfl, rfl, .refl _⟩
      · exact ⟨⟨rfl, rfl⟩, ⟨rfl, rfl⟩, rfl, rfl, PayloadQueue.continues_deliver _ _ _⟩

theorem getBlobs_ensures (node : Node) (logs : List LogEntry) (hashes : List Hash) :
    Ensures (getBlobs hashes) node logs fun _ node' _ => node.Beside node' := by
  unfold getBlobs
  split <;> exact ⟨⟨rfl, rfl⟩, ⟨rfl, rfl⟩, rfl, rfl, .refl _⟩

theorem bodiesByHash_ensures (node : Node) (logs : List LogEntry) (hashes : List Hash) :
    Ensures (bodiesByHash hashes) node logs fun _ node' _ => node.Beside node' := by
  unfold bodiesByHash
  split <;> exact ⟨⟨rfl, rfl⟩, ⟨rfl, rfl⟩, rfl, rfl, .refl _⟩

theorem bodiesByRange_ensures (node : Node) (logs : List LogEntry) (start count : UInt64) :
    Ensures (bodiesByRange start count) node logs fun _ node' _ => node.Beside node' := by
  unfold bodiesByRange
  by_cases empty : start = 0 ∨ count = 0
  · simp only [empty, if_true]
    exact ⟨⟨rfl, rfl⟩, ⟨rfl, rfl⟩, rfl, rfl, .refl _⟩
  · simp only [empty, if_false]
    split <;> exact ⟨⟨rfl, rfl⟩, ⟨rfl, rfl⟩, rfl, rfl, .refl _⟩

theorem exchangeTransitionConfiguration_ensures (node : Node) (logs : List LogEntry)
    (remote : TransitionConfiguration) :
    Ensures (exchangeTransitionConfiguration remote) node logs
      fun _ node' _ => node.Beside node' := by
  unfold exchangeTransitionConfiguration
  cases remote.terminalTotalDifficulty with
  | none => exact ⟨⟨rfl, rfl⟩, ⟨rfl, rfl⟩, rfl, rfl, .refl _⟩
  | some difficulty =>
      simp only [ensures_bind, ensures_modify, ensures_get]
      split
      · exact ⟨⟨rfl, rfl⟩, ⟨rfl, rfl⟩, rfl, rfl, .refl _⟩
      · split
        · exact ⟨⟨rfl, rfl⟩, ⟨rfl, rfl⟩, rfl, rfl, .refl _⟩
        · split <;> exact ⟨⟨rfl, rfl⟩, ⟨rfl, rfl⟩, rfl, rfl, .refl _⟩

theorem signalSuperchain_ensures (node : Node) (logs : List LogEntry)
    (signal : Option SuperchainSignal) :
    Ensures (signalSuperchain signal) node logs fun _ node' _ => node.Beside node' := by
  unfold signalSuperchain
  cases signal with
  | none => exact ⟨⟨rfl, rfl⟩, ⟨rfl, rfl⟩, rfl, rfl, .refl _⟩
  | some signal =>
      simp only [ensures_bind, ensures_lift, ensures_logAll, ensures_get]
      split <;> exact ⟨⟨rfl, rfl⟩, ⟨rfl, rfl⟩, rfl, rfl, .refl _⟩

theorem executeStatelessPayload_ensures (node : Node) (logs : List LogEntry)
    (version : NewPayloadVersion) (request : PayloadRequest) (witness : Bytes) :
    Ensures (executeStatelessPayload version request witness) node logs
      fun _ node' _ => node.Beside node' := by
  rw [executeStatelessPayload, ensures_bind, ensures_get]
  dsimp only
  rw [ensures_bind, ensures_liftExcept]
  cases version.check .executeStateless node.config request with
  | error e => exact ⟨⟨rfl, rfl⟩, ⟨rfl, rfl⟩, rfl, rfl, .refl _⟩
  | ok _ =>
      dsimp only
      split
      · exact ⟨⟨rfl, rfl⟩, ⟨rfl, rfl⟩, rfl, rfl, .refl _⟩
      · split
        · exact ⟨⟨rfl, rfl⟩, ⟨rfl, rfl⟩, rfl, rfl, .refl _⟩
        · rw [ensures_bind, ensures_modify]
          dsimp only
          split <;> exact ⟨⟨rfl, rfl⟩, ⟨rfl, rfl⟩, rfl, rfl, .refl _⟩

end EngineM

/-! ### Steps of the chain -/

/-- What an event does to a chain. -/
inductive Chain.Step (config : ChainConfig) (chain : Chain) : Chain → Prop where
  | other (mode : SyncMode) : Step config chain { chain with syncMode := mode }
  | chosen {choice : ForkchoiceState} {attributes : Option PayloadAttributes}
      {result : Except EngineError ForkchoiceResponse} {chain' : Chain} :
      Chosen config chain choice attributes result chain' → Step config chain chain'
  | imported {request : PayloadRequest} {result : Except EngineError PayloadStatus}
      {chain' : Chain} : Imported config chain request result chain' → Step config chain chain'

namespace Node

variable {node : Node}

theorem SameChain.step {node' : Node} (kept : node.SameChain node') :
    node'.config = node.config ∧ node.chain.Step node.config node'.chain :=
  ⟨kept.config, by rw [kept.chain]; exact .other node.chain.syncMode⟩

theorem answer_forkchoiceUpdated (node : Node) (version : ForkchoiceVersion)
    (choice : ForkchoiceState) (attributes : Option PayloadAttributes) (wantWitness : Bool) :
    let answer := node.answer (.forkchoiceUpdated version choice attributes wantWitness)
    answer.2.config = node.config ∧
      node.chain.Chosen node.config choice attributes answer.1 answer.2.chain :=
  EngineM.forkchoiceUpdated_ensures node [] version choice attributes wantWitness

theorem answer_newPayload (node : Node) (version : NewPayloadVersion) (request : PayloadRequest)
    (wantWitness : Bool) :
    let answer := node.answer (.newPayload version request wantWitness)
    answer.2.config = node.config ∧
      node.chain.Imported node.config request answer.1 answer.2.chain :=
  EngineM.newPayload_ensures node [] version request wantWitness

/-- **Most events leave the chain alone.** -/
theorem after_cases (node : Node) (event : Event) :
    node.Beside (node.after event) ∨
      (∃ version choice attributes wantWitness,
        event = .call (.forkchoiceUpdated version choice attributes wantWitness)) ∨
      (∃ version request wantWitness, event = .call (.newPayload version request wantWitness)) ∨
      (∃ bad, event = .badBlock bad) ∨ (∃ mode, event = .setSyncMode mode) ∨
      (∃ miner, event = .setMiner miner) := by
  cases event with
  | call call =>
      cases call with
      | forkchoiceUpdated version choice attributes wantWitness =>
          exact .inr (.inl ⟨version, choice, attributes, wantWitness, rfl⟩)
      | newPayload version request wantWitness =>
          exact .inr (.inr (.inl ⟨version, request, wantWitness, rfl⟩))
      | executeStatelessPayload version request witness =>
          exact .inl (EngineM.executeStatelessPayload_ensures node [] version request witness)
      | getPayload version id => exact .inl (EngineM.getPayload_ensures node [] version id)
      | getBlobs hashes => exact .inl (EngineM.getBlobs_ensures node [] hashes)
      | bodiesByHash hashes => exact .inl (EngineM.bodiesByHash_ensures node [] hashes)
      | bodiesByRange start count => exact .inl (EngineM.bodiesByRange_ensures node [] start count)
      | exchangeTransitionConfiguration remote =>
          exact .inl (EngineM.exchangeTransitionConfiguration_ensures node [] remote)
      | exchangeCapabilities remote => exact .inl ⟨⟨rfl, rfl⟩, ⟨rfl, rfl⟩, rfl, rfl, .refl _⟩
      | clientVersion remote => exact .inl ⟨⟨rfl, rfl⟩, ⟨rfl, rfl⟩, rfl, rfl, .refl _⟩
      | signalSuperchain signal => exact .inl (EngineM.signalSuperchain_ensures node [] signal)
  | badBlock bad => exact .inr (.inr (.inr (.inl ⟨bad, rfl⟩)))
  | advance duration => exact .inl (NodeM.advance_ensures node [] duration)
  | setSyncMode mode => exact .inr (.inr (.inr (.inr (.inl ⟨mode, rfl⟩))))
  | setPool pool => exact .inl ⟨⟨rfl, rfl⟩, ⟨rfl, rfl⟩, rfl, rfl, .refl _⟩
  | setMiner miner => exact .inr (.inr (.inr (.inr (.inr ⟨miner, rfl⟩))))
  | pending now => exact .inl (NodeM.pending_ensures node [] now)
  | buildOwn args wantWitness => exact .inl (NodeM.buildOwn_ensures node [] args wantWitness)
  | resolveOwn id => exact .inl (NodeM.resolveOwn_ensures node [] id)
  | resolveOwnFull id => exact .inl (NodeM.resolveOwnFull_ensures node [] id)
  | dropOwn id => exact .inl ⟨⟨rfl, rfl⟩, ⟨rfl, rfl⟩, rfl, rfl, .refl _⟩
  | close => exact .inl ⟨⟨rfl, rfl⟩, ⟨rfl, rfl⟩, rfl, rfl, .refl _⟩

/-- **Every event is a step of the chain.** -/
theorem after_step (node : Node) (event : Event) :
    (node.after event).config = node.config ∧
      node.chain.Step node.config (node.after event).chain := by
  rcases node.after_cases event with beside |
    ⟨version, choice, attributes, wantWitness, rfl⟩ | ⟨version, request, wantWitness, rfl⟩ |
    ⟨bad, rfl⟩ | ⟨mode, rfl⟩ | ⟨miner, rfl⟩
  · exact beside.step
  · obtain ⟨config, chosen⟩ := node.answer_forkchoiceUpdated version choice attributes wantWitness
    exact ⟨config, .chosen chosen⟩
  · obtain ⟨config, imported⟩ := node.answer_newPayload version request wantWitness
    exact ⟨config, .imported imported⟩
  · exact SameChain.step ⟨rfl, rfl⟩
  · exact ⟨rfl, .other mode⟩
  · exact SameChain.step ⟨rfl, rfl⟩

@[simp] theorem run_config (node : Node) (events : List Event) :
    (node.run events).config = node.config := by
  induction events generalizing node with
  | nil => rfl
  | cons event rest ih => exact (ih (node.after event)).trans (node.after_step event).1

@[simp] theorem run_nil (node : Node) : node.run [] = node := rfl

theorem run_cons (node : Node) (event : Event) (events : List Event) :
    node.run (event :: events) = (node.after event).run events := rfl

theorem run_singleton (node : Node) (event : Event) : node.run [event] = node.after event := rfl

theorem run_append (node : Node) (events later : List Event) :
    node.run (events ++ later) = (node.run events).run later :=
  List.foldl_append

theorem run_concat (node : Node) (events : List Event) (event : Event) :
    node.run (events ++ [event]) = (node.run events).after event :=
  node.run_append events [event]

theorem after_call (node : Node) (call : Call) : node.after (.call call) = (node.answer call).2 :=
  rfl

/-- **Induction over runs.** What holds of a new chain and is kept by every step of a chain holds
at the end of every run. -/
theorem run_induction {motive : Chain → Prop} (node : Node) (events : List Event)
    (start : motive (.new node.config))
    (step : ∀ chain chain', motive chain → chain.Step node.config chain' → motive chain') :
    motive (node.fresh.run events).chain := by
  induction events using List.reverseRecOn with
  | nil => exact start
  | append_singleton events event ih =>
      rw [run_concat]
      have stepped := ((node.fresh.run events).after_step event).2
      rw [run_config] at stepped
      exact step _ _ ih stepped

end Node

end EngineNode
