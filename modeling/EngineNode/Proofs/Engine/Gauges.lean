import EngineNode.Proofs.Engine.Store

/-!
The gauges of a node.

A node with metrics shows the number of its head and how many tips of bad chains it tracks. Both are
copies of what the node holds. Wherever the head or the tips change, the copy is taken anew before
the next step that can fail, so that a call which ends in an error leaves no gauge behind.

* `NodeM.countTips_gauged`, `NodeM.reportHead_gauged`: each copy makes one gauge right.
* `EngineM.newPayload_gauged`, `EngineM.forkchoiceUpdated_gauged`: the two methods that change what
  is shown keep the gauges right, whatever they end in.
* `Node.after_gauged`: so does every event.
* `Node.run_gauges`: what a node shows after every run.
-/

namespace EngineNode

/-! ### What is shown -/

theorem Metrics.invalidTips_mem_lines (m : Metrics) :
    ("INVALID_TIPSETS " ++ toString (gauge m.invalidTips)) ∈ m.lines := by
  simp [lines, single]

theorem Metrics.headNumber_mem_lines (m : Metrics) :
    ("HEAD_NUMBER " ++ toString (gauge m.headNumber)) ∈ m.lines := by
  simp [lines, single]

/-- The gauges of a node show what it holds. -/
structure Node.Gauged (node : Node) : Prop where
  head : node.metrics.map Metrics.headNumber = some node.chain.currentHeader.number.toNat
  tips : node.metrics.map Metrics.invalidTips = some node.badChains.tips.size

/-- What is counted beside the gauges does not matter to them. -/
theorem Node.Gauged.count {node : Node} (gauged : node.Gauged) {change : Metrics → Metrics}
    (head : ∀ m, (change m).headNumber = m.headNumber)
    (tips : ∀ m, (change m).invalidTips = m.invalidTips) : (node.count change).Gauged := by
  constructor
  · show (node.metrics.map change).map Metrics.headNumber = _
    rw [Option.map_map, show Metrics.headNumber ∘ change = Metrics.headNumber from funext head]
    exact gauged.head
  · show (node.metrics.map change).map Metrics.invalidTips = _
    rw [Option.map_map, show Metrics.invalidTips ∘ change = Metrics.invalidTips from funext tips]
    exact gauged.tips

/-- What is recorded beside the head does not matter either. -/
theorem Node.Gauged.sameLine {node : Node} {chain : Chain} (gauged : node.Gauged)
    (line : node.chain.SameLine chain) : Node.Gauged { node with chain } :=
  ⟨by rw [gauged.head, Chain.currentHeader, Chain.currentHeader, line.head], gauged.tips⟩

namespace NodeM

/-! ### Taking the copies -/

/-- Whatever was shown of the tips before, it is right when they have been counted. -/
theorem countTips_gauged (node : Node) (logs : List LogEntry)
    (head : node.metrics.map Metrics.headNumber = some node.chain.currentHeader.number.toNat) :
    Ensures countTips node logs fun _ node' _ => node'.Gauged := by
  obtain ⟨m, present, shown⟩ := Option.map_eq_some_iff.mp head
  simp only [countTips, ensures_modify, Node.count, present]
  exact ⟨congrArg some shown, rfl⟩

/-- Whatever was shown of the head before, it is right when the head has been reported. -/
theorem reportHead_gauged (node : Node) (logs : List LogEntry)
    (tips : node.metrics.map Metrics.invalidTips = some node.badChains.tips.size) :
    Ensures reportHead node logs fun _ node' _ => node'.Gauged := by
  obtain ⟨m, present, shown⟩ := Option.map_eq_some_iff.mp tips
  simp only [reportHead, ensures_modify, Node.count, present]
  exact ⟨rfl, congrArg some shown⟩

variable {node : Node} (gauged : node.Gauged) (logs : List LogEntry)

include gauged

theorem markBadBlock_gauged (bad : BadBlock) :
    Ensures (markBadBlock bad) node logs fun _ node' _ => node'.Gauged := by
  simp only [markBadBlock, ensures_bind, ensures_modify]
  exact countTips_gauged _ _ gauged.head

theorem checkBadChains_gauged (check head : Hash) :
    Ensures (checkBadChains check head) node logs fun _ node' _ => node'.Gauged := by
  simp only [checkBadChains, ensures_bind, ensures_get]
  exact countTips_gauged { node with
    badChains := (node.badChains.check node.chain check head).2.1 }
    (logs ++ (node.badChains.check node.chain check head).2.2) gauged.head

/-! ### Time and the operator -/

theorem settle_gauged : Ensures settle node logs fun _ node' _ => node'.Gauged := by
  have improved (n : Metrics → Nat) :
      (node.count fun m => { m with improvements := n m }).Gauged :=
    gauged.count (fun _ => rfl) fun _ => rfl
  exact ⟨(improved _).head, (improved _).tips⟩

omit gauged in
theorem passTime_gauged (gauged : node.Gauged) (duration : Nat) :
    Ensures (passTime duration) node logs fun _ node' _ => node'.Gauged := by
  induction duration using passTime.induct generalizing node logs with
  | case1 duration ih =>
      rw [passTime]
      simp only [ensures_bind, ensures_modify]
      have later : Node.Gauged { node with clock := node.clock + min duration clockSlice } :=
        ⟨gauged.head, gauged.tips⟩
      refine (settle_gauged later logs).mono ?_
      intro _ node' logs' gauged'
      split
      · rename_i longer
        exact ih longer logs' gauged'
      · exact gauged'

theorem advance_gauged (duration : Nat) :
    Ensures (advance duration) node logs fun _ node' _ => node'.Gauged := by
  unfold advance
  rw [ensures_bind]
  refine (settle_gauged gauged logs).mono ?_
  intro _ node' logs' gauged'
  split
  · exact passTime_gauged logs' gauged' duration
  · exact gauged'

theorem pending_gauged (now : UInt64) :
    Ensures (pending now) node logs fun _ node' _ => node'.Gauged := by
  simp only [pending, ensures_bind, ensures_get]
  cases node.generator.pending node.chain node.pendingBlock now <;>
    exact ⟨gauged.head, gauged.tips⟩

theorem buildOwn_gauged (args : BuildArgs) (wantWitness : Bool) :
    Ensures (buildOwn args wantWitness) node logs fun _ node' _ => node'.Gauged := by
  simp only [buildOwn, ensures_bind, ensures_get]
  cases node.chain.startPayload node.generator node.clock args wantWitness <;>
    exact ⟨gauged.head, gauged.tips⟩

theorem resolveOwn_gauged (id : PayloadId) :
    Ensures (resolveOwn id) node logs fun _ node' _ => node'.Gauged := by
  simp only [resolveOwn, ensures_bind, ensures_get]
  cases node.ownPayloads.get? id <;> exact ⟨gauged.head, gauged.tips⟩

theorem resolveOwnFull_gauged (id : PayloadId) :
    Ensures (resolveOwnFull id) node logs fun _ node' _ => node'.Gauged := by
  simp only [resolveOwnFull, ensures_bind, ensures_get]
  split
  · rw [ensures_bind]
    refine (settle_gauged gauged logs).mono ?_
    intro _ node' logs' gauged'
    exact resolveOwn_gauged gauged' logs' id
  · exact resolveOwn_gauged gauged logs id

end NodeM

namespace EngineM

open NodeM

variable {node : Node} (gauged : node.Gauged) (logs : List LogEntry)

include gauged

/-! ### Queries -/

theorem getPayload_gauged (version : GetPayloadVersion) (id : PayloadId) :
    Ensures (getPayload version id) node logs fun _ node' _ => node'.Gauged := by
  rw [getPayload, ensures_bind, ensures_liftExcept]
  cases version.check id with
  | error e => exact gauged
  | ok _ =>
      dsimp only
      rw [ensures_bind, ensures_get]
      dsimp only
      split
      · exact gauged
      · exact ⟨gauged.head, gauged.tips⟩

theorem getBlobs_gauged (hashes : List Hash) :
    Ensures (getBlobs hashes) node logs fun _ node' _ => node'.Gauged := by
  unfold getBlobs
  split <;> exact gauged

theorem bodiesByHash_gauged (hashes : List Hash) :
    Ensures (bodiesByHash hashes) node logs fun _ node' _ => node'.Gauged := by
  unfold bodiesByHash
  split <;> exact gauged

theorem bodiesByRange_gauged (start count : UInt64) :
    Ensures (bodiesByRange start count) node logs fun _ node' _ => node'.Gauged := by
  unfold bodiesByRange
  by_cases empty : start = 0 ∨ count = 0
  · simp only [empty, if_true]
    exact gauged
  · simp only [empty, if_false]
    split <;> exact gauged

theorem exchangeTransitionConfiguration_gauged (remote : TransitionConfiguration) :
    Ensures (exchangeTransitionConfiguration remote) node logs fun _ node' _ => node'.Gauged := by
  unfold exchangeTransitionConfiguration
  cases remote.terminalTotalDifficulty with
  | none => exact gauged
  | some difficulty =>
      simp only [ensures_bind, ensures_modify, ensures_get]
      split
      · exact ⟨gauged.head, gauged.tips⟩
      · split
        · exact ⟨gauged.head, gauged.tips⟩
        · split <;> exact ⟨gauged.head, gauged.tips⟩

theorem signalSuperchain_gauged (signal : Option SuperchainSignal) :
    Ensures (signalSuperchain signal) node logs fun _ node' _ => node'.Gauged := by
  unfold signalSuperchain
  cases signal with
  | none => exact gauged
  | some signal =>
      simp only [ensures_bind, ensures_lift, ensures_logAll, ensures_get]
      split <;> exact ⟨gauged.head, gauged.tips⟩

theorem executeStatelessPayload_gauged (version : NewPayloadVersion) (request : PayloadRequest)
    (witness : Bytes) :
    Ensures (executeStatelessPayload version request witness) node logs
      fun _ node' _ => node'.Gauged := by
  rw [executeStatelessPayload, ensures_bind, ensures_get]
  dsimp only
  rw [ensures_bind, ensures_liftExcept]
  cases version.check .executeStateless node.config request with
  | error e => exact gauged
  | ok _ =>
      dsimp only
      split
      · exact gauged
      · split
        · exact gauged
        · rw [ensures_bind, ensures_modify]
          dsimp only
          split <;> exact ⟨gauged.head, gauged.tips⟩

/-! ### Payloads -/

theorem delayImport_gauged (block : Block) :
    Ensures (delayImport block) node logs fun _ node' _ => node'.Gauged := by
  simp only [delayImport, ensures_bind, ensures_lift]
  refine (checkBadChains_gauged gauged logs _ _).mono ?_
  intro status node' logs' gauged'
  cases status with
  | some rejection => exact gauged'
  | none =>
      simp only [ensures_bind, ensures_get, rememberHeader, ensures_modify]
      cases node'.downloader.extend node'.chain.syncMode block.header with
      | ok downloader => exact ⟨gauged'.head, gauged'.tips⟩
      | error e =>
          simp only
          split <;> exact ⟨gauged'.head, gauged'.tips⟩

theorem execute_gauged (block parent : Block) (wantWitness : Bool) :
    Ensures (execute block parent wantWitness) node logs fun _ node' _ => node'.Gauged := by
  simp only [execute, ensures_bind, ensures_get]
  cases inserted : node.chain.insert node.config block wantWitness with
  | ok result =>
      -- What is stored does not become the head.
      obtain ⟨chain', witness⟩ := result
      obtain ⟨_, _, -, -, -, -, -, rfl, -⟩ := Chain.insert_eq_ok_iff.mp inserted
      exact ⟨gauged.head, gauged.tips⟩
  | error e =>
      -- The header of a block that fails may be a new tip.
      have counted := countTips_gauged { node with
        badChains := node.badChains.recordFailure block.header }
        (logs ++ [⟨.warn, node.report.mark ("NewPayload: inserting block failed: " ++ e.message)⟩])
        gauged.head
      cases e
      case overflow => exact gauged
      all_goals exact counted

theorem importOn_gauged (block parent : Block) (wantWitness : Bool) :
    Ensures (importOn block parent wantWitness) node logs fun _ node' _ => node'.Gauged := by
  simp only [importOn, ensures_bind, ensures_get]
  split
  · exact gauged
  · split
    · exact delayImport_gauged gauged logs block
    · split
      · exact execute_gauged gauged logs block parent wantWitness
      · exact ⟨gauged.head, gauged.tips⟩

theorem importBlock_gauged (block : Block) (wantWitness : Bool) :
    Ensures (importBlock block wantWitness) node logs fun _ node' _ => node'.Gauged := by
  have noted : Node.Gauged { node with
      activity := { node.activity with newPayload := some node.clock } } :=
    ⟨gauged.head, gauged.tips⟩
  simp only [importBlock, ensures_bind, ensures_modify, ensures_get]
  cases node.chain.blockByHash? block.hash with
  | some known => exact noted
  | none =>
      simp only [ensures_bind, ensures_lift]
      refine (checkBadChains_gauged noted logs _ _).mono ?_
      intro status node' logs' gauged'
      cases status with
      | some rejection => exact gauged'
      | none =>
          cases node.chain.blockByHash? block.parentHash with
          | none => exact delayImport_gauged gauged' logs' block
          | some parent => exact importOn_gauged gauged' logs' block parent wantWitness

theorem importPayload_gauged (request : PayloadRequest) (wantWitness : Bool) :
    Ensures (importPayload request wantWitness) node logs fun _ node' _ => node'.Gauged := by
  simp only [importPayload, ensures_bind, ensures_get]
  split
  · exact gauged
  · cases request.payload.toBlock node.config request.sidecar with
    | error e => exact gauged
    | ok block => exact importBlock_gauged gauged logs block wantWitness

/-- **A payload leaves the gauges right**, whatever becomes of it. -/
theorem newPayload_gauged (version : NewPayloadVersion) (request : PayloadRequest)
    (wantWitness : Bool) :
    Ensures (newPayload version request wantWitness) node logs fun _ node' _ => node'.Gauged := by
  rw [newPayload, ensures_bind, ensures_get]
  dsimp only
  rw [ensures_bind, ensures_liftExcept]
  cases version.check _ node.config request with
  | error e => exact gauged
  | ok _ =>
      dsimp only
      split
      · exact gauged
      · refine ensures_bind.mpr ((importPayload_gauged gauged logs request wantWitness).mono ?_)
        intro result node' _ gauged'
        cases result with
        | error e => exact gauged'
        | ok status => exact gauged'.count (fun _ => rfl) fun _ => rfl

/-! ### Choices -/

theorem startPayload_gauged (parent : Hash) (attributes : PayloadAttributes)
    (version : ForkchoiceVersion) (wantWitness : Bool) :
    Ensures (startPayload parent attributes version wantWitness) node logs
      fun _ node' _ => node'.Gauged := by
  simp only [startPayload, ensures_bind, ensures_get, ensures_liftExcept]
  cases buildArgs node.config parent attributes version with
  | error e => exact gauged
  | ok args =>
      -- The start and its duration are counted, which the gauges do not show.
      have started : (node.count fun m => { m with builds := m.builds + 1 }).Gauged :=
        gauged.count (fun _ => rfl) fun _ => rfl
      have timed : ((node.count fun m => { m with builds := m.builds + 1 }).count
          fun m => { m with timedBuilds := m.timedBuilds + 1 }).Gauged :=
        started.count (fun _ => rfl) fun _ => rfl
      simp only
      split
      · exact gauged
      · cases node.chain.startPayload node.generator node.clock args wantWitness with
        | ok job => exact ⟨timed.head, timed.tips⟩
        | error e =>
            cases e
            case overflow => exact timed
            all_goals exact started

theorem syncToUnknownHead_gauged (head finalized : Hash) :
    Ensures (syncToUnknownHead head finalized) node logs fun _ node' _ => node'.Gauged := by
  simp only [syncToUnknownHead, ensures_bind, ensures_lift]
  refine (checkBadChains_gauged gauged logs head head).mono ?_
  intro status node' logs' gauged'
  cases status with
  | some rejection => exact gauged'
  | none =>
      cases seen : node'.remoteHeaders.get? head with
      | none =>
          simp only [ensures_bind, ensures_get, seen]
          exact gauged'
      | some header =>
          simp only [ensures_bind, ensures_get, seen, ensures_lift, ensures_logWithHead]
          split
          · exact gauged'
          · exact ⟨gauged'.head, gauged'.tips⟩

theorem chooseStoredHead_gauged (head : Block) (version : ForkchoiceVersion)
    (choice : ForkchoiceState) (attributes : Option PayloadAttributes) (wantWitness : Bool) :
    Ensures (chooseStoredHead head version choice attributes wantWitness) node logs
      fun _ node' _ => node'.Gauged := by
  unfold chooseStoredHead
  rw [ensures_bind]
  refine (isPastMerge_ensures node logs head).mono ?_
  rintro past node logs ⟨rfl, -⟩
  rcases past with e | _ | _
  · exact gauged
  · simp only [Bool.false_eq_true, if_false, ensures_bind]
    refine (makeHead_ensures _ logs head).mono ?_
    rintro followed _ logs ⟨made, rfl, moved⟩
    rcases followed with e | _ | _
    · cases moved
      exact gauged
    · cases moved
      exact gauged
    · simp only [if_true, ensures_bind, ensures_modify, ensures_lift]
      -- The new head is reported before the rest of the choice can fail.
      refine NodeM.Ensures.mono (reportHead_gauged _ logs gauged.tips) ?_
      intro _ node' logs' gauged'
      refine (recordFinality_ensures _ logs' choice).mono ?_
      rintro checked _ logs ⟨recorded, done, rfl, finality, -⟩
      have recordedGauged : Node.Gauged { node' with chain := recorded } :=
        gauged'.sameLine finality.sameLine
      rcases checked with e | _
      · exact recordedGauged
      · cases attributes with
        | none => exact recordedGauged
        | some order =>
            refine ensures_bind.mpr
              ((startPayload_gauged recordedGauged logs _ order _ _).mono ?_)
            intro started node'' _ gauged''
            cases started <;> exact gauged''
  · exact gauged

theorem choose_gauged (version : ForkchoiceVersion) (choice : ForkchoiceState)
    (attributes : Option PayloadAttributes) (wantWitness : Bool) :
    Ensures (choose version choice attributes wantWitness) node logs
      fun _ node' _ => node'.Gauged := by
  unfold choose
  split
  · exact gauged
  · have noted : Node.Gauged { node with
        activity := { node.activity with forkchoice := some node.clock } } :=
      ⟨gauged.head, gauged.tips⟩
    simp only [ensures_bind, ensures_modify, ensures_get]
    cases node.chain.blockByHash? choice.headBlockHash with
    | none => exact syncToUnknownHead_gauged noted logs _ _
    | some head => exact chooseStoredHead_gauged noted logs head version choice _ _

/-- **A choice leaves the gauges right**, also one that fails after the head has changed. -/
theorem forkchoiceUpdated_gauged (version : ForkchoiceVersion) (choice : ForkchoiceState)
    (attributes : Option PayloadAttributes) (wantWitness : Bool) :
    Ensures (forkchoiceUpdated version choice attributes wantWitness) node logs
      fun _ node' _ => node'.Gauged := by
  have counted : Ensures (do
      let response ← choose version choice attributes wantWitness
      count fun m => { m with
        forkchoiceStatuses := m.forkchoiceStatuses.add response.payloadStatus.status.name }
      return response) node logs fun _ node' _ => node'.Gauged := by
    refine ensures_bind.mpr ((choose_gauged gauged logs _ _ _ _).mono ?_)
    rintro (e | response) node' _ gauged'
    · exact gauged'
    · exact gauged'.count (fun _ => rfl) fun _ => rfl
  unfold forkchoiceUpdated
  cases attributes with
  | none => exact counted
  | some order =>
      rw [ensures_bind, ensures_get]
      dsimp only
      rw [ensures_bind, ensures_liftExcept]
      cases version.checkAttributes node.config order with
      | error e => exact gauged
      | ok _ => exact counted

end EngineM

/-! ### Runs -/

namespace Node

/-- **Every event leaves the gauges right**, also a call that ends in an error. -/
theorem after_gauged {node : Node} (gauged : node.Gauged) (event : Event) :
    (node.after event).Gauged := by
  cases event with
  | call call =>
      cases call with
      | forkchoiceUpdated version choice attributes wantWitness =>
          exact EngineM.forkchoiceUpdated_gauged gauged [] version choice attributes wantWitness
      | newPayload version request wantWitness =>
          exact EngineM.newPayload_gauged gauged [] version request wantWitness
      | executeStatelessPayload version request witness =>
          exact EngineM.executeStatelessPayload_gauged gauged [] version request witness
      | getPayload version id => exact EngineM.getPayload_gauged gauged [] version id
      | getBlobs hashes => exact EngineM.getBlobs_gauged gauged [] hashes
      | bodiesByHash hashes => exact EngineM.bodiesByHash_gauged gauged [] hashes
      | bodiesByRange start count => exact EngineM.bodiesByRange_gauged gauged [] start count
      | exchangeTransitionConfiguration remote =>
          exact EngineM.exchangeTransitionConfiguration_gauged gauged [] remote
      | exchangeCapabilities remote => exact gauged
      | clientVersion remote => exact gauged
      | signalSuperchain signal => exact EngineM.signalSuperchain_gauged gauged [] signal
  | badBlock bad => exact NodeM.markBadBlock_gauged gauged [] bad
  | advance duration => exact NodeM.advance_gauged gauged [] duration
  | setSyncMode mode => exact ⟨gauged.head, gauged.tips⟩
  | setPool pool => exact ⟨gauged.head, gauged.tips⟩
  | setMiner miner => exact ⟨gauged.head, gauged.tips⟩
  | pending now => exact NodeM.pending_gauged gauged [] now
  | buildOwn args wantWitness => exact NodeM.buildOwn_gauged gauged [] args wantWitness
  | resolveOwn id => exact NodeM.resolveOwn_gauged gauged [] id
  | resolveOwnFull id => exact NodeM.resolveOwnFull_gauged gauged [] id
  | dropOwn id => exact ⟨gauged.head, gauged.tips⟩
  | close => exact ⟨gauged.head, gauged.tips⟩

/-- A node that has just been started and collects metrics. -/
def metered (node : Node) : Node := { node.started with metrics := some {} }

theorem metered_gauged (node : Node) : node.metered.Gauged := ⟨rfl, rfl⟩

/-- **Gauges in every run.** After every row of events a node that collects metrics shows how many
tips of bad chains it tracks and the number of its head, each as far as a gauge reaches. An event
may be a call that ends in an error. -/
theorem run_gauges (node : Node) (events : List Event) :
    let last := node.metered.run events
    ∃ m, last.metrics = some m ∧
      Metrics.gauge m.invalidTips = min last.badChains.tips.size (2 ^ 63 - 1) ∧
      Metrics.gauge m.headNumber = min last.chain.currentHeader.number.toNat (2 ^ 63 - 1) ∧
      ("INVALID_TIPSETS " ++ toString (Metrics.gauge m.invalidTips)) ∈ m.lines ∧
      ("HEAD_NUMBER " ++ toString (Metrics.gauge m.headNumber)) ∈ m.lines := by
  intro last
  have gauged : last.Gauged := by
    show (node.metered.run events).Gauged
    induction events using List.reverseRecOn with
    | nil => exact node.metered_gauged
    | append_singleton events event ih =>
        rw [run_concat]
        exact after_gauged ih event
  obtain ⟨m, present, head⟩ := Option.map_eq_some_iff.mp gauged.head
  have tips : m.invalidTips = last.badChains.tips.size := by
    have shown := gauged.tips
    rw [present] at shown
    exact Option.some.inj shown
  refine ⟨m, present, ?_, ?_, ?_, ?_⟩
  · rw [tips]
    rfl
  · rw [head]
    rfl
  · exact m.invalidTips_mem_lines
  · exact m.headNumber_mem_lines

end Node

end EngineNode
