import EngineNode.Proofs.Engine.Descendants
import EngineNode.Proofs.Engine.Queueing

/-!
Syncing to a block that was put off.

A choice of a head that is not stored starts a sync if the header of the head is remembered, and the
header of a block that was put off is remembered until too many others have been queued after it.

* `EngineM.forkchoiceUpdated_syncs`: a choice of a head that is remembered starts a sync.
* `Node.run_remembers`: what was queued is remembered while few enough others follow.
* `Node.syncs_to_queued`: so a block that was put off can be synced to.
-/

namespace EngineNode

/-- A sync to a header is asked for, once, and the downloader follows it. -/
structure Node.Syncs (node : Node) (header : Header) (final : Option Header) (node' : Node) :
    Prop where
  target : node'.downloader.target = some header
  requests : node'.downloader.requests = node.downloader.requests ++
    [.sync node.chain.syncMode header.hash (final.map Header.hash)]

/-! ### Choices of heads that are remembered -/

namespace NodeM

/-- What is no tip is looked up without a trace. -/
theorem checkBadChains_passes {node : Node} {check : Hash}
    (good : node.badChains.tips.get? check = none) (logs : List LogEntry) (head : Hash) :
    Ensures (checkBadChains check head) node logs fun status node' _ =>
      status = none ∧ ∃ metrics, node' = { node with metrics } := by
  have looks : Ensures (checkBadChains check head) node logs fun status node' _ =>
      let looked := node.badChains.check node.chain check head
      status = looked.1 ∧ ∃ metrics, node' = { node with badChains := looked.2.1, metrics } :=
    ⟨rfl, _, rfl⟩
  rw [BadChains.check_of_get?_eq_none good] at looks
  exact looks

end NodeM

namespace EngineM

open NodeM

theorem syncToUnknownHead_syncs (node : Node) (logs : List LogEntry) {head : Hash}
    {header : Header} (finalized : Hash) (working : node.hasFeature .injectSyncFailures = false)
    (good : node.badChains.tips.get? head = none)
    (remembered : node.remoteHeaders.get? head = some header) :
    Ensures (syncToUnknownHead head finalized) node logs fun result node' _ =>
      result = .ok (.ofStatus .syncing) ∧
        node.Syncs header (node.remoteHeaders.get? finalized) node' := by
  simp only [syncToUnknownHead, ensures_bind, ensures_lift]
  refine (checkBadChains_passes good logs head).mono ?_
  rintro _ _ logs' ⟨rfl, metrics, rfl⟩
  have accepts : Node.hasFeature { node with metrics } .injectSyncFailures = false := working
  simp only [ensures_bind, ensures_get, remembered, ensures_lift, ensures_logWithHead, accepts,
    Downloader.sync, Bool.false_eq_true, if_false]
  exact ⟨rfl, rfl, rfl⟩

/-- **A choice of a head that is remembered starts a sync**, unless the head is stored or the tip of
a bad chain. -/
theorem forkchoiceUpdated_syncs (node : Node) (logs : List LogEntry) {header : Header}
    {version : ForkchoiceVersion} {choice : ForkchoiceState}
    {attributes : Option PayloadAttributes} (wantWitness : Bool)
    (working : node.hasFeature .injectSyncFailures = false)
    (accepted : ∀ order, attributes = some order →
      version.checkAttributes node.config order = .ok ())
    (notZero : choice.headBlockHash.isZero = false)
    (unknown : node.chain.blockByHash? choice.headBlockHash = none)
    (good : node.badChains.tips.get? choice.headBlockHash = none)
    (remembered : node.remoteHeaders.get? choice.headBlockHash = some header) :
    Ensures (forkchoiceUpdated version choice attributes wantWitness) node logs
      fun result node' _ => result = .ok (.ofStatus .syncing) ∧
        node.Syncs header (node.remoteHeaders.get? choice.finalizedBlockHash) node' := by
  -- When the choice was made plays no part in what comes of it.
  have syncs (activity : Activity) :=
    syncToUnknownHead_syncs { node with activity } logs choice.finalizedBlockHash working good
      remembered
  refine forkchoiceUpdated_of_choose accepted ?_
  simp only [choose, notZero, Bool.false_eq_true, if_false, ensures_bind, ensures_modify,
    ensures_get, unknown]
  refine (syncs _).mono ?_
  rintro _ node' _ ⟨rfl, target, requests⟩
  exact ⟨⟨rfl, target, requests⟩, fun _ => ⟨rfl, target, requests⟩⟩

end EngineM

/-! ### Headers that are remembered -/

namespace Node

variable {node : Node} {hash : Hash} {header : Header}

/-- What is remembered under a hash has it. -/
theorem run_keyed (node : Node) (events : List Event)
    (found : (node.unqueued.run events).remoteHeaders.get? hash = some header) :
    header.hash = hash := by
  rw [(node.run_queue events).2] at found
  obtain ⟨other, -, same⟩ := List.mem_map.mp (BoundedMap.mem_of_get?_ofList found)
  cases same
  rfl

/-- **What was queued is remembered** while few enough others follow. -/
theorem run_remembers (node : Node) {events later : List Event} {event : Event}
    (queues : (node.unqueued.run events).queues? event = some header)
    (few : (((((node.unqueued.run events).after event).queued later).map Header.hash).toFinset.erase
      header.hash).card < headerQueueCapacity) :
    ∃ last, last.hash = header.hash ∧
      (node.unqueued.run (events ++ event :: later)).remoteHeaders.get? header.hash =
        some last := by
  have hashes : ((node.unqueued.queued (events ++ event :: later)).map fun header =>
      (header.hash, header)).map Prod.fst = (node.unqueued.queued events).map Header.hash ++
        header.hash :: (((node.unqueued.run events).after event).queued later).map Header.hash := by
    rw [queued_append, queued, queues, List.map_map, List.map_append]
    rfl
  have newest := mem_recentKeys_of_card_lt ((node.unqueued.queued events).map Header.hash) few
  rw [← hashes, ← BoundedMap.keys_ofList, BoundedMap.mem_keys_iff, ← (node.run_queue _).2] at newest
  obtain ⟨last, found⟩ := Option.isSome_iff_exists.mp newest
  exact ⟨last, node.run_keyed _ found, found⟩

/-- **A block that was put off can be synced to.** The answer to its payload was that it is put off,
and since then fewer headers of other blocks have been queued than there is room for. If the block
is chosen as the head then, and it is neither stored nor the tip of a bad chain, a sync to it is
asked for, once. What the choice calls final comes with it, if its header is remembered too. -/
theorem syncs_to_queued (node : Node) (working : node.hasFeature .injectSyncFailures = false)
    (earlier later : List Event) {version : NewPayloadVersion} {request : PayloadRequest}
    {wantWitness : Bool} {status : PayloadStatus} {choosing : ForkchoiceVersion}
    {choice : ForkchoiceState} {attributes : Option PayloadAttributes} {wantWitness' : Bool} :
    let asked := node.unqueued.run earlier
    let payload := Call.newPayload version request wantWitness
    let left := asked.after (.call payload)
    let now := left.run later
    let answer := now.answer (.forkchoiceUpdated choosing choice attributes wantWitness')
    (asked.answer payload).1 = .ok status → status.status = .syncing ∨ status.status = .accepted →
    choice.headBlockHash = request.payload.blockHash → choice.headBlockHash.isZero = false →
    (((left.queued later).map Header.hash).toFinset.erase choice.headBlockHash).card < 96 →
    now.chain.blockByHash? choice.headBlockHash = none →
    now.badChains.tips.get? choice.headBlockHash = none →
    (∀ order, attributes = some order → choosing.checkAttributes now.config order = .ok ()) →
    answer.1 = .ok (.ofStatus .syncing) ∧ ∃ header final, now.Syncs header final answer.2 ∧
      header.hash = choice.headBlockHash ∧
      final = now.remoteHeaders.get? choice.finalizedBlockHash ∧
      ∀ known, final = some known → known.hash = choice.finalizedBlockHash := by
  intro asked payload left now answer answered putsOff head notZero few unknown good accepted
  have run : now = node.unqueued.run (earlier ++ .call payload :: later) := by
    rw [run_append, run_cons]
  obtain ⟨block, converted, queues⟩ := queues?_eq_some answered putsOff
  have hash : block.header.hash = choice.headBlockHash :=
    ((Payload.toBlock_eq_ok_iff.mp converted).2).trans head.symm
  rw [← hash] at few
  obtain ⟨header, keyed, found⟩ := node.run_remembers queues few
  rw [← run, hash] at found
  have works : now.hasFeature .injectSyncFailures = false := by
    rw [hasFeature, run, (node.run_queue _).1]
    exact working
  have syncs : EngineM.Ensures _ now [] _ :=
    EngineM.forkchoiceUpdated_syncs now [] wantWitness' works accepted notZero unknown good found
  refine ⟨syncs.1, header, _, syncs.2, keyed.trans hash, rfl, ?_⟩
  intro known final
  rw [run] at final
  exact node.run_keyed _ final

end Node

namespace Siblings

/-- A node at the start of its chain that has met no bad blocks. -/
structure AtStart (node : Node) : Prop where
  config : node.config = {}
  chain : node.chain = .new {}
  badChains : node.badChains = {}

/-- A block on top of an unknown one is put off. -/
theorem onTop_putOff (node : Node) (start : AtStart node) {hash : Hash}
    (orphan : (Chain.new {}).blockByHash? hash = none)
    (fresh : (Chain.new {}).blockByHash? (onTop hash).hash = none) :
    let call := Call.newPayload .v1 (onTopSubmission hash).request false
    (node.answer call).1 = .ok PayloadStatus.syncing ∧ AtStart (node.after (.call call)) ∧
      (node.after (.call call)).remoteHeaders =
        node.remoteHeaders.insert (onTop hash).hash (onTop hash).header := by
  have presents : (onTopSubmission hash).request.Presents .v1 node.config false (onTop hash) := by
    rw [start.config]
    exact onTop_presents hash
  rw [← start.chain] at orphan fresh
  have delayed := Node.answer_orphan presents fresh orphan
  have passes : ({} : BadChains).checkOrphan node.chain (onTop hash) = (none, {}) := rfl
  rw [start.badChains, passes] at delayed
  obtain ⟨⟨config, chain⟩, badChains, answered, headers⟩ := delayed
  intro call
  rw [Node.after_call]
  exact ⟨answered, ⟨config.trans start.config, chain.trans start.chain, badChains⟩, headers⟩

/-- Such a node knows no bad tip, whatever is to be computed of its hash. -/
theorem AtStart.untracked {node : Node} (start : AtStart node) (hash : Hash) :
    node.badChains.tips.get? hash = none := by
  rw [start.badChains]
  rfl

theorem AtStart.unknown {node : Node} (start : AtStart node) {hash : Hash}
    (fresh : (Chain.new {}).blockByHash? hash = none) : node.chain.blockByHash? hash = none := by
  rw [start.chain]
  exact fresh

/-- The hash of a block on top of a bad one, of which the node knows nothing. -/
def lower : Hash := (onTop misnumbered.hash).hash

/-- The hash of a block on top of that one. -/
def upper : Hash := (onTop lower).hash

theorem hash_onTopSubmission (hash : Hash) : (onTopSubmission hash).hash = (onTop hash).hash :=
  (onTop_presents hash).hash_eq.symm

/-- Two blocks on top of unknown ones are put off, and the first of them is sent once more. -/
theorem upper_putOff (node : Node) (start : AtStart node.unqueued)
    (lowerFresh : (Chain.new {}).blockByHash? lower = none)
    (upperFresh : (Chain.new {}).blockByHash? upper = none) :
    let first := Call.newPayload .v1 (onTopSubmission misnumbered.hash).request false
    let second := Call.newPayload .v1 (onTopSubmission lower).request false
    let asked := node.unqueued.run [.call first]
    let left := asked.after (.call second)
    let now := left.run [.call first]
    (asked.answer second).1 = .ok PayloadStatus.syncing ∧
      (((left.queued [.call first]).map Header.hash).toFinset.erase upper).card < 96 ∧
      AtStart now ∧ (now.remoteHeaders.get? lower).map Header.hash = some lower := by
  intro first second asked left now
  obtain ⟨-, start, -⟩ := onTop_putOff node.unqueued start misnumbered_fresh lowerFresh
  rw [← node.unqueued.run_singleton] at start
  obtain ⟨answered, start, -⟩ := onTop_putOff asked start lowerFresh upperFresh
  obtain ⟨-, start, headers⟩ := onTop_putOff left start misnumbered_fresh lowerFresh
  rw [← left.run_singleton] at start headers
  have few := (left.card_queued_le [.call first] upper).trans_lt (by decide : 1 < 96)
  have final : (now.remoteHeaders.get? lower).map Header.hash = some lower := by
    have newest := BoundedMap.get?_insert_self left.remoteHeaders lower
      (onTop misnumbered.hash).header (by decide)
    rw [show now.remoteHeaders = _ from headers, ← lower, newest, Option.map_some, lower]
    rfl
  exact ⟨answered, few, start, final⟩

/-- The upper block is chosen as the head then, with the lower one as final. -/
theorem upper_syncs :
    let first := Call.newPayload .v1 (onTopSubmission misnumbered.hash).request false
    let second := Call.newPayload .v1 (onTopSubmission lower).request false
    let asked := (Node.new {}).unqueued.run [.call first]
    let left := asked.after (.call second)
    let now := left.run [.call first]
    let answer := now.answer (.forkchoiceUpdated .v1 ⟨upper, .zero 32, lower⟩ none false)
    (Node.new {}).hasFeature .injectSyncFailures = false ∧
      (asked.answer second).1 = .ok PayloadStatus.syncing ∧
      (((left.queued [.call first]).map Header.hash).toFinset.erase upper).card < 96 ∧
      now.chain.blockByHash? upper = none ∧ now.badChains.tips.get? upper = none ∧
      answer.1 = .ok (.ofStatus .syncing) ∧
      answer.2.downloader.requests = now.downloader.requests ++
        [.sync .full upper (some lower)] := by
  obtain ⟨lowerOther, upperOther, -, -, notZero⟩ := descendants_distinct
  have lowerFresh : (Chain.new {}).blockByHash? lower = none := by
    rw [lower, ← hash_onTopSubmission]
    exact blockByHash?_new lowerOther
  have upperFresh : (Chain.new {}).blockByHash? upper = none := by
    rw [upper, ← hash_onTopSubmission]
    exact blockByHash?_new upperOther
  have notZero : upper.isZero = false := by
    rw [upper, ← hash_onTopSubmission]
    exact FixedBytes.isZero_eq_false notZero
  have started : (Node.new {}).hasFeature .injectSyncFailures = false ∧
    AtStart (Node.new {}).unqueued := ⟨rfl, rfl, rfl, rfl⟩
  -- The node is not looked into, so that nothing is computed of its run.
  generalize Node.new {} = node at *
  obtain ⟨working, start⟩ := started
  obtain ⟨answered, few, start, final⟩ := upper_putOff node start lowerFresh upperFresh
  have unknown := start.unknown upperFresh
  have good := start.untracked upper
  obtain ⟨syncing, header, _, ⟨-, requests⟩, hash, same, -⟩ :=
    @Node.syncs_to_queued node working [_] [_] .v1 (onTopSubmission lower).request false .syncing
      .v1 ⟨upper, .zero 32, lower⟩ none false answered (.inl rfl) (hash_onTopSubmission lower).symm
      notZero few unknown good nofun
  have mode : (Chain.new {}).syncMode = .full := rfl
  rw [hash, same, final, start.chain, mode] at requests
  exact ⟨working, answered, few, unknown, good, syncing, requests⟩

end Siblings

end EngineNode
