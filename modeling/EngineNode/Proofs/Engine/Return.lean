import EngineNode.Proofs.Engine.Siblings
import EngineNode.Proofs.Engine.Waiting

/-!
Payloads that are sent back.

When a payload that was fetched is sent back, its block extends a stored parent, so nothing but the
conversion of the payload is in its way.

* `Node.Orderly.takes_built`: a built block whose payload can be converted is taken back.
* `Node.fetched_returns`: a payload that was fetched is valid when it is sent back, exactly if it
  keeps the rules of `Payload.Returns`.
* `PlainOrder.marked_not_taken`: not all payloads keep them.
-/

namespace EngineNode

/-! ### Answers to payloads -/

namespace EngineM

open NodeM

variable {node : Node} {logs : List LogEntry} {version : NewPayloadVersion}
  {request : PayloadRequest} {wantWitness : Bool} {block : Block}

/-- A payload whose block is stored is valid. -/
theorem newPayload_knows {old : Block}
    (accepted : version.check
      (if wantWitness then .newPayloadWithWitness else .newPayload) node.config request = .ok ())
    (ordered : Requests.validate (request.executionRequests.getD []) = .ok ())
    (plain : extraDataFault node.config request.payload = none)
    (converted : request.payload.toBlock node.config request.sidecar = .ok block)
    (stored : node.chain.blockByHash? block.hash = some old) :
    Ensures (newPayload version request wantWitness) node logs fun result _ _ =>
      result = .ok (.valid old.hash) := by
  refine newPayload_of_importBlock accepted ordered plain converted ?_
  simp only [importBlock, ensures_bind, ensures_modify, ensures_get, stored]
  exact ⟨⟨_, rfl⟩, fun _ => rfl⟩

/-- A payload with faulty extra data is not valid. -/
theorem newPayload_plain :
    Ensures (newPayload version request wantWitness) node logs fun result _ _ =>
      ∀ status, result = .ok status → status.status = .valid →
        extraDataFault node.config request.payload = none := by
  cases found : extraDataFault node.config request.payload with
  | none => exact fun _ _ _ => rfl
  | some fault =>
      simp only [newPayload, ensures_bind, ensures_get, ensures_liftExcept]
      cases version.check _ node.config request with
      | error e => exact of_error_eq_ok
      | ok _ =>
          dsimp only
          split
          · exact of_error_eq_ok
          · simp only [ensures_bind, importPayload, ensures_get, found]
            refine of_eq_ok fun valid => ?_
            cases valid

end EngineM

/-- A payload that is valid has no fault in its extra data and can be converted. -/
theorem Node.of_answer_valid {node : Node} {version : NewPayloadVersion} {request : PayloadRequest}
    {wantWitness : Bool} {status : PayloadStatus}
    (answered : (node.answer (.newPayload version request wantWitness)).1 = .ok status)
    (valid : status.status = .valid) :
    EngineM.extraDataFault node.config request.payload = none ∧
      ∃ block, request.payload.toBlock node.config request.sidecar = .ok block := by
  have plain : ∀ status, (node.answer (.newPayload version request wantWitness)).1 = .ok status →
      status.status = .valid → EngineM.extraDataFault node.config request.payload = none :=
    EngineM.newPayload_plain
  refine ⟨plain status answered valid, ?_⟩
  have imported := (node.answer_newPayload version request wantWitness).2
  rw [answered] at imported
  generalize (node.answer (.newPayload version request wantWitness)).2.chain = chain' at imported
  cases imported with
  | passed notValid => exact absurd valid (notValid status rfl)
  | known converted => exact ⟨_, converted⟩
  | stored converted => exact ⟨_, converted⟩

/-- A payload with faulty extra data is invalid. -/
theorem Node.answer_newPayload_refused {node : Node} {version : NewPayloadVersion}
    {request : PayloadRequest} {fault : String}
    (accepted : version.check .newPayload node.config request = .ok ())
    (ordered : Requests.validate (request.executionRequests.getD []) = .ok ())
    (faulty : EngineM.extraDataFault node.config request.payload = some fault) :
    (node.answer (.newPayload version request false)).1 = .ok (.invalid fault none) := by
  have refused : EngineM.Ensures (EngineM.newPayload version request false) node []
      fun result _ _ => result = .ok (.invalid fault none) := by
    simp only [EngineM.newPayload, EngineM.ensures_bind, EngineM.ensures_get,
      EngineM.ensures_liftExcept, Bool.false_eq_true, if_false, accepted, ordered,
      EngineM.importPayload, faulty]
    rfl
  exact refused

namespace Node

/-- The answer to a payload is that it is valid, and names it. -/
def Takes (node : Node) (version : NewPayloadVersion) (request : PayloadRequest)
    (wantWitness : Bool) : Prop :=
  ∃ status, (node.answer (.newPayload version request wantWitness)).1 = .ok status ∧
    status.status = .valid ∧ status.latestValidHash = some request.payload.blockHash

section Built

variable {node : Node} {config : ChainConfig} {known : List Block} {built : BuiltBlock}
  {parent : Block} {hashes : List Hash}

/-- **A built block is taken back** where its payload can be converted. It was stored before, or it
is stored now: a node that is in order does not take it for a block of a bad chain. -/
theorem Orderly.takes_built (orderly : node.Orderly known)
    (unambiguous : Block.Unambiguous known) (same : node.config = config)
    (accepted : config.Accepted) (fits : built.FitsForks config)
    (stored : node.chain.blockByHash? built.block.parentHash = some parent)
    (fitsParent : built.block.Extends config parent.header) (member : built.block ∈ known)
    (full : node.chain.syncMode = .full)
    (told : Payload.blobHashes 0 built.block.transactions = .ok hashes)
    (returns : (built.envelope config).payload.Returns config hashes) (wantWitness : Bool) :
    let version := NewPayloadVersion.ofFork (config.latestFork built.block.timestamp)
    node.Takes version ((built.envelope config).request version hashes) wantWitness := by
  subst same
  intro version
  obtain ⟨plain, converted⟩ := fits.toBlock_request accepted told returns
  have checked : version.check (if wantWitness then .newPayloadWithWitness else .newPayload)
      node.config ((built.envelope node.config).request version hashes) = .ok () :=
    (fits.hasParts accepted).check_eq_ok _
  have ordered : Requests.validate (((built.envelope node.config).request version
      hashes).executionRequests.getD []) = .ok () := by
    rw [fits.executionRequests_request]
    rfl
  have announced : ((built.envelope node.config).request version hashes).payload.blockHash =
      built.block.hash := by
    rw [Envelope.request_payload]
    rfl
  rw [Takes, announced]
  cases found : node.chain.blockByHash? built.block.hash with
  | some old =>
      have answered : (node.answer (.newPayload version
          ((built.envelope node.config).request version hashes) wantWitness)).1 =
            .ok (.valid old.hash) :=
        EngineM.newPayload_knows checked ordered plain converted found
      exact ⟨_, answered, rfl, congrArg some (orderly.founded.keyed _ _ found)⟩
  | none =>
      have hasState := orderly.founded.hasState _ _ stored
      have good := orderly.not_tip unambiguous member stored fitsParent
      obtain ⟨witness, inserted⟩ := fitsParent.insert hasState stored wantWitness
      have imported : EngineM.Ensures (EngineM.newPayload version
          ((built.envelope node.config).request version hashes) wantWitness) node [] _ :=
        EngineM.newPayload_stores checked ordered plain converted found good full inserted
      exact ⟨_, imported.1, rfl, rfl⟩

end Built

/-- **A payload that was fetched is valid when it is sent back, exactly if it keeps the rules of
`Payload.Returns`**, as long as no two payloads of the run describe different blocks with one hash.
Every payload that a choice names can be fetched. -/
theorem fetched_returns (node : Node) (events later : List Event)
    (accepted : node.config.validate = .ok ())
    (short : node.miner.extraData.length ≤ maximumExtraDataSize)
    (fair : ∀ event ∈ events ++ later, event.Fair) :
    let now := node.started.run events
    (∀ version choice attributes wantWitness response id,
      let call := Call.forkchoiceUpdated version choice attributes wantWitness
      (now.answer call).1 = .ok response → response.payloadId = some id →
      ∃ fetching envelope,
        ((now.answer call).2.answer (.getPayload fetching id)).1 = .ok envelope) ∧
    ∀ fetching id envelope, (now.answer (.getPayload fetching id)).1 = .ok envelope →
      ∃ hashes, envelope.payload.ownBlobHashes = .ok hashes ∧
        ∀ wantWitness,
          let version := .ofFork (node.config.latestFork envelope.payload.timestamp)
          let request := envelope.request version hashes
          let run := events ++ .call (.getPayload fetching id) :: later
          (node.started.run run).chain.syncMode = .full →
          Block.Unambiguous (Event.blocks node.config
            (run ++ [.call (.newPayload version request wantWitness)])) →
          ((node.started.run run).Takes version request wantWitness ↔
            envelope.payload.Returns node.config hashes) := by
  intro now
  have legal := ChainConfig.accepted_of_validate accepted
  have fairNow : ∀ event ∈ events, event.Fair :=
    fun event member => fair event (List.mem_append_left _ member)
  refine ⟨fun _ _ _ _ _ _ => node.exists_fetched events short fairNow, ?_⟩
  intro fetching id envelope fetched
  obtain ⟨built, parent, rfl, fits, stored, fitsParent⟩ :=
    node.fetched_extends events legal short fairNow fetched
  obtain ⟨hashes, told⟩ := fits.blobHashes
  refine ⟨hashes, (built.ownBlobHashes_envelope _).trans told, ?_⟩
  intro wantWitness version request run full unambiguous
  have same : (node.started.run run).config = node.config := run_config _ _
  constructor
  · rintro ⟨status, answered, valid, -⟩
    obtain ⟨plain, block, converted⟩ := of_answer_valid answered valid
    rw [same, show request.payload = _ from Envelope.request_payload _ _ _] at plain converted
    exact fits.returns_of_toBlock legal told plain converted
  · intro returns
    have orderly := node.run_orderly run (Event.Fair.unreported (Event.Fair.insert_call fair _))
      (Event.blocks_subset_append node.config run
        [.call (.newPayload version request wantWitness)])
    obtain ⟨-, converted⟩ := fits.toBlock_request legal told returns
    have member : built.block ∈ Event.blocks node.config
        (run ++ [.call (.newPayload version request wantWitness)]) :=
      Event.mem_blocks (List.mem_append_right run List.mem_cons_self)
        (Event.block?_newPayload version wantWitness converted)
    refine orderly.takes_built unambiguous same legal fits ?_ fitsParent member full told returns
      wantWitness
    rw [show node.started.run run = now.run _ from run_append _ _ _]
    exact run_blockByHash? _ _ stored

end Node

/-! ### An order on a new chain -/

namespace PlainOrder

open Siblings

/-- An order that says as little as it can. The gas limit is for rollup chains. -/
def attributes : PayloadAttributes where
  timestamp := 12
  prevRandao := .zero 32
  suggestedFeeRecipient := .zero 20
  withdrawals := none
  parentBeaconBlockRoot := none
  transactions := []
  noTxPool := true
  gasLimit := some 30000000
  eip1559Params := []

/-- The genesis block is chosen, with the order. -/
def choice : ForkchoiceState := ⟨genesis.hash, .zero 32, .zero 32⟩

def call : Call := .forkchoiceUpdated .v1 choice (some attributes) false

/-- The build that the order asks for. -/
def args : BuildArgs where
  parent := genesis.hash
  timestamp := 12
  feeRecipient := .zero 20
  random := .zero 32
  withdrawals := none
  beaconRoot := none
  version := .v1
  noTxPool := true
  transactions := []
  gasLimit := some 30000000
  feeParams := none

theorem check_v1 : GetPayloadVersion.check .v1 args.id = .ok () := by
  rw [GetPayloadVersion.check, PayloadId.isOneOf, BuildArgs.version?_id]
  rfl

/-- The choice does not move the chain. -/
theorem stays {chain : Chain} {config : ChainConfig} {synced : Bool}
    (hchain : chain = { Chain.new config with synced }) (usual : genesisBlock config = genesis) :
    chain.Stays choice genesis := by
  have notZero : genesis.hash.isZero = false := by
    have distinct := hashes_nodup
    simp only [List.map_cons, List.nodup_cons, List.mem_cons, not_or] at distinct
    exact FixedBytes.isZero_eq_false (Ne.symm distinct.1.1)
  have stored : chain.blockByHash? genesis.hash = some genesis := by
    rw [hchain, ← usual]
    exact List.lookup_cons_self
  have canonical : chain.isCanonical genesis.number genesis.hash = true := by
    rw [hchain, ← usual]
    exact Chain.isCanonical_eq_true_iff.mpr List.lookup_cons_self
  have current : chain.currentHeader.hash = genesis.hash := by
    rw [hchain, ← usual]
    rfl
  exact ⟨notZero, rfl, rfl, stored, rfl, canonical, current⟩

/-- The order is served again and again while the chain does not move. -/
theorem choice_served (node : Node) {config : ChainConfig} {job : PayloadJob}
    (synced wantWitness : Bool) (hconfig : node.config = config)
    (hchain : node.chain = { Chain.new config with synced })
    (usual : genesisBlock config = genesis)
    (accepted : ForkchoiceVersion.checkAttributes .v1 config attributes = .ok ())
    (posed : EngineM.buildArgs config genesis.hash attributes .v1 = .ok args)
    (offers : node.Offers args wantWitness job) :
    let answer := node.answer (.forkchoiceUpdated .v1 choice (some attributes) wantWitness)
    answer.1 = .ok (.valid genesis.hash (some args.id)) ∧ answer.2.config = config ∧
      answer.2.chain = { Chain.new config with synced := true } ∧
      answer.2.payloads.get? args.id = some job := by
  subst hconfig
  obtain ⟨answered, config, chain, found⟩ : EngineM.Ensures
      (EngineM.forkchoiceUpdated .v1 choice (some attributes) wantWitness) node [] _ :=
    EngineM.forkchoiceUpdated_serves (stays hchain usual) accepted posed offers
  rw [hchain] at chain
  exact ⟨answered, config, chain, found⟩

/-- On a new chain the payload of the order can be started. -/
theorem offers_new {node : Node} {config : ChainConfig} {job : PayloadJob} {wantWitness : Bool}
    (hchain : node.chain = .new config) (usual : genesisBlock config = genesis)
    (empty : node.payloads = {})
    (started : PayloadJob.start node.generator node.clock args genesis.header wantWitness =
      .ok job) : node.Offers args wantWitness job := by
  have stored : node.chain.blockByHash? genesis.hash = some genesis := by
    rw [hchain, ← usual]
    exact List.lookup_cons_self
  have hasState : node.chain.hasState genesis.hash = true := by
    rw [hchain, ← usual]
    exact Chain.hasState_eq_true_iff.mpr (List.mem_singleton_self _)
  have parent : node.chain.headerByHash? args.parent = some genesis.header := by
    rw [Chain.headerByHash?, show args.parent = genesis.hash from rfl, stored]
    rfl
  have absent : node.payloads.get? args.id = none := by
    rw [empty]
    rfl
  exact .inr ⟨absent, (Chain.startPayload_of_stored parent hasState _ _ _).trans started⟩

/-- What comes of the order on a new chain with the usual genesis block: its payload is started and
can be fetched. -/
structure Served (node : Node) (config : ChainConfig) (job : PayloadJob) : Prop where
  answered : (node.answer call).1 = .ok (.valid genesis.hash (some args.id))
  chain : (node.run [.call call]).chain = { Chain.new config with synced := true }
  waiting : (node.run [.call call]).payloads.get? args.id = some job
  fetched : ((node.run [.call call]).answer (.getPayload .v1 args.id)).1 =
    .ok (job.best.envelope config)
  config : (node.run [.call call, .call (.getPayload .v1 args.id)]).config = config
  syncMode : (node.run [.call call, .call (.getPayload .v1 args.id)]).chain.syncMode = .full

theorem served {node : Node} {config : ChainConfig} {job : PayloadJob}
    (hconfig : node.config = config) (hchain : node.chain = .new config)
    (usual : genesisBlock config = genesis) (empty : node.payloads = {})
    (accepted : ForkchoiceVersion.checkAttributes .v1 config attributes = .ok ())
    (posed : EngineM.buildArgs config genesis.hash attributes .v1 = .ok args)
    (started : PayloadJob.start node.generator node.clock args genesis.header false = .ok job) :
    Served node config job := by
  have offers := offers_new hchain usual empty started
  obtain ⟨answered, sameConfig, chain, found⟩ :=
    choice_served node false false hconfig hchain usual accepted posed offers
  have ran : node.run [.call call] = (node.answer call).2 := by
    rw [Node.run_cons, Node.run_nil, Node.after_call]
  have kept := (node.run [.call call]).answer_getPayload_beside .v1 args.id
  have full : (node.run [.call call]).chain.syncMode = .full := by
    rw [ran, show (node.answer call).2.chain = _ from chain]
    rfl
  constructor
  · exact answered
  · rw [ran]
    exact chain
  · rw [ran]
    exact found
  · refine Node.answer_getPayload_eq_ok_iff.mpr ⟨check_v1, job, ?_, ?_⟩
    · rw [ran]
      exact found
    · rw [Node.run_config, hconfig]
  · rw [Node.run_config, hconfig]
  · have last := node.run_concat [.call call] (.call (.getPayload .v1 args.id))
    rw [Node.after_call] at last
    rw [← full, ← kept.chain, ← last]
    rfl

/-- The blocks of this run are but one. -/
theorem unambiguous {config : ChainConfig} {version : NewPayloadVersion}
    {request : PayloadRequest} : Block.Unambiguous (Event.blocks config
      ([.call call, .call (.getPayload .v1 args.id)] ++
        [.call (.newPayload version request false)])) := by
  have only {block : Block} (member : block ∈ Event.blocks config
      ([.call call, .call (.getPayload .v1 args.id)] ++
        [.call (.newPayload version request false)])) :
      Event.block? config (.call (.newPayload version request false)) = some block := by
    obtain ⟨event, among, described⟩ := List.mem_filterMap.mp member
    simp only [List.cons_append, List.nil_append, List.mem_cons, List.not_mem_nil, or_false]
      at among
    rcases among with rfl | rfl | rfl
    · cases described
    · cases described
    · exact described
  intro block member other member' _
  exact Option.some.inj ((only member).symm.trans (only member'))

/-- On a new chain the payload of the order is fetched and taken back. -/
theorem taken :
    ChainConfig.validate {} = .ok () ∧ (∀ event ∈ [Event.call call], event.Fair) ∧
    ∃ envelope hashes,
      ((Node.new {}).started.answer call).1 = .ok (.valid genesis.hash (some args.id)) ∧
      (((Node.new {}).started.run [.call call]).answer (.getPayload .v1 args.id)).1 =
        .ok envelope ∧
      envelope.payload.ownBlobHashes = .ok hashes ∧
      ((Node.new {}).started.run [.call call, .call (.getPayload .v1 args.id)]).Takes .v1
        (envelope.request .v1 hashes) false := by
  have accepted : ChainConfig.validate {} = .ok () := by rfl
  have fair : ∀ event ∈ [Event.call call], event.Fair := by
    intro event member
    rw [List.mem_singleton.mp member]
    trivial
  refine ⟨accepted, fair, ?_⟩
  obtain ⟨job, started, time, bare⟩ : ∃ job,
      PayloadJob.start (Node.new {}).started.generator (Node.new {}).started.clock args
        genesis.header false = .ok job ∧ job.best.block.timestamp = 12 ∧
          job.best.block.transactions = [] := ⟨_, rfl, rfl, rfl⟩
  have config : (Node.new {}).config = {} := rfl
  have short : (Node.new {}).miner.extraData.length ≤ maximumExtraDataSize := by decide
  -- Nothing else of the node matters, so it is not looked into.
  generalize Node.new {} = node at *
  have serves : Served node.started {} job :=
    served config (congrArg Chain.new config) rfl rfl rfl rfl started
  obtain ⟨hashes, told, takes⟩ := (node.fetched_returns [.call call] []
    (config.symm ▸ accepted) short fair).2 .v1 args.id _ serves.fetched
  have none : hashes = [] := by
    rw [BuiltBlock.ownBlobHashes_envelope, bare] at told
    exact (Except.ok.inj told).symm
  have returns : (job.best.envelope {}).payload.Returns node.config hashes := by
    rw [config]
    exact ⟨nofun, nofun, fun _ => none⟩
  have back := (takes false serves.syncMode unambiguous).mpr returns
  rw [config, show (job.best.envelope {}).payload.timestamp = 12 from time] at back
  exact ⟨_, hashes, serves.answered, serves.fetched, told, back⟩

/-- A rollup chain of which no upgrade is scheduled. -/
def earlyRollup : ChainConfig := { rollup := some {} }

/-- A node of that chain whose operator sets extra data. -/
def marking : Node := { Node.new earlyRollup with miner := { extraData := [1] } }

/-- **The node does not take its own payload back**: it was built with the extra data of the
operator, which is not accepted from a payload before Holocene. -/
theorem marked_not_taken :
    earlyRollup.validate = .ok () ∧ (∀ event ∈ [Event.call call], event.Fair) ∧
    marking.miner.extraData.length ≤ maximumExtraDataSize ∧
    ∃ envelope hashes,
      (marking.started.answer call).1 = .ok (.valid genesis.hash (some args.id)) ∧
      ((marking.started.run [.call call]).answer (.getPayload .v1 args.id)).1 = .ok envelope ∧
      NewPayloadVersion.ofFork (earlyRollup.latestFork envelope.payload.timestamp) = .v1 ∧
      envelope.payload.ownBlobHashes = .ok hashes ∧
      ((marking.started.run [.call call, .call (.getPayload .v1 args.id)]).answer
        (.newPayload .v1 (envelope.request .v1 hashes) false)).1 =
          .ok (.invalid "extraData must be empty before Holocene" none) := by
  refine ⟨by rfl, ?_, by decide, ?_⟩
  · intro event member
    rw [List.mem_singleton.mp member]
    trivial
  obtain ⟨job, started, time, bare, marked, absent⟩ : ∃ job,
      PayloadJob.start marking.started.generator marking.started.clock args genesis.header false =
        .ok job ∧ job.best.block.timestamp = 12 ∧ job.best.block.transactions = [] ∧
          job.best.block.header.extraData = [1] ∧ job.best.block.withdrawals = none :=
    ⟨_, rfl, rfl, rfl, rfl, rfl⟩
  have config : marking.config = earlyRollup := rfl
  generalize marking = node at *
  have serves : Served node.started earlyRollup job :=
    served config (congrArg Chain.new config) rfl rfl rfl rfl started
  have told : (job.best.envelope earlyRollup).payload.ownBlobHashes = .ok [] := by
    rw [BuiltBlock.ownBlobHashes_envelope, bare]
    rfl
  have time' : (job.best.envelope earlyRollup).payload.timestamp = 12 := time
  have fault : EngineM.extraDataFault earlyRollup (job.best.envelope earlyRollup).payload =
      some "extraData must be empty before Holocene" := by
    have marked' : (job.best.envelope earlyRollup).payload.extraData = [1] := marked
    rw [EngineM.extraDataFault, time', marked']
    rfl
  have ignored : (job.best.envelope earlyRollup).payload.withdrawals = none := absent
  have checked : NewPayloadVersion.check .v1 .newPayload earlyRollup
      ((job.best.envelope earlyRollup).request .v1 []) = .ok () := by
    rw [NewPayloadVersion.check, NewPayloadVersion.checkV1, Envelope.request_payload, ignored]
    rfl
  refine ⟨_, [], serves.answered, serves.fetched, ?_, told, ?_⟩
  · rw [time']
    rfl
  · refine Node.answer_newPayload_refused ?_ rfl ?_
    · rw [serves.config]
      exact checked
    · rw [serves.config]
      exact fault

end PlainOrder
end EngineNode
