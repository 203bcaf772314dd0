import EngineNode.Proofs.Engine.Order
import EngineNode.Proofs.Engine.Siblings
import EngineNode.Proofs.Payload.RoundTrip
import Mathlib.Data.List.Chain

/-!
Why a node rejects a chain.

A node that has been told of no bad blocks rejects a block only if the block descends from one whose
execution has failed. The tips of bad chains are all that it remembers of this, so the reason is
found in the history of the run: `Node.Explains` holds a row of headers that were sent to the node
and lead from the failed block up to the tip.

* `Node.run_explains`: every tip has such a row, after every run.
* `Node.rejection_explained`: so every rejection has one, and the newest valid ancestor that it
  names is the parent of the failed block.
-/

namespace EngineNode

/-! ### Rows of headers -/

/-- A row of headers leads from a bad one up to a hash, each on top of the one before. -/
structure Header.LeadsTo (row : List Header) (bad : Header) (tip : Hash) : Prop where
  first : row.head? = some bad
  last : row.getLast?.map hash = some tip
  linked : row.IsChain fun below above => above.parentHash = below.hash

theorem Header.leadsTo_singleton (header : Header) : LeadsTo [header] header header.hash :=
  ⟨rfl, rfl, List.isChain_singleton header⟩

theorem Header.LeadsTo.concat {row : List Header} {bad above : Header}
    (leads : LeadsTo row bad above.parentHash) : LeadsTo (row ++ [above]) bad above.hash where
  first := by
    rw [List.head?_append, leads.first]
    rfl
  last := by simp
  linked := by
    refine List.isChain_append.mpr ⟨leads.linked, List.isChain_singleton above, ?_⟩
    intro below last above' first
    cases first
    have same := leads.last
    rw [Option.mem_def.mp last] at same
    exact (Option.some.inj same).symm

/-- The headers of the blocks that a row of events describes. -/
def Event.headers (config : ChainConfig) (events : List Event) : List Header :=
  events.filterMap fun event => (event.block? config).map Block.header

theorem Event.headers_subset_append (config : ChainConfig) (events later : List Event) :
    headers config events ⊆ headers config (events ++ later) := by
  rw [headers, headers, List.filterMap_append]
  exact List.subset_append_left _ _

theorem Event.mem_headers_concat {config : ChainConfig} (events : List Event) {event : Event}
    {block : Block} (described : event.block? config = some block) :
    block.header ∈ headers config (events ++ [event]) :=
  List.mem_filterMap.mpr ⟨event, List.mem_append_right _ List.mem_cons_self,
    by rw [described]; rfl⟩

/-! ### Reasons -/

namespace Node

/-- In a run from a node, a payload was sent whose block could not be inserted on its parent, and
the answer said so. -/
def Failed (start : Node) (events : List Event) (bad : Header) : Prop :=
  ∃ earlier later version request wantWitness block parent error,
    events = earlier ++ .call (.newPayload version request wantWitness) :: later ∧
    request.payload.toBlock start.config request.sidecar = .ok block ∧ block.header = bad ∧
    (start.run earlier).chain.blockByHash? block.parentHash = some parent ∧
    (start.run earlier).chain.insert start.config block wantWitness = .error error ∧
    ((start.run earlier).answer (.newPayload version request wantWitness)).1 =
      .ok (.invalid error.message (some parent.header))

/-- A run explains why the block of a hash is bad: headers that were sent lead up to it from one
that failed. -/
def Explains (start : Node) (events : List Event) (sent : List Header) (bad : Header)
    (tip : Hash) : Prop :=
  start.Failed events bad ∧ ∃ row, Header.LeadsTo row bad tip ∧ row ⊆ sent

variable {start : Node} {events later : List Event} {sent sent' : List Header} {bad : Header}
  {tip : Hash}

theorem Failed.append (failed : start.Failed events bad) (later : List Event) :
    start.Failed (events ++ later) bad := by
  obtain ⟨earlier, rest, version, request, wantWitness, block, parent, error, rfl, failed⟩ := failed
  exact ⟨earlier, rest ++ later, version, request, wantWitness, block, parent, error,
    by rw [List.append_assoc, List.cons_append], failed⟩

/-- The parent of a block that has failed is stored. -/
theorem Failed.parent_stored (failed : start.Failed events bad) :
    ∃ parent, (start.run events).chain.blockByHash? bad.parentHash = some parent := by
  obtain ⟨earlier, later, _, _, _, block, parent, _, rfl, -, rfl, stored, -⟩ := failed
  rw [run_append]
  exact ⟨parent, run_blockByHash? _ _ stored⟩

theorem Explains.append (explains : start.Explains events sent bad tip) (later : List Event)
    (sub : sent ⊆ sent') : start.Explains (events ++ later) sent' bad tip := by
  obtain ⟨failed, row, leads, among⟩ := explains
  exact ⟨failed.append later, row, leads, List.Subset.trans among sub⟩

theorem Explains.concat {above : Header}
    (explains : start.Explains events sent bad above.parentHash) (sub : sent ⊆ sent')
    (member : above ∈ sent') : start.Explains events sent' bad above.hash := by
  obtain ⟨failed, row, leads, among⟩ := explains
  refine ⟨failed, row ++ [above], leads.concat, List.append_subset.mpr ?_⟩
  exact ⟨List.Subset.trans among sub, List.cons_subset.mpr ⟨member, List.nil_subset _⟩⟩

/-- **Every tip of a bad chain has its reason in the run.** A payload adds a tip on top of another
one or starts a new chain; other events add none. -/
theorem run_explains (node : Node) (events : List Event)
    (unreported : ∀ bad, .badBlock bad ∉ events) {tip : Hash} {bad : Header}
    (found : (node.started.run events).badChains.tips.get? tip = some bad) :
    node.started.Explains events (Event.headers node.config events) bad tip := by
  induction events using List.reverseRecOn generalizing tip bad with
  | nil => cases found
  | append_singleton events event ih =>
      have known {tip bad}
          (earlier : (node.started.run events).badChains.tips.get? tip = some bad) :
          node.started.Explains (events ++ [event])
            (Event.headers node.config (events ++ [event])) bad tip := by
        have unreported' : ∀ bad, .badBlock bad ∉ events :=
          fun bad member => unreported bad (List.mem_append_left _ member)
        exact (ih unreported' earlier).append [event] (Event.headers_subset_append _ _ _)
      rw [run_concat] at found
      rcases (node.started.run events).after_cases event with beside |
        ⟨version, choice, attributes, wantWitness, rfl⟩ | ⟨version, request, wantWitness, rfl⟩ |
        ⟨bad, rfl⟩ | ⟨mode, rfl⟩ | ⟨miner, rfl⟩
      · rw [beside.badChains] at found
        exact known found
      · have ordered := (node.started.run events).answer_forkchoiceUpdated_orders version choice
          attributes wantWitness
        exact known (ordered.badChains tip bad found)
      · obtain ⟨-, judged⟩ := (node.started.run events).answer_newPayload_judges version request
          wantWitness
        rw [after_call] at found
        rw [show (node.started.run events).config = node.config from run_config _ _] at judged
        generalize answered :
          (node.started.run events).answer (.newPayload version request wantWitness) = answer
          at found judged
        obtain ⟨result, node'⟩ := answer
        cases judged with
        | passed covers => exact known (covers tip bad found)
        | @rejected block bad' _ converted _ before gains =>
            have member := Event.mem_headers_concat events
              (Event.block?_newPayload version wantWitness converted)
            rcases gains tip bad found with earlier | ⟨rfl, rfl⟩
            · exact known earlier
            · rcases before with itself | parent
              · exact known itself
              · exact (known parent).concat (List.Subset.refl _) member
        | @failed block parent error _ converted _ stored _ refused gains =>
            have member := Event.mem_headers_concat events
              (Event.block?_newPayload version wantWitness converted)
            rcases gains tip bad found with earlier | ⟨rfl, rfl⟩
            · exact known earlier
            · exact ⟨⟨events, [], version, request, wantWitness, block, parent, error, rfl,
                converted, rfl, stored, refused, congrArg Prod.fst answered⟩, [block.header],
                Header.leadsTo_singleton _, List.cons_subset.mpr ⟨member, List.nil_subset _⟩⟩
      · exact absurd (List.mem_append_right _ List.mem_cons_self) (unreported bad)
      · exact known found
      · exact known found

/-- A rejection of a hash is explained by a run: headers that were sent lead up to it from one that
failed, and the newest valid ancestor is the parent of that one, which is stored. A parent from
before the merge is reported as zero. -/
structure Rejects (start : Node) (events : List Event) (sent : List Header) (tip : Hash)
    (status : PayloadStatus) : Prop where
  invalid : status.status = .invalid
  explained : ∃ bad parent, start.Explains events sent bad tip ∧
    (start.run events).chain.blockByHash? bad.parentHash = some parent ∧
    status.latestValidHash =
      some (if parent.header.isPreMerge then .zero 32 else bad.parentHash)

theorem Explains.rejects (explains : start.Explains events sent bad tip) :
    start.Rejects events sent tip (BadChains.rejection (start.run events).chain bad) := by
  obtain ⟨parent, stored⟩ := explains.1.parent_stored
  refine ⟨rfl, bad, parent, explains, stored, ?_⟩
  rw [BadChains.rejection, Chain.headerByHash?, stored]
  rfl

section Rejections

variable {node : Node} {events : List Event} {wantWitness : Bool}

theorem rejects_of_payload (unreported : ∀ bad, .badBlock bad ∉ events)
    {version : NewPayloadVersion} {request : PayloadRequest} {status : PayloadStatus}
    (answered : ((node.started.run events).answer
      (.newPayload version request wantWitness)).1 = .ok status)
    (text : status.validationError = some BadChains.rejectionText) :
    node.started.Rejects events
      (Event.headers node.config (events ++ [.call (.newPayload version request wantWitness)]))
      request.payload.blockHash status := by
  obtain ⟨-, judged⟩ := (node.started.run events).answer_newPayload_judges version request
    wantWitness
  rw [answered, show (node.started.run events).config = node.config from run_config _ _] at judged
  generalize ((node.started.run events).answer
    (.newPayload version request wantWitness)).2.badChains = chains' at judged
  have sub := Event.headers_subset_append node.config events
    [.call (.newPayload version request wantWitness)]
  cases judged with
  | passed _ other => exact absurd text (other status rfl)
  | @rejected block bad _ converted _ before gains =>
      have member := Event.mem_headers_concat events
        (Event.block?_newPayload version wantWitness converted)
      rw [← (Payload.toBlock_eq_ok_iff.mp converted).2]
      rcases before with itself | parent
      · obtain ⟨failed, row, leads, among⟩ := node.run_explains events unreported itself
        exact Explains.rejects ⟨failed, row, leads, List.Subset.trans among sub⟩
      · exact ((node.run_explains events unreported parent).concat sub member).rejects
  | @failed _ parent error =>
      exact absurd text (PayloadStatus.validationError_invalid_ne error.message_head _)

theorem rejects_of_choice (unreported : ∀ bad, .badBlock bad ∉ events)
    {version : ForkchoiceVersion} {choice : ForkchoiceState}
    {attributes : Option PayloadAttributes} {response : ForkchoiceResponse}
    (answered : ((node.started.run events).answer
      (.forkchoiceUpdated version choice attributes wantWitness)).1 = .ok response)
    (text : response.payloadStatus.validationError = some BadChains.rejectionText) :
    node.started.Rejects events (Event.headers node.config events) choice.headBlockHash
      response.payloadStatus := by
  have ordered := (node.started.run events).answer_forkchoiceUpdated_orders version choice
    attributes wantWitness
  obtain ⟨bad, found, rejection⟩ := ordered.rejected response answered text
  rw [rejection]
  exact (node.run_explains events unreported found).rejects

end Rejections

/-- **No chain is rejected without a reason.** Whenever the answer to a payload or to a choice is
that it links to a rejected block, the payload or the chosen head descends from a block whose
insertion has failed in the run. -/
theorem rejection_explained (node : Node) (events : List Event)
    (unreported : ∀ bad, .badBlock bad ∉ events) :
    let before := node.started.run events
    (∀ version request wantWitness status,
      (before.answer (.newPayload version request wantWitness)).1 = .ok status →
      status.validationError = some BadChains.rejectionText →
      node.started.Rejects events
        (Event.headers node.config (events ++ [.call (.newPayload version request wantWitness)]))
        request.payload.blockHash status) ∧
    ∀ version choice attributes wantWitness response,
      (before.answer (.forkchoiceUpdated version choice attributes wantWitness)).1 = .ok response →
      response.payloadStatus.validationError = some BadChains.rejectionText →
      node.started.Rejects events (Event.headers node.config events) choice.headBlockHash
        response.payloadStatus := by
  intro before
  exact ⟨fun _ _ _ _ => rejects_of_payload unreported,
    fun _ _ _ _ _ => rejects_of_choice unreported⟩

end Node

namespace Siblings

/-- The first block with a number that does not follow that of its parent. -/
def misnumbered : Block := ⟨{ first.header with number := 5 }, {}⟩

/-- The payload of the misnumbered block. -/
def misnumberedRequest : PayloadRequest := { payload := .ofBlock {} misnumbered }

theorem misnumbered_converted :
    misnumberedRequest.payload.toBlock {} misnumberedRequest.sidecar = .ok misnumbered :=
  Payload.toBlock_ofBlock
    { ommersHash := rfl
      difficulty := rfl
      nonce := rfl
      extraData := by decide
      baseFee := by decide +kernel
      transactionsRoot := rfl
      withdrawalsRoot := fun _ => rfl
      isthmus := nofun
      beaconRoot := rfl
      requestsHash := rfl
      blobHashes := rfl }

theorem misnumbered_fresh : (Chain.new {}).blockByHash? misnumbered.hash = none :=
  blockByHash?_new (by decide +kernel)

theorem misnumbered_refused :
    (Chain.new {}).insert {} misnumbered false = .error (.invalidNumber 0 5) := by
  have stored : (Chain.new {}).blockByHash? misnumbered.parentHash = some genesis := genesis_stored
  have hasState : (Chain.new {}).hasState misnumbered.parentHash = true := genesis_hasState
  have next : nextNumber? genesis.header.number = some 1 := rfl
  have number : misnumbered.header.number = 5 := rfl
  simp only [Chain.insert, Chain.parentWithState, hasState, stored, if_true, ok_bind,
    Chain.validateHeader, next, number, throw_eq_error]
  rfl

/-- On a new chain the payload is invalid, and its block becomes the tip of a bad chain. -/
theorem misnumbered_answered (node : Node) (config : node.config = {})
    (chain : node.chain = .new {}) (badChains : node.badChains = {}) :
    let answer := node.answer (.newPayload .v1 misnumberedRequest false)
    answer.1 = .ok (.invalid (ChainError.invalidNumber 0 5).message (some genesis.header)) ∧
      answer.2.config = {} ∧ answer.2.chain = .new {} ∧
      answer.2.badChains = BadChains.recordFailure {} misnumbered.header := by
  have fresh : node.chain.blockByHash? misnumbered.hash = none := by
    rw [chain]
    exact misnumbered_fresh
  have good : node.badChains.tips.get? misnumbered.hash = none := by
    rw [badChains]
    rfl
  have full : node.chain.syncMode = .full := by
    rw [chain]
    rfl
  have stored : node.chain.blockByHash? misnumbered.parentHash = some genesis := by
    rw [chain]
    exact genesis_stored
  have hasState : node.chain.hasState misnumbered.parentHash = true := by
    rw [chain]
    exact genesis_hasState
  have later : genesis.timestamp < misnumbered.timestamp := by decide
  have refused : node.chain.insert node.config misnumbered false =
      .error (.invalidNumber 0 5) := by
    rw [chain, config]
    exact misnumbered_refused
  have converted : misnumberedRequest.payload.toBlock node.config misnumberedRequest.sidecar =
      .ok misnumbered := by
    rw [config]
    exact misnumbered_converted
  have plain : EngineM.extraDataFault node.config misnumberedRequest.payload = none := by
    rw [config]
    rfl
  have failed : EngineM.Ensures (EngineM.newPayload .v1 misnumberedRequest false) node []
      fun result node' _ =>
        result = .ok (.invalid (ChainError.invalidNumber 0 5).message (some genesis.header)) ∧
          node'.config = {} ∧ node'.chain = .new {} ∧
          node'.badChains = BadChains.recordFailure {} misnumbered.header := by
    refine EngineM.newPayload_of_importBlock rfl rfl plain converted
      ((EngineM.importBlock_fails fresh good full stored hasState later refused nofun).mono ?_)
    rintro result node' _ ⟨answered, kept, recorded⟩
    rw [badChains] at recorded
    exact ⟨⟨_, answered⟩, fun _ =>
      ⟨answered, kept.config.trans config, kept.chain.trans chain, recorded⟩⟩
  exact failed

/-- So it fails, and its block becomes the tip of a bad chain. -/
theorem misnumbered_fails (node : Node) (config : node.config = {}) (chain : node.chain = .new {})
    (badChains : node.badChains = {}) :
    let left := (node.answer (.newPayload .v1 misnumberedRequest false)).2
    left.config = {} ∧ left.chain = .new {} ∧
      left.badChains = BadChains.recordFailure {} misnumbered.header :=
  (misnumbered_answered node config chain badChains).2

/-- When it is sent again it is rejected. -/
theorem misnumbered_rejected_again (node : Node) (config : node.config = {})
    (chain : node.chain = .new {})
    (badChains : node.badChains = BadChains.recordFailure {} misnumbered.header) :
    (node.answer (.newPayload .v1 misnumberedRequest false)).1 =
      .ok (BadChains.rejection node.chain misnumbered.header) := by
  have fresh : node.chain.blockByHash? misnumbered.hash = none := by
    rw [chain]
    exact misnumbered_fresh
  have tip : node.badChains.tips.get? misnumbered.hash = some misnumbered.header := by
    rw [badChains]
    exact BadChains.get?_recordFailure {} misnumbered.header
  have few : node.badChains.hitsOf misnumbered.header.hash + 1 < badBlockHitLimit := by
    rw [badChains, BadChains.hitsOf_recordFailure]
    decide
  have converted : misnumberedRequest.payload.toBlock node.config misnumberedRequest.sidecar =
      .ok misnumbered := by
    rw [config]
    exact misnumbered_converted
  have plain : EngineM.extraDataFault node.config misnumberedRequest.payload = none := by
    rw [config]
    rfl
  have rejected : EngineM.Ensures (EngineM.newPayload .v1 misnumberedRequest false) node []
      fun result _ _ => result = .ok (BadChains.rejection node.chain misnumbered.header) := by
    refine EngineM.newPayload_of_importBlock rfl rfl plain converted
      ((EngineM.importBlock_rejects fresh tip few).mono ?_)
    intro result node' _ answered
    exact ⟨⟨_, answered⟩, fun _ => answered⟩
  exact rejected

/-- The misnumbered block is sent. -/
def misnumberedRun : List Event := [.call (.newPayload .v1 misnumberedRequest false)]

theorem misnumberedRun_eq (node : Node) : node.run misnumberedRun =
    (node.answer (.newPayload .v1 misnumberedRequest false)).2 := rfl

theorem misnumbered_explained :
    (∀ bad, .badBlock bad ∉ misnumberedRun) ∧
    ∃ status, (((Node.new {}).started.run misnumberedRun).answer
        (.newPayload .v1 misnumberedRequest false)).1 = .ok status ∧
      status.validationError = some BadChains.rejectionText ∧
      (Node.new {}).started.Rejects misnumberedRun
        (Event.headers {}
          (misnumberedRun ++ [.call (.newPayload .v1 misnumberedRequest false)]))
        misnumberedRequest.payload.blockHash status := by
  have unreported : ∀ bad, .badBlock bad ∉ misnumberedRun := by simp [misnumberedRun]
  have start : (Node.new {}).started.chain = .new {} ∧ (Node.new {}).config = {} := ⟨rfl, rfl⟩
  refine ⟨unreported, ?_⟩
  -- The node is not looked into, so that nothing is computed of its run.
  generalize Node.new {} = node at *
  obtain ⟨config, chain, badChains⟩ := misnumbered_fails node.started start.2 start.1 rfl
  rw [← misnumberedRun_eq] at config chain badChains
  have answered := misnumbered_rejected_again _ config chain badChains
  have explained := (node.rejection_explained misnumberedRun unreported).1 .v1 misnumberedRequest
    false _ answered rfl
  rw [start.2] at explained
  exact ⟨_, answered, rfl, explained⟩

end Siblings

end EngineNode
