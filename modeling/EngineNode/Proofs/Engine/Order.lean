import EngineNode.Proofs.Engine.BadChains

/-!
What a choice of the head does beside the chain.

A choice may order a payload on top of the head that it has made. Of the payloads that are there
already it changes none, but the oldest may be given up; and it never adds to the bad chains.

* `Node.Builds`: what becomes of the payloads, and which of them the answer names.
* `EngineM.forkchoiceUpdated_orders`: what every choice does beside the chain (`Node.Ordered`).
* `EngineM.chooseStoredHead_starts`: on top of the head the order is all that is left to do.
* `EngineM.forkchoiceUpdated_serves`, `EngineM.forkchoiceUpdated_fails`: such an order is served, if
  its payload is there or can be started, and fails if it asks for no build.
-/

namespace EngineNode

/-- The arguments of the build that a choice asks for, if its order is accepted. -/
def ForkchoiceVersion.asks? (version : ForkchoiceVersion) (config : ChainConfig) (head : Hash)
    (attributes : Option PayloadAttributes) : Option BuildArgs :=
  attributes.bind fun order => Except.toOption do
    version.checkAttributes config order
    EngineM.buildArgs config head order version

theorem ForkchoiceVersion.asks?_eq_some_iff {version : ForkchoiceVersion} {config : ChainConfig}
    {head : Hash} {attributes : Option PayloadAttributes} {args : BuildArgs} :
    version.asks? config head attributes = some args ↔ ∃ order, attributes = some order ∧
      version.checkAttributes config order = .ok () ∧
      EngineM.buildArgs config head order version = .ok args := by
  simp only [asks?, Option.bind_eq_some_iff, toOption_eq_some_iff, bind_eq_ok_iff]
  constructor
  · rintro ⟨order, given, _, accepted, posed⟩
    exact ⟨order, given, accepted, posed⟩
  · rintro ⟨order, given, accepted, posed⟩
    exact ⟨order, given, (), accepted, posed⟩

/-- A payload has been started on a chain, from the attributes of a choice. -/
def Node.StartsPayload (node : Node) (chain : Chain) (head : Hash)
    (attributes : PayloadAttributes) (version : ForkchoiceVersion) (wantWitness : Bool)
    (id : PayloadId) (job : PayloadJob) : Prop :=
  ∃ args, EngineM.buildArgs node.config head attributes version = .ok args ∧ id = args.id ∧
    chain.startPayload node.generator node.clock args wantWitness = .ok job

/-- What becomes of the payloads when the answer to a choice names one, or none. The payload that it
names was asked for, and is there already or is started now. -/
def Node.Builds (node : Node) (asked : Option BuildArgs) (wantWitness : Bool)
    (named : Option PayloadId) (node' : Node) : Prop :=
  named = none ∧ node'.payloads = node.payloads ∨
  ∃ args, asked = some args ∧ named = some args.id ∧
    (node.payloads.contains args.id = true ∧ node'.payloads = node.payloads ∨
      node.payloads.contains args.id = false ∧ ∃ job,
        node'.chain.startPayload node.generator node.clock args wantWitness = .ok job ∧
        node'.payloads = node.payloads.insert args.id job)

/-- The payload of some arguments is there already, or it can be started. -/
def Node.Offers (node : Node) (args : BuildArgs) (wantWitness : Bool) (job : PayloadJob) : Prop :=
  node.payloads.get? args.id = some job ∨ node.payloads.get? args.id = none ∧
    node.chain.startPayload node.generator node.clock args wantWitness = .ok job

/-- A choice leaves a chain where it is: the head is chosen again, and nothing is said of what is
final or safe. -/
structure Chain.Stays (chain : Chain) (choice : ForkchoiceState) (head : Block) : Prop where
  notZero : choice.headBlockHash.isZero = false
  noFinal : choice.finalizedBlockHash = .zero 32
  noSafe : choice.safeBlockHash = .zero 32
  stored : chain.blockByHash? choice.headBlockHash = some head
  merged : head.header.isPreMerge = false
  canonical : chain.isCanonical head.number head.hash = true
  current : chain.currentHeader.hash = head.hash

/-- What a choice does beside the chain: the bad chains are at most fewer, a rejection is that of
the head, and no payload changes but the one that was ordered. -/
structure Node.Ordered (node : Node) (version : ForkchoiceVersion) (choice : ForkchoiceState)
    (attributes : Option PayloadAttributes) (wantWitness : Bool)
    (result : Except EngineError ForkchoiceResponse) (node' : Node) : Prop where
  miner : node'.miner = node.miner
  badChains : node.badChains.Covers node'.badChains
  rejected : ∀ response, result = .ok response →
    response.payloadStatus.validationError = some BadChains.rejectionText →
    ∃ bad, node.badChains.tips.get? choice.headBlockHash = some bad ∧
      response.payloadStatus = BadChains.rejection node.chain bad
  builds : node.Builds (version.asks? node.config choice.headBlockHash attributes) wantWitness
    (result.toOption.bind (·.payloadId)) node'

/-- The payloads after a choice are those from before or the one that was ordered. -/
theorem Node.Ordered.payloads {node node' : Node} {version : ForkchoiceVersion}
    {choice : ForkchoiceState} {attributes : Option PayloadAttributes} {wantWitness : Bool}
    {result : Except EngineError ForkchoiceResponse}
    (ordered : node.Ordered version choice attributes wantWitness result node') (id : PayloadId)
    (job : PayloadJob) (found : node'.payloads.get? id = some job) :
    node.payloads.get? id = some job ∨
      ∃ order, attributes = some order ∧ version.checkAttributes node.config order = .ok () ∧
        node.StartsPayload node'.chain choice.headBlockHash order version wantWitness id job := by
  rcases ordered.builds with
    ⟨-, same⟩ | ⟨args, asked, -, ⟨-, same⟩ | ⟨-, other, started, same⟩⟩
  · exact .inl (same ▸ found)
  · exact .inl (same ▸ found)
  · rw [same] at found
    rcases BoundedMap.get?_of_get?_insert found with ⟨rfl, rfl⟩ | before
    · obtain ⟨order, given, accepted, posed⟩ := ForkchoiceVersion.asks?_eq_some_iff.mp asked
      exact .inr ⟨order, given, accepted, args, posed, rfl, started⟩
    · exact .inl before

/-- The payload that the answer to a choice names was asked for. -/
theorem Node.Ordered.asked {node node' : Node} {version : ForkchoiceVersion}
    {choice : ForkchoiceState} {attributes : Option PayloadAttributes} {wantWitness : Bool}
    {result : Except EngineError ForkchoiceResponse}
    (ordered : node.Ordered version choice attributes wantWitness result node')
    {response : ForkchoiceResponse} {id : PayloadId} (answered : result = .ok response)
    (name : response.payloadId = some id) :
    ∃ args, version.asks? node.config choice.headBlockHash attributes = some args ∧
      id = args.id := by
  have builds := ordered.builds
  rw [answered, Except.toOption, Option.bind_some, name] at builds
  rcases builds with ⟨⟨⟩, -⟩ | ⟨args, asked, ⟨⟩, -⟩
  exact ⟨args, asked, rfl⟩

/-- The payload that the answer to a choice names is there. -/
theorem Node.Ordered.named {node node' : Node} {version : ForkchoiceVersion}
    {choice : ForkchoiceState} {attributes : Option PayloadAttributes} {wantWitness : Bool}
    {result : Except EngineError ForkchoiceResponse}
    (ordered : node.Ordered version choice attributes wantWitness result node')
    (response : ForkchoiceResponse) (id : PayloadId) (answered : result = .ok response)
    (name : response.payloadId = some id) : (node'.payloads.get? id).isSome := by
  have builds := ordered.builds
  rw [answered, Except.toOption, Option.bind_some, name] at builds
  rcases builds with ⟨⟨⟩, -⟩ | ⟨args, -, ⟨⟩, ⟨there, same⟩ | ⟨-, job, -, same⟩⟩
  · rw [same]
    exact there
  · rw [same, BoundedMap.get?_insert_self _ _ _ (by decide)]
    rfl

namespace EngineM

open NodeM Chain

variable {version : ForkchoiceVersion} {choice : ForkchoiceState}
  {attributes : Option PayloadAttributes} {wantWitness : Bool}

/-- Nothing is ordered where the answer names no payload and rejects nothing. -/
theorem ordered_of_same {node node' : Node} {result : Except EngineError ForkchoiceResponse}
    (miner : node'.miner = node.miner) (badChains : node.badChains.Covers node'.badChains)
    (payloads : node'.payloads = node.payloads)
    (plain : ∀ response, result = .ok response →
      response.payloadStatus.validationError = none ∧ response.payloadId = none) :
    node.Ordered version choice attributes wantWitness result node' where
  miner := miner
  badChains := badChains
  rejected response answered text := by
    rw [(plain response answered).1] at text
    cases text
  builds := by
    refine .inl ⟨?_, payloads⟩
    cases result with
    | error e => rfl
    | ok response => exact (plain response rfl).2

theorem reportHead_keeps (node : Node) (logs : List LogEntry) :
    NodeM.Ensures reportHead node logs fun _ node' _ =>
      ∃ report metrics, node' = { node with report, metrics } :=
  ⟨_, _, rfl⟩

theorem startPayload_orders (node : Node) (logs : List LogEntry) (parent : Hash)
    (attributes : PayloadAttributes) (version : ForkchoiceVersion) (wantWitness : Bool) :
    Ensures (startPayload parent attributes version wantWitness) node logs fun result node' _ =>
      node'.chain = node.chain ∧ node'.miner = node.miner ∧ node'.badChains = node.badChains ∧
      node.Builds (buildArgs node.config parent attributes version).toOption wantWitness
        result.toOption node' := by
  simp only [startPayload, ensures_bind, ensures_get, ensures_liftExcept]
  cases built : buildArgs node.config parent attributes version with
  | error e => exact ⟨trivial, trivial, trivial, .inl ⟨rfl, rfl⟩⟩
  | ok args =>
      simp only
      split
      · rename_i there
        exact ⟨rfl, rfl, rfl, .inr ⟨args, rfl, rfl, .inl ⟨there, rfl⟩⟩⟩
      · rename_i absent
        cases started : node.chain.startPayload node.generator node.clock args wantWitness with
        | error e => cases e <;> exact ⟨rfl, rfl, rfl, .inl ⟨rfl, rfl⟩⟩
        | ok job =>
            have new := Bool.eq_false_iff.mpr absent
            exact ⟨rfl, rfl, rfl, .inr ⟨args, rfl, rfl, .inr ⟨new, job, started, rfl⟩⟩⟩

theorem syncToUnknownHead_orders (node : Node) (logs : List LogEntry)
    (version : ForkchoiceVersion) (choice : ForkchoiceState)
    (attributes : Option PayloadAttributes) (wantWitness : Bool) :
    Ensures (syncToUnknownHead choice.headBlockHash choice.finalizedBlockHash) node logs
      fun result node' _ =>
        node.Ordered version choice attributes wantWitness result node' := by
  simp only [syncToUnknownHead, ensures_bind, ensures_lift]
  refine (checkBadChains_judges node logs choice.headBlockHash choice.headBlockHash).mono ?_
  rintro status node' logs' ⟨-, orders, ⟨rfl, covers⟩ | ⟨bad, known, rfl, gains⟩⟩
  · cases seen : node'.remoteHeaders.get? choice.headBlockHash with
    | none =>
        simp only [ensures_bind, ensures_get, seen]
        exact ordered_of_same orders.miner covers orders.payloads (of_eq_ok ⟨rfl, rfl⟩)
    | some header =>
        simp only [ensures_bind, ensures_get, seen, ensures_lift, ensures_logWithHead]
        split
        · exact ordered_of_same orders.miner covers orders.payloads of_error_eq_ok
        · exact ordered_of_same orders.miner covers orders.payloads (of_eq_ok ⟨rfl, rfl⟩)
  · exact {
      miner := orders.miner
      badChains := gains.covers known
      rejected := of_eq_ok fun _ => ⟨bad, known, rfl⟩
      builds := .inl ⟨rfl, orders.payloads⟩ }

theorem chooseStoredHead_orders (node : Node) (logs : List LogEntry) (head : Block)
    (accepted : ∀ order, attributes = some order →
      version.checkAttributes node.config order = .ok ()) :
    Ensures (chooseStoredHead head version choice attributes wantWitness) node logs
      fun result node' _ =>
        node.Ordered version choice attributes wantWitness result node' := by
  unfold chooseStoredHead
  rw [ensures_bind]
  refine (isPastMerge_ensures node logs head).mono ?_
  rintro past node logs ⟨rfl, -⟩
  rcases past with e | _ | _
  · exact ordered_of_same rfl (.refl _) rfl of_error_eq_ok
  · simp only [Bool.false_eq_true, if_false, ensures_bind]
    refine (makeHead_ensures _ logs head).mono ?_
    rintro followed _ logs ⟨made, rfl, -⟩
    rcases followed with e | _ | _
    · exact ordered_of_same rfl (.refl _) rfl of_error_eq_ok
    · exact ordered_of_same rfl (.refl _) rfl (of_eq_ok ⟨rfl, rfl⟩)
    · simp only [if_true, ensures_bind, ensures_modify, ensures_lift]
      refine NodeM.Ensures.mono (reportHead_keeps _ logs) ?_
      rintro _ _ logs' ⟨report, metrics, rfl⟩
      refine (recordFinality_ensures _ logs' choice).mono ?_
      rintro checked _ logs ⟨recorded, done, rfl, -, -⟩
      cases checked with
      | error e => exact ordered_of_same rfl (.refl _) rfl of_error_eq_ok
      | ok _ =>
          cases attributes with
          | none => exact ordered_of_same rfl (.refl _) rfl (of_eq_ok ⟨rfl, rfl⟩)
          | some order =>
              refine ensures_bind.mpr ((startPayload_orders _ logs _ order _ _).mono ?_)
              rintro started node' logs ⟨chain, miner, badChains, builds⟩
              have covers : node.badChains.Covers node'.badChains := badChains ▸ .refl _
              have asked : version.asks? node.config choice.headBlockHash (some order) =
                  (buildArgs node.config choice.headBlockHash order version).toOption := by
                rw [ForkchoiceVersion.asks?, Option.bind_some, accepted order rfl]
                rfl
              cases started with
              | error e => exact ⟨miner, covers, of_error_eq_ok, asked ▸ builds⟩
              | ok id =>
                  exact ⟨miner, covers, of_eq_ok fun rejected => (by cases rejected),
                    asked ▸ builds⟩
  · exact ordered_of_same rfl (.refl _) rfl (of_eq_ok ⟨rfl, rfl⟩)

theorem choose_orders (node : Node) (logs : List LogEntry)
    (accepted : ∀ order, attributes = some order →
      version.checkAttributes node.config order = .ok ()) :
    Ensures (choose version choice attributes wantWitness) node logs fun result node' _ =>
      node.Ordered version choice attributes wantWitness result node' := by
  unfold choose
  split
  · exact ordered_of_same rfl (.refl _) rfl (of_eq_ok ⟨rfl, rfl⟩)
  · simp only [ensures_bind, ensures_modify, ensures_get]
    -- The time of the choice plays no part in what is ordered.
    cases node.chain.blockByHash? choice.headBlockHash with
    | none =>
        refine (syncToUnknownHead_orders _ logs version choice attributes wantWitness).mono ?_
        rintro result node' _ ⟨miner, badChains, rejected, builds⟩
        exact ⟨miner, badChains, rejected, builds⟩
    | some head =>
        refine (chooseStoredHead_orders
          { node with activity := { node.activity with forkchoice := some node.clock } } logs head
          accepted).mono ?_
        rintro result node' _ ⟨miner, badChains, rejected, builds⟩
        exact ⟨miner, badChains, rejected, builds⟩

/-- **What a choice does beside the chain.** -/
theorem forkchoiceUpdated_orders (node : Node) (logs : List LogEntry)
    (version : ForkchoiceVersion) (choice : ForkchoiceState)
    (attributes : Option PayloadAttributes) (wantWitness : Bool) :
    Ensures (forkchoiceUpdated version choice attributes wantWitness) node logs
      fun result node' _ =>
        node.Ordered version choice attributes wantWitness result node' := by
  unfold forkchoiceUpdated
  cases attributes with
  | none =>
      have unordered : ∀ order, (none : Option PayloadAttributes) = some order →
          version.checkAttributes node.config order = .ok () := nofun
      refine ensures_bind.mpr ((choose_orders node logs unordered).mono ?_)
      rintro result node' logs ⟨miner, badChains, rejected, builds⟩
      cases result <;> exact ⟨miner, badChains, rejected, builds⟩
  | some order =>
      rw [ensures_bind, ensures_get]
      dsimp only
      rw [ensures_bind, ensures_liftExcept]
      cases accepted : version.checkAttributes node.config order with
      | error e => exact ordered_of_same rfl (.refl _) rfl of_error_eq_ok
      | ok _ =>
          have checked : ∀ other, some order = some other →
              version.checkAttributes node.config other = .ok () := by
            rintro _ ⟨⟩
            exact accepted
          refine ensures_bind.mpr ((choose_orders node logs checked).mono ?_)
          rintro result node' logs ⟨miner, badChains, rejected, builds⟩
          cases result <;> exact ⟨miner, badChains, rejected, builds⟩

/-! ### Orders on top of the head -/

section Starts

variable {node : Node} {logs : List LogEntry} {order : PayloadAttributes} {args : BuildArgs}
  {job : PayloadJob} {head : Block}

/-- A payload that can be started is there afterwards. One that was there stays. -/
theorem startPayload_serves {parent : Hash}
    (posed : buildArgs node.config parent order version = .ok args)
    (offers : node.Offers args wantWitness job) :
    Ensures (startPayload parent order version wantWitness) node logs fun result node' _ =>
      result = .ok args.id ∧ node'.config = node.config ∧ node'.chain = node.chain ∧
        node'.payloads.get? args.id = some job := by
  simp only [startPayload, ensures_bind, ensures_get, ensures_liftExcept, posed]
  rcases offers with there | ⟨absent, started⟩
  · have present : node.payloads.contains args.id = true :=
      Option.isSome_iff_exists.mpr ⟨job, there⟩
    rw [if_pos present]
    exact ⟨rfl, rfl, rfl, there⟩
  · have new : node.payloads.contains args.id = false := Option.isSome_eq_false_iff.mpr
      (Option.isNone_iff_eq_none.mpr absent)
    simp only [ensures_bind, new, Bool.false_eq_true, if_false, started]
    exact ⟨rfl, rfl, rfl, BoundedMap.get?_insert_self _ _ _ (by decide)⟩

/-- An order that asks for no build fails. -/
theorem startPayload_fails {parent : Hash} {e : EngineError}
    (unposed : buildArgs node.config parent order version = .error e) :
    Ensures (startPayload parent order version wantWitness) node logs fun result _ _ =>
      result = .error e := by
  simp only [startPayload, ensures_bind, ensures_get, ensures_liftExcept, unposed]

/-- **Where a choice leaves the chain, the order is all that is left to do.** -/
theorem chooseStoredHead_starts (stays : node.chain.Stays choice head)
    {post : Except EngineError ForkchoiceResponse → Node → List LogEntry → Prop}
    (starts : ∀ report metrics logs, Ensures (do
        let id ← startPayload choice.headBlockHash order version wantWitness
        return .valid choice.headBlockHash (some id))
      { node with chain := { node.chain with synced := true }, report, metrics } logs post) :
    Ensures (chooseStoredHead head version choice (some order) wantWitness) node logs post := by
  have records (chain : Chain) : FinalityRecorded choice chain true chain :=
    .done (by rw [stays.noFinal, record?_zero]) (by rw [stays.noSafe, record?_zero])
  unfold chooseStoredHead
  rw [ensures_bind]
  refine (isPastMerge_ensures node logs head).mono ?_
  rintro result _ logs ⟨rfl, past⟩
  obtain rfl := past stays.merged
  simp only [Bool.false_eq_true, if_false]
  rw [ensures_bind]
  refine (makeHead_ensures _ logs head).mono ?_
  rintro result _ logs ⟨made, rfl, follows⟩
  obtain ⟨rfl, rfl⟩ := HeadMade.unique (.kept stays.canonical (.inl stays.current)) follows
  simp only [if_true]
  rw [ensures_bind, ensures_modify]
  dsimp only
  rw [ensures_bind, ensures_lift]
  refine NodeM.Ensures.mono (reportHead_keeps _ logs) ?_
  rintro _ _ logs' ⟨report, metrics, rfl⟩
  dsimp only
  rw [ensures_bind]
  refine (recordFinality_ensures _ logs' choice).mono ?_
  rintro result ready logs ⟨chain, done, rfl, recorded, completed⟩
  obtain ⟨rfl, rfl⟩ := (records _).unique recorded
  obtain rfl := completed.mp rfl
  exact starts report metrics logs

/-- **An order on top of the head is served**, if its payload is there or can be started. -/
theorem forkchoiceUpdated_serves (stays : node.chain.Stays choice head)
    (accepted : version.checkAttributes node.config order = .ok ())
    (posed : buildArgs node.config choice.headBlockHash order version = .ok args)
    (offers : node.Offers args wantWitness job) :
    Ensures (forkchoiceUpdated version choice (some order) wantWitness) node logs
      fun result node' _ => result = .ok (.valid choice.headBlockHash (some args.id)) ∧
        node'.config = node.config ∧ node'.chain = { node.chain with synced := true } ∧
        node'.payloads.get? args.id = some job := by
  simp only [forkchoiceUpdated, ensures_bind, ensures_get, ensures_liftExcept, accepted, choose,
    stays.notZero, Bool.false_eq_true, if_false, ensures_modify, stays.stored]
  refine chooseStoredHead_starts ?_ ?_
  · exact stays
  · intro report metrics logs
    rw [ensures_bind]
    refine Ensures.mono (startPayload_serves posed offers) ?_
    rintro _ node' logs' ⟨rfl, config, chain, found⟩
    exact ⟨rfl, config, chain, found⟩

/-- **An order on top of the head that asks for no build fails.** -/
theorem forkchoiceUpdated_fails {e : EngineError} (stays : node.chain.Stays choice head)
    (accepted : version.checkAttributes node.config order = .ok ())
    (unposed : buildArgs node.config choice.headBlockHash order version = .error e) :
    Ensures (forkchoiceUpdated version choice (some order) wantWitness) node logs
      fun result _ _ => result = .error e := by
  simp only [forkchoiceUpdated, ensures_bind, ensures_get, ensures_liftExcept, accepted, choose,
    stays.notZero, Bool.false_eq_true, if_false, ensures_modify, stays.stored]
  refine chooseStoredHead_starts ?_ ?_
  · exact stays
  · intro report metrics logs
    rw [ensures_bind]
    refine Ensures.mono (startPayload_fails unposed) ?_
    rintro _ node' logs' rfl
    rfl

end Starts

end EngineM

namespace Node

theorem answer_forkchoiceUpdated_orders (node : Node) (version : ForkchoiceVersion)
    (choice : ForkchoiceState) (attributes : Option PayloadAttributes) (wantWitness : Bool) :
    let answer := node.answer (.forkchoiceUpdated version choice attributes wantWitness)
    node.Ordered version choice attributes wantWitness answer.1 answer.2 :=
  EngineM.forkchoiceUpdated_orders node [] version choice attributes wantWitness

theorem answer_newPayload_judges (node : Node) (version : NewPayloadVersion)
    (request : PayloadRequest) (wantWitness : Bool) :
    let answer := node.answer (.newPayload version request wantWitness)
    node.SameOrders answer.2 ∧ node.badChains.Judged node.config node.chain request wantWitness
      answer.1 answer.2.badChains :=
  EngineM.newPayload_judges node [] version request wantWitness

end Node

end EngineNode
