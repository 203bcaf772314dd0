import EngineNode.Proofs.Build.Preimage
import EngineNode.Proofs.Engine.Builds
import EngineNode.Proofs.Engine.Return
import EngineNode.Proofs.Engine.Versions

/-!
Orders are fulfilled.

Between the order of a payload and its delivery stand the name, under which another call may have
started the build, the queue, which may have given it up, and the rounds of improvement. Still, what
is fetched under a name has what the order asked for.

* `ForkchoiceVersion.shaped_of_asks?`: the arguments of an accepted order have the shape that the
  rules at their time ask for, so that their name says all about them.
* `BuildArgs.agree_of_orders`: accepted orders whose names are hashes of the same bytes agree.
* `BuildArgs.eq_of_id_eq`: no two arguments of a run have one name, unless hashes collide.
* `Envelope.Fulfils`: what an order asks for.
* `Node.order_fulfilled`: a payload that is fetched under the name that an order was given fulfils
  the order, as long as fewer than ten others were started since.
-/

namespace EngineNode

variable {config : ChainConfig}

/-! ### Orders and their arguments -/

namespace EngineM

/-- Only rollup chains have fee parameters, since Holocene, eight bytes of them. -/
theorem feeParamsOf_eq_ok {order : PayloadAttributes} {params : Option Bytes}
    (given : feeParamsOf config order = .ok params) :
    params.isSome = config.isHolocene order.timestamp ∧
      ∀ bytes, params = some bytes → bytes.length = 8 := by
  unfold feeParamsOf at given
  cases rollup : config.isRollup with
  | false =>
      simp only [rollup, Bool.false_eq_true, if_false] at given
      cases given
      refine ⟨?_, nofun⟩
      rw [ChainConfig.isHolocene, ChainConfig.isUpgradeActive, rollup]
      rfl
  | true =>
      simp only [rollup, if_true] at given
      split at given
      · cases given
      · split at given
        · rename_i holocene
          split at given
          · cases given
          · rename_i valid
            cases given
            rw [holocene]
            refine ⟨rfl, ?_⟩
            rintro _ ⟨⟩
            exact (FeeParams.validate_eq_ok_iff.mp valid).1
        · rename_i early
          split at given
          · cases given
            rw [Bool.eq_false_iff.mpr early]
            exact ⟨rfl, nofun⟩
          · cases given

/-- Orders keep their transactions as they are. -/
theorem bytes_of_orderedTransactions {index : Nat} {ordered : List Bytes}
    {transactions : List Transaction}
    (decoded : orderedTransactions index ordered = .ok transactions) :
    transactions.map Transaction.bytes = ordered := by
  induction ordered generalizing index transactions with
  | nil =>
      cases decoded
      rfl
  | cons bytes rest ih =>
      rw [orderedTransactions] at decoded
      split at decoded
      · cases decoded
      · rename_i tx first
        cases later : orderedTransactions (index + 1) rest with
        | error e =>
            rw [later] at decoded
            cases decoded
        | ok others =>
            rw [later] at decoded
            cases decoded
            rw [List.map_cons, Transaction.decode_eq_ok_iff.mp first, ih later]

/-- What the arguments of a build take over from the order. -/
theorem buildArgs_eq_ok {head : Hash} {order : PayloadAttributes} {version : ForkchoiceVersion}
    {args : BuildArgs} (posed : buildArgs config head order version = .ok args) :
    ∃ feeParams transactions, feeParamsOf config order = .ok feeParams ∧
      transactions.map Transaction.bytes = order.transactions ∧
      args = {
        parent := head
        timestamp := order.timestamp
        feeRecipient := order.suggestedFeeRecipient
        random := order.prevRandao
        withdrawals := order.withdrawals
        beaconRoot := order.parentBeaconBlockRoot
        version
        noTxPool := order.noTxPool
        transactions
        gasLimit := order.gasLimit
        feeParams } := by
  unfold buildArgs at posed
  obtain ⟨feeParams, given, posed⟩ := bind_eq_ok_iff.mp posed
  obtain ⟨transactions, decoded, posed⟩ := bind_eq_ok_iff.mp posed
  cases posed
  exact ⟨feeParams, transactions, given, bytes_of_orderedTransactions decoded, rfl⟩

end EngineM

/-- **The arguments of an accepted order have the shape that the rules ask for.** -/
theorem ForkchoiceVersion.shaped_of_asks? {version : ForkchoiceVersion} {head : Hash}
    {attributes : Option PayloadAttributes} {args : BuildArgs} (legal : config.Accepted)
    (asked : version.asks? config head attributes = some args) : args.Shaped config := by
  obtain ⟨order, -, accepted, posed⟩ := asks?_eq_some_iff.mp asked
  obtain ⟨withdrawals, beaconRoot⟩ := fitsForks_of_checkAttributes legal accepted
  obtain ⟨feeParams, transactions, given, -, rfl⟩ := EngineM.buildArgs_eq_ok posed
  obtain ⟨present, width⟩ := EngineM.feeParamsOf_eq_ok given
  exact ⟨withdrawals, beaconRoot, present, width⟩

/-- The arguments of the builds that a row of events asks for. -/
def Event.orders (config : ChainConfig) (events : List Event) : List BuildArgs :=
  (events.filterMap (build? config)).map Build.args

theorem Event.mem_orders_iff {events : List Event} {args : BuildArgs} :
    args ∈ orders config events ↔ ∃ version choice attributes wantWitness,
      .call (.forkchoiceUpdated version choice attributes wantWitness) ∈ events ∧
        version.asks? config choice.headBlockHash attributes = some args := by
  rw [orders, List.mem_map]
  constructor
  · rintro ⟨build, member, rfl⟩
    obtain ⟨event, among, asked⟩ := List.mem_filterMap.mp member
    unfold build? at asked
    split at asked
    · obtain ⟨args, posed, rfl⟩ := Option.map_eq_some_iff.mp asked
      exact ⟨_, _, _, _, among, posed⟩
    · cases asked
  · rintro ⟨version, choice, attributes, wantWitness, among, asked⟩
    refine ⟨⟨args, wantWitness⟩, List.mem_filterMap.mpr ⟨_, among, ?_⟩, rfl⟩
    rw [build?, asked]
    rfl

/-! ### Names -/

/-- **Accepted orders whose names are hashes of the same bytes agree**, even if they were given in
two versions. That the program can hold these bytes bounds the withdrawals. -/
theorem BuildArgs.agree_of_orders {version version' : ForkchoiceVersion} {head head' : Hash}
    {order order' : PayloadAttributes} {a b : BuildArgs} (valid : config.validate = .ok ())
    (accepted : version.checkAttributes config order = .ok ())
    (accepted' : version'.checkAttributes config order' = .ok ())
    (posed : EngineM.buildArgs config head order version = .ok a)
    (posed' : EngineM.buildArgs config head' order' version' = .ok b)
    (encodable : a.Encodable) (encodable' : b.Encodable) (same : a.preimage = b.preimage) :
    a.Agree b := by
  have legal := ChainConfig.accepted_of_validate valid
  have shaped : a.Shaped config := version.shaped_of_asks? legal
    (ForkchoiceVersion.asks?_eq_some_iff.mpr ⟨order, rfl, accepted, posed⟩)
  have shaped' : b.Shaped config := version'.shaped_of_asks? legal
    (ForkchoiceVersion.asks?_eq_some_iff.mpr ⟨order', rfl, accepted', posed'⟩)
  exact agree_of_preimage_eq shaped shaped' encodable encodable' same

/-- An order that is accepted in two versions. -/
def BuildArgs.eitherOrder : PayloadAttributes :=
  { PlainOrder.attributes with transactions := [[0xc1, 0x01]] }

/-- Its two names differ in the version alone. -/
theorem BuildArgs.agree_of_either : ∃ a b, ChainConfig.validate {} = .ok () ∧
    ForkchoiceVersion.checkAttributes .v1 {} eitherOrder = .ok () ∧
    ForkchoiceVersion.checkAttributes .v2 {} eitherOrder = .ok () ∧
    EngineM.buildArgs {} (.zero 32) eitherOrder .v1 = .ok a ∧
    EngineM.buildArgs {} (.zero 32) eitherOrder .v2 = .ok b ∧
    a.version ≠ b.version ∧ a.preimage = b.preimage ∧ a.Agree b := by
  obtain ⟨a, b, posed, posed', versions, absent, absent', same⟩ : ∃ a b,
      EngineM.buildArgs {} (.zero 32) eitherOrder .v1 = .ok a ∧
      EngineM.buildArgs {} (.zero 32) eitherOrder .v2 = .ok b ∧ a.version ≠ b.version ∧
      a.withdrawals = none ∧ b.withdrawals = none ∧ a.preimage = b.preimage :=
    ⟨_, _, rfl, rfl, by decide, rfl, rfl, rfl⟩
  have valid : ChainConfig.validate {} = .ok () := rfl
  have accepted : ForkchoiceVersion.checkAttributes .v1 {} eitherOrder = .ok () := rfl
  have accepted' : ForkchoiceVersion.checkAttributes .v2 {} eitherOrder = .ok () := rfl
  have encodable : a.Encodable := by simp [Encodable, absent]
  have encodable' : b.Encodable := by simp [Encodable, absent']
  exact ⟨a, b, valid, accepted, accepted', posed, posed', versions, same,
    agree_of_orders valid accepted accepted' posed posed' encodable encodable' same⟩

/-- The names of some arguments tell them apart: no two of their preimages have one name, and no two
of their transactions have one hash. Their withdrawals are short enough to be encoded, as those that
fit in a memory always are. -/
structure BuildArgs.Apart (orders : List BuildArgs) : Prop where
  names : ∀ a ∈ orders, ∀ b ∈ orders, a.id = b.id → a.preimage = b.preimage
  transactions : ∀ a ∈ orders, ∀ b ∈ orders, ∀ tx ∈ a.transactions, ∀ tx' ∈ b.transactions,
    tx.hash = tx'.hash → tx = tx'
  encodable : ∀ a ∈ orders, a.Encodable

/-- **Of the arguments that a run asks for no two have one name.** -/
theorem BuildArgs.eq_of_id_eq {events : List Event} {a b : BuildArgs} (legal : config.Accepted)
    (apart : Apart (Event.orders config events)) (ha : a ∈ Event.orders config events)
    (hb : b ∈ Event.orders config events) (same : a.id = b.id) : a = b := by
  have shaped {args : BuildArgs} (member : args ∈ Event.orders config events) :
      args.Shaped config := by
    obtain ⟨version, choice, attributes, _, -, asked⟩ := Event.mem_orders_iff.mp member
    exact version.shaped_of_asks? legal asked
  have version : a.version = b.version := by
    have versions := a.version?_id
    rw [same, b.version?_id] at versions
    exact (Option.some.inj versions).symm
  have agree := agree_of_preimage_eq (shaped ha) (shaped hb) (apart.encodable a ha)
    (apart.encodable b hb) (apart.names a ha b hb same)
  exact agree.eq version (apart.transactions a ha b hb)

/-! ### Delivery -/

/-- A payload has what an order on a head asks for. -/
structure Envelope.Fulfils (envelope : Envelope) (config : ChainConfig) (head : Hash)
    (order : PayloadAttributes) : Prop where
  parentHash : envelope.payload.parentHash = head
  timestamp : envelope.payload.timestamp = order.timestamp
  prevRandao : envelope.payload.prevRandao = order.prevRandao
  feeRecipient : envelope.payload.feeRecipient = order.suggestedFeeRecipient
  gasLimit : ∀ limit, order.gasLimit = some limit → envelope.payload.gasLimit = limit
  withdrawals : config.isShanghai order.timestamp = true →
    envelope.payload.withdrawals = order.withdrawals
  beaconRoot : config.isCancun order.timestamp = true →
    envelope.parentBeaconBlockRoot = order.parentBeaconBlockRoot
  transactions : order.transactions <+: envelope.payload.transactions
  noTxPool : order.noTxPool = true → envelope.payload.transactions = order.transactions

/-- A block that realizes the plan of an order fulfils the order. -/
theorem BuiltBlock.Realizes.fulfils {built : BuiltBlock} {parent : Header} {args : BuildArgs}
    {wantWitness usePool : Bool} {version : ForkchoiceVersion} {head : Hash}
    {order : PayloadAttributes}
    (realizes : built.Realizes config (args.plan parent wantWitness) usePool)
    (posed : EngineM.buildArgs config head order version = .ok args) (shaped : args.Shaped config)
    (onHead : parent.hash = head) (demandedOnly : args.noTxPool = true → usePool = false) :
    (built.envelope config).Fulfils config head order := by
  obtain ⟨feeParams, transactions, -, bytes, rfl⟩ := EngineM.buildArgs_eq_ok posed
  constructor
  case parentHash => exact realizes.parentHash.trans onHead
  case timestamp => exact realizes.timestamp
  case prevRandao => exact realizes.random
  case feeRecipient => exact realizes.feeRecipient
  case gasLimit => exact realizes.gasLimit
  case withdrawals => exact realizes.withdrawals
  case beaconRoot =>
    intro cancun
    obtain ⟨root, given⟩ := Option.isSome_iff_exists.mp (shaped.beaconRoot.trans cancun)
    have given' : order.parentBeaconBlockRoot = some root := given
    rw [given']
    refine (realizes.beaconRoot cancun).trans ?_
    rw [BuildArgs.plan, given']
    rfl
  case transactions =>
    rw [← bytes]
    exact realizes.transactions.map Transaction.bytes
  case noTxPool =>
    intro noTxPool
    rw [← bytes]
    exact congrArg (List.map Transaction.bytes) (realizes.demandedOnly (demandedOnly noTxPool))

namespace Node

/-- A payload that was there once is there as long as few enough builds have followed the last one
under its name. -/
theorem contains_of_since (node : Node) {events later : List Event} {id : PayloadId}
    (there : (node.unordered.run events).payloads.contains id = true)
    (few : (Build.since (node.unordered.builds (events ++ later)) id).length <
      payloadQueueCapacity) :
    (node.unordered.run (events ++ later)).payloads.contains id = true := by
  refine ((node.run_holds _).contains_iff id).mpr ⟨?_, few⟩
  obtain ⟨last, -⟩ := ((node.run_holds _).contains_iff id).mp there
  rw [builds_append, Build.last?_append, Option.isSome_or, last, Bool.or_true]

/-- Stored headers are found under their hashes. -/
theorem hash_of_headerByHash? (node : Node) (events : List Event) {hash : Hash} {header : Header}
    (found : (node.fresh.run events).chain.headerByHash? hash = some header) :
    header.hash = hash := by
  obtain ⟨block, stored, rfl⟩ := Option.map_eq_some_iff.mp found
  exact (node.run_storesValid events hash block stored).1

/-- **Orders are fulfilled.** Whatever happens on a new chain, under the name that an order was
given a payload can be fetched that has what the order asks for, unless ten other builds were
started since the last one under this name. -/
theorem order_fulfilled (node : Node) (events later : List Event) (version : ForkchoiceVersion)
    (choice : ForkchoiceState) (order : PayloadAttributes) (wantWitness : Bool)
    (accepted : node.config.validate = .ok ()) :
    let call := Call.forkchoiceUpdated version choice (some order) wantWitness
    let run := events ++ [.call call] ++ later
    BuildArgs.Apart (Event.orders node.config run) →
    ∀ response id, ((node.started.run events).answer call).1 = .ok response →
      response.payloadId = some id →
      (Build.since (node.started.builds run) id).length < 10 →
      ∀ fetching : GetPayloadVersion, fetching.check id = .ok () →
        ∃ envelope, ((node.started.run run).answer (.getPayload fetching id)).1 = .ok envelope ∧
          envelope.Fulfils node.config choice.headBlockHash order := by
  intro call run apart response id answered named few fetching served
  have legal := ChainConfig.accepted_of_validate accepted
  have config (events : List Event) : (node.started.run events).config = node.config :=
    run_config _ _
  have ordered := (node.started.run events).answer_forkchoiceUpdated_orders version choice
    (some order) wantWitness
  obtain ⟨args, asked, rfl⟩ := ordered.asked answered named
  rw [config] at asked
  have member : args ∈ Event.orders node.config run := Event.mem_orders_iff.mpr
    ⟨version, choice, some order, wantWitness, by simp [run, call], asked⟩
  have there : (node.started.run (events ++ [.call call])).payloads.contains args.id = true := by
    rw [run_concat]
    exact ordered.named response args.id answered named
  have holds : (node.started.run run).Holds (node.started.builds run) := node.started.run_holds run
  obtain ⟨build, parent, built, usePool, last, stored, fetched, realizes, demandedOnly⟩ :=
    holds.fetches served (node.started.contains_of_since there few)
  obtain ⟨among, name⟩ := Build.last?_eq_some last
  have asked' : build.args ∈ Event.orders node.config run :=
    List.mem_map.mpr ⟨build, node.started.builds_subset run among, rfl⟩
  have same : build.args = args := BuildArgs.eq_of_id_eq legal apart asked' member name
  rw [same] at stored realizes demandedOnly
  obtain ⟨_, ⟨⟩, -, posed⟩ := ForkchoiceVersion.asks?_eq_some_iff.mp asked
  have onHead : parent.hash = choice.headBlockHash := by
    obtain ⟨_, _, -, -, rfl⟩ := EngineM.buildArgs_eq_ok posed
    exact node.started.hash_of_headerByHash? run stored
  rw [config] at fetched realizes
  exact ⟨_, fetched,
    realizes.fulfils posed (version.shaped_of_asks? legal asked) onHead demandedOnly⟩

end Node

/-! ### An order that is given twice -/

namespace PlainOrder

open Siblings

/-- The order is given twice. -/
def twice : List Event := [.call call] ++ [.call call] ++ []

/-- The second time the order is given, the payload of the first time is named, and fulfils it. -/
theorem twice_fulfilled :
    ChainConfig.validate {} = .ok () ∧ BuildArgs.Apart (Event.orders {} twice) ∧
    (((Node.new {}).started.run [.call call]).answer call).1 =
      .ok (.valid genesis.hash (some args.id)) ∧
    (Build.since ((Node.new {}).started.builds twice) args.id).length < 10 ∧
    GetPayloadVersion.check .v1 args.id = .ok () ∧
    ∃ envelope, (((Node.new {}).started.run twice).answer (.getPayload .v1 args.id)).1 =
      .ok envelope ∧ envelope.Fulfils {} genesis.hash attributes := by
  have accepted : ChainConfig.validate {} = .ok () := by rfl
  have apart : BuildArgs.Apart (Event.orders {} twice) := by
    have only : ∀ a ∈ Event.orders {} twice, a = args := by
      intro a member
      rw [show Event.orders {} twice = [args, args] from rfl] at member
      rcases List.mem_cons.mp member with same | member
      · exact same
      · exact List.mem_singleton.mp member
    constructor
    · intro a ha b hb _
      rw [only a ha, only b hb]
    · intro a ha b hb tx member
      rw [only a ha] at member
      cases member
    · intro a ha list given
      rw [only a ha] at given
      cases given
  obtain ⟨job, started⟩ : ∃ job, PayloadJob.start (Node.new {}).started.generator
      (Node.new {}).started.clock args genesis.header false = .ok job := ⟨_, rfl⟩
  have config : (Node.new {}).config = {} := rfl
  -- Nothing else of the node matters, so it is not looked into.
  generalize Node.new {} = node at *
  have serves : Served node.started {} job :=
    served config (congrArg Chain.new config) rfl rfl rfl rfl started
  obtain ⟨answered, -⟩ := choice_served (node.started.run [.call call]) true false
    ((Node.run_config _ _).trans config) serves.chain rfl rfl rfl (.inl serves.waiting)
  have few : (Build.since (node.started.builds twice) args.id).length < 10 :=
    Nat.lt_of_le_of_lt (node.started.length_since_builds_le twice args.id) (by decide)
  have fulfilled := node.order_fulfilled [.call call] [] .v1 choice attributes false
    (config.symm ▸ accepted) (config.symm ▸ apart) _ args.id answered rfl few .v1 check_v1
  rw [config] at fulfilled
  exact ⟨accepted, apart, answered, few, check_v1, fulfilled⟩

end PlainOrder

end EngineNode
