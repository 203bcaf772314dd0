import EngineNode.JsonRpc.Call
import EngineNode.Proofs.Engine.Siblings
import EngineNode.Proofs.Payload.Commitment
import EngineNode.Proofs.Schedule

/-!
Stored blocks and the fields of their forks.

Which optional fields a header has is only checked where a payload comes in, by the version of the
method. Conversion passes on what it is given, and insertion does not look at these fields. So it is
the versions that keep the stored blocks to the forks of their times, and all but the first one do.

* `PayloadRequest.KeepsTo`, `PayloadRequest.FitsForks`: what is given to a version of the method,
  and what the forks ask for.
* `NewPayloadVersion.fitsForks_of_check`: a version but the first accepts only what the forks ask
  for.
* `Node.stored_by`: a stored block was brought by a call that its version has accepted.
* `Node.stored_fields`: what optional fields it has.
* `FirstBlock.lacks_withdrawalsRoot`: a block that came by the first version may lack fields of its
  fork.
-/

namespace EngineNode

variable {config : ChainConfig}

/-! ### What the versions accept -/

/-- A request has only what the version has parameters for. -/
def PayloadRequest.KeepsTo (request : PayloadRequest) : NewPayloadVersion → Prop
  | .v1 | .v2 =>
    request.versionedHashes = none ∧ request.beaconRoot = none ∧ request.executionRequests = none
  | .v3 => request.executionRequests = none
  | .v4 => True

/-- The requests that are sent to a method keep to its version. -/
theorem JsonRpc.payloadRequest_keepsTo {params : Params} {version : NewPayloadVersion}
    {request : PayloadRequest} {count : Nat}
    (read : payloadRequest params version = .ok (request, count)) : request.KeepsTo version := by
  unfold payloadRequest at read
  obtain ⟨payload, -, read⟩ := bind_eq_ok_iff.mp read
  cases version with
  | v1 | v2 =>
      cases read
      exact ⟨rfl, rfl, rfl⟩
  | v3 =>
      obtain ⟨hashes, -, read⟩ := bind_eq_ok_iff.mp read
      obtain ⟨root, -, read⟩ := bind_eq_ok_iff.mp read
      cases read
      exact rfl
  | v4 => trivial

/-- A request has the optional parts that the forks of its time ask for. -/
structure PayloadRequest.FitsForks (request : PayloadRequest) (config : ChainConfig) : Prop where
  withdrawals : request.payload.withdrawals.isSome = config.isShanghai request.payload.timestamp
  blobGasUsed : request.payload.blobGasUsed.isSome = config.isCancun request.payload.timestamp
  excessBlobGas : request.payload.excessBlobGas.isSome = config.isCancun request.payload.timestamp
  beaconRoot : request.beaconRoot.isSome = config.isCancun request.payload.timestamp
  executionRequests :
    request.executionRequests.isSome = config.isPrague request.payload.timestamp

namespace NewPayloadVersion

variable {request : PayloadRequest}

theorem of_checkV1 {method : PayloadMethod} (accepted : v1.check method config request = .ok ()) :
    request.payload.withdrawals = none :=
  Option.not_isSome_iff_eq_none.mp (ite_error_eq_ok_iff.mp accepted).1

theorem checkV2_eq_ok_iff {method : String} {payload : Payload} :
    checkV2 config method payload = .ok () ↔ config.isCancun payload.timestamp = false ∧
      payload.withdrawals.isSome = decide (config.latestFork payload.timestamp = .shanghai) ∧
      payload.excessBlobGas.isSome = false ∧ payload.blobGasUsed.isSome = false := by
  unfold checkV2
  simp only [throw_eq_error, error_bind, pure_eq_ok, ite_error_eq_ok_iff, Bool.not_eq_true]
  cases decide (config.latestFork payload.timestamp = .shanghai) <;>
    cases payload.withdrawals <;> simp

theorem checkCancunFields_eq_ok_iff : checkCancunFields request = .ok () ↔
    request.payload.withdrawals.isSome ∧ request.payload.excessBlobGas.isSome ∧
      request.payload.blobGasUsed.isSome ∧ request.versionedHashes.isSome ∧
      request.beaconRoot.isSome := by
  unfold checkCancunFields
  simp only [throw_eq_error, error_bind, pure_eq_ok, ite_error_eq_ok_iff,
    Option.isNone_iff_eq_none, ← ne_eq, Option.ne_none_iff_isSome, and_true]

theorem of_checkV3 {method : String} (accepted : checkV3 config method request = .ok ()) :
    checkCancunFields request = .ok () ∧
      config.latestFork request.payload.timestamp = .cancun := by
  obtain ⟨_, fields, accepted⟩ := bind_eq_ok_iff.mp accepted
  exact ⟨fields, not_not.mp (ite_error_eq_ok_iff.mp accepted).1⟩

theorem of_checkV4 {method : String} (accepted : checkV4 config method request = .ok ()) :
    checkCancunFields request = .ok () ∧ request.executionRequests.isSome ∧
      Fork.prague ≤ config.latestFork request.payload.timestamp := by
  obtain ⟨_, fields, accepted⟩ := bind_eq_ok_iff.mp accepted
  simp only [throw_eq_error, error_bind, ite_error_eq_ok_iff, Option.isNone_iff_eq_none, ← ne_eq,
    Option.ne_none_iff_isSome] at accepted
  obtain ⟨requests, accepted⟩ := accepted
  refine ⟨fields, requests, ?_⟩
  by_contra early
  simp [early] at accepted

/-- **A version but the first accepts only what the forks ask for.** -/
theorem fitsForks_of_check {version : NewPayloadVersion} {method : PayloadMethod}
    (legal : config.Accepted) (accepted : version.check method config request = .ok ())
    (later : version ≠ .v1) (keeps : request.KeepsTo version) : request.FitsForks config := by
  have shanghai : config.isShanghai request.payload.timestamp = _ := legal.isForkActive_eq .shanghai
  have cancun : config.isCancun request.payload.timestamp = _ := legal.isForkActive_eq .cancun
  have prague : config.isPrague request.payload.timestamp = _ := legal.isForkActive_eq .prague
  cases version with
  | v1 => exact absurd rfl later
  | v2 =>
      obtain ⟨early, withdrawals, excessBlobGas, blobGasUsed⟩ := checkV2_eq_ok_iff.mp accepted
      obtain ⟨-, root, requests⟩ := keeps
      have before : ¬Fork.cancun ≤ config.latestFork request.payload.timestamp :=
        of_decide_eq_false (cancun.symm.trans early)
      -- What is left are the forks before Cancun.
      cases fork : config.latestFork request.payload.timestamp <;>
        simp only [fork] at withdrawals shanghai cancun prague before
      case paris | shanghai =>
        exact ⟨withdrawals.trans shanghai.symm, blobGasUsed.trans cancun.symm,
          excessBlobGas.trans cancun.symm, root ▸ cancun.symm, requests ▸ prague.symm⟩
      all_goals exact absurd (by decide) before
  | v3 =>
      obtain ⟨fields, fork⟩ := of_checkV3 accepted
      obtain ⟨withdrawals, excessBlobGas, blobGasUsed, -, root⟩ :=
        checkCancunFields_eq_ok_iff.mp fields
      have requests : request.executionRequests = none := keeps
      rw [fork] at shanghai cancun prague
      exact ⟨withdrawals.trans shanghai.symm, blobGasUsed.trans cancun.symm,
        excessBlobGas.trans cancun.symm, root.trans cancun.symm, requests ▸ prague.symm⟩
  | v4 =>
      obtain ⟨fields, requests, since⟩ := of_checkV4 accepted
      obtain ⟨withdrawals, excessBlobGas, blobGasUsed, -, root⟩ :=
        checkCancunFields_eq_ok_iff.mp fields
      have sinceCancun : Fork.cancun ≤ config.latestFork request.payload.timestamp :=
        Nat.le_trans (by decide) since
      have sinceShanghai : Fork.shanghai ≤ config.latestFork request.payload.timestamp :=
        Nat.le_trans (by decide) since
      rw [decide_eq_true since] at prague
      rw [decide_eq_true sinceCancun] at cancun
      rw [decide_eq_true sinceShanghai] at shanghai
      exact ⟨withdrawals.trans shanghai.symm, blobGasUsed.trans cancun.symm,
        excessBlobGas.trans cancun.symm, root.trans cancun.symm, requests.trans prague.symm⟩

end NewPayloadVersion

/-! ### From requests to headers -/

/-- A payload without withdrawals names no root for them. -/
def Payload.NoStrayRoot (payload : Payload) : Prop :=
  payload.withdrawalsRoot.isSome = true → payload.withdrawals.isSome = true

/-- A header has the optional fields that the forks of its time ask for, but for the withdrawals
root. -/
structure Header.FitsForks (header : Header) (config : ChainConfig) : Prop where
  blobGasUsed : header.blobGasUsed.isSome = config.isCancun header.timestamp
  excessBlobGas : header.excessBlobGas.isSome = config.isCancun header.timestamp
  parentBeaconBlockRoot : header.parentBeaconBlockRoot.isSome = config.isCancun header.timestamp
  requestsHash : header.requestsHash.isSome = config.isPrague header.timestamp

/-- Of these fields a header has only those for blobs, as a payload has them. -/
structure Header.FitsBlobsOf (header : Header) (payload : Payload) : Prop where
  blobGasUsed : header.blobGasUsed = payload.blobGasUsed
  excessBlobGas : header.excessBlobGas = payload.excessBlobGas
  parentBeaconBlockRoot : header.parentBeaconBlockRoot = none
  requestsHash : header.requestsHash = none

section Described

variable {request : PayloadRequest} {block : Block}

/-- There is a withdrawals root where there are withdrawals. -/
theorem Payload.Describes.isSome_withdrawalsRoot {payload : Payload} {sidecar : Sidecar}
    (describes : payload.Describes config sidecar block) (noStray : payload.NoStrayRoot) :
    block.header.withdrawalsRoot.isSome = payload.withdrawals.isSome := by
  rw [describes.withdrawalsRoot_eq]
  cases named : payload.withdrawalsRoot with
  | none => exact Option.isSome_map
  | some root =>
      have there : payload.withdrawals.isSome = true := noStray (named ▸ rfl)
      exact there.symm

theorem PayloadRequest.FitsForks.header (fits : request.FitsForks config)
    (describes : request.payload.Describes config request.sidecar block) :
    block.header.FitsForks config := by
  obtain ⟨_, _, -, -, header⟩ := describes.header
  rw [header]
  exact {
    blobGasUsed := fits.blobGasUsed
    excessBlobGas := fits.excessBlobGas
    parentBeaconBlockRoot := fits.beaconRoot
    requestsHash := Option.isSome_map.trans fits.executionRequests }

/-- The first version has no parameter for what is beside a payload. -/
theorem PayloadRequest.KeepsTo.header (keeps : request.KeepsTo .v1)
    (describes : request.payload.Describes config request.sidecar block) :
    block.header.FitsBlobsOf request.payload := by
  obtain ⟨_, _, -, -, header⟩ := describes.header
  obtain ⟨-, root, requests⟩ := keeps
  rw [header]
  exact {
    blobGasUsed := rfl
    excessBlobGas := rfl
    parentBeaconBlockRoot := root
    requestsHash := congrArg (Option.map Requests.hash) requests }

theorem Payload.Describes.timestamp {payload : Payload} {sidecar : Sidecar}
    (describes : payload.Describes config sidecar block) :
    block.timestamp = payload.timestamp := by
  obtain ⟨_, _, -, -, header⟩ := describes.header
  rw [Block.timestamp, header]
  rfl

end Described

/-! ### What is stored -/

namespace Node

variable {node : Node} {version : NewPayloadVersion} {request : PayloadRequest}
  {wantWitness : Bool}

/-- A payload that its version does not accept changes nothing. -/
theorem answer_newPayload_of_check {e : EngineError}
    (refused : version.check (if wantWitness then .newPayloadWithWitness else .newPayload)
      node.config request = .error e) :
    node.answer (.newPayload version request wantWitness) = (.error e, node) := by
  have unchanged : EngineM.Ensures (EngineM.newPayload version request wantWitness) node []
      fun result node' _ => result = .error e ∧ node' = node := by
    simp only [EngineM.newPayload, EngineM.ensures_bind, EngineM.ensures_get,
      EngineM.ensures_liftExcept, refused, and_self]
  exact Prod.ext unchanged.1 unchanged.2

/-- An event brings a block: it is a call with the payload of the block, and the version of the call
accepts it. -/
def Brings (node : Node) (block : Block) (event : Event) : Prop :=
  ∃ version request wantWitness, event = .call (.newPayload version request wantWitness) ∧
    version.check (if wantWitness then .newPayloadWithWitness else .newPayload) node.config
      request = .ok () ∧
    request.payload.toBlock node.config request.sidecar = .ok block

/-- **An event adds no block but one that it brings.** -/
theorem after_brings (node : Node) (event : Event) {hash : Hash} {block : Block}
    (stored : (node.after event).chain.blockByHash? hash = some block) :
    node.chain.blockByHash? hash = some block ∨ node.Brings block event := by
  rcases node.after_store event with ⟨blocks, -⟩ | ⟨added, _, _, described, fresh, inserted⟩
  · exact .inl ((congrArg (List.lookup hash) blocks).symm.trans stored)
  · obtain ⟨_, _, -, -, -, -, -, after, -⟩ := Chain.insert_eq_ok_iff.mp inserted
    rw [after, Chain.blockByHash?_withBlock] at stored
    split at stored
    · cases stored
      right
      unfold Event.block? at described
      split at described
      · rename_i call
        unfold Call.block? at described
        split at described
        · rename_i version request wantWitness
          have converted := toOption_eq_some_iff.mp described
          refine ⟨version, request, wantWitness, rfl, ?_, converted⟩
          cases checked : version.check
              (if wantWitness then .newPayloadWithWitness else .newPayload) node.config request with
          | ok _ => rfl
          | error e =>
              -- A refused payload would leave the block out.
              rw [after_call, answer_newPayload_of_check checked] at after
              have there := (Chain.blockByHash?_withBlock node.chain block block.hash).trans
                (if_pos rfl)
              rw [← after, fresh] at there
              cases there
        · cases described
      · cases described
    · exact .inl stored

/-- **A stored block was brought by a call.** -/
theorem stored_by (node : Node) (events : List Event) {hash : Hash} {block : Block}
    (stored : (node.fresh.run events).chain.blockByHash? hash = some block)
    (new : block ≠ genesisBlock node.config) : ∃ event ∈ events, node.Brings block event := by
  induction events using List.reverseRecOn with
  | nil => exact absurd (Chain.lookup_new stored).2 new
  | append_singleton events event ih =>
      rw [run_concat] at stored
      rcases (node.fresh.run events).after_brings event stored with before | brings
      · obtain ⟨earlier, member, brings⟩ := ih before
        exact ⟨earlier, List.mem_append_left _ member, brings⟩
      · refine ⟨event, by simp, ?_⟩
        rw [Brings, run_config] at brings
        exact brings

/-- **What optional fields a stored block has.** All but the first version see to it that a block
has those that the forks of its time ask for; the first version only refuses withdrawals. The
withdrawals root depends on the withdrawals, as far as payloads without them name no root. -/
theorem stored_fields (node : Node) (events : List Event)
    (accepted : node.config.validate = .ok ())
    (keeps : ∀ version request wantWitness,
      .call (.newPayload version request wantWitness) ∈ events → request.KeepsTo version)
    {hash : Hash} {block : Block}
    (stored : (node.fresh.run events).chain.blockByHash? hash = some block)
    (new : block ≠ genesisBlock node.config) :
    ∃ version request wantWitness, .call (.newPayload version request wantWitness) ∈ events ∧
      request.payload.toBlock node.config request.sidecar = .ok block ∧
      (version ≠ .v1 → block.header.FitsForks node.config ∧
        (request.payload.NoStrayRoot →
          block.header.withdrawalsRoot.isSome = node.config.isShanghai block.timestamp)) ∧
      (version = .v1 → block.header.FitsBlobsOf request.payload ∧
        (request.payload.NoStrayRoot → block.header.withdrawalsRoot = none)) := by
  have legal := ChainConfig.accepted_of_validate accepted
  obtain ⟨_, member, version, request, wantWitness, rfl, checked, converted⟩ :=
    node.stored_by events stored new
  have kept : request.KeepsTo version := keeps version request wantWitness member
  obtain ⟨describes, -⟩ := Payload.toBlock_eq_ok_iff.mp converted
  refine ⟨version, request, wantWitness, member, converted, ?_, ?_⟩
  · intro later
    have fits := NewPayloadVersion.fitsForks_of_check legal checked later kept
    refine ⟨fits.header describes, fun noStray => ?_⟩
    rw [describes.isSome_withdrawalsRoot noStray, describes.timestamp, fits.withdrawals]
  · rintro rfl
    refine ⟨kept.header describes, fun noStray => ?_⟩
    have refused := NewPayloadVersion.of_checkV1 checked
    rw [← Option.not_isSome_iff_eq_none, describes.isSome_withdrawalsRoot noStray, refused]
    exact Bool.false_ne_true

end Node

/-! ### The first block in two versions -/

namespace FirstBlock

open Siblings

/-- The first block comes in by a version of the method. -/
def call (config : ChainConfig) (version : NewPayloadVersion) : Call :=
  .newPayload version { payload := .ofBlock config first } false

theorem keepsTo {version : NewPayloadVersion} (bare : version = .v1 ∨ version = .v2) :
    ∀ version' request wantWitness,
      .call (.newPayload version' request wantWitness) ∈ [Event.call (call config version)] →
        request.KeepsTo version' := by
  intro version' request wantWitness member
  cases List.mem_singleton.mp member
  rcases bare with rfl | rfl <;> exact ⟨rfl, rfl, rfl⟩

/-- The first block is stored on a chain with the usual genesis block if its version accepts it. -/
theorem stored (config : ChainConfig) (version : NewPayloadVersion)
    (usual : genesisBlock config = genesis)
    (same : Block.emptyChild config genesis 12 = first)
    (fee : (nextBaseFee config genesis.header 12).isSome) (plain : config.isRollup = false)
    (early : config.isIsthmus 12 = false)
    (accepted : version.check .newPayload config { payload := .ofBlock config first } = .ok ()) :
    ((Node.new config).fresh.run [.call (call config version)]).chain.blockByHash? first.hash =
      some first := by
  have configured : (Node.new config).fresh.config = config := rfl
  have chain : (Node.new config).fresh.chain = Chain.new {} := by
    show Chain.new config = Chain.new {}
    rw [Chain.new, usual]
    rfl
  have good : (Node.new config).fresh.badChains = {} := rfl
  -- Nothing else of the node matters, so it is not looked into.
  generalize (Node.new config).fresh = node at *
  have fresh : (Chain.new {}).blockByHash? (Block.emptyChild config genesis 12).hash = none :=
    same ▸ first_fresh
  have after : (node.after (.call (call config version))).chain =
      (Chain.new {}).withBlock first := by
    rw [call, ← same]
    exact (Node.after_newPayload_emptyChild configured chain good rfl genesis_hasState
      genesis_stored fresh (by decide) (by decide) fee plain early (same ▸ accepted)).2.1
  rw [Node.run_cons, Node.run_nil, after, Chain.blockByHash?_withBlock, if_pos rfl]

theorem ne_genesisBlock (usual : genesisBlock config = genesis) : first ≠ genesisBlock config := by
  rw [usual]
  intro same
  exact hashes_distinct.1 (congrArg Block.hash same.symm)

/-- The first block has what its fork asks for when it comes by the second version. -/
theorem fields_second :
    let config : ChainConfig := {}
    let run : List Event := [.call (call config .v2)]
    config.validate = .ok () ∧
      ((Node.new config).fresh.run run).chain.blockByHash? first.hash = some first ∧
      first ≠ genesisBlock config ∧
      ∃ version request wantWitness, .call (.newPayload version request wantWitness) ∈ run ∧
        request.payload.toBlock config request.sidecar = .ok first ∧
        (version ≠ .v1 → first.header.FitsForks config ∧
          (request.payload.NoStrayRoot →
            first.header.withdrawalsRoot.isSome = config.isShanghai first.timestamp)) ∧
        (version = .v1 → first.header.FitsBlobsOf request.payload ∧
          (request.payload.NoStrayRoot → first.header.withdrawalsRoot = none)) := by
  have accepted : ChainConfig.validate {} = .ok () := by rfl
  have there := stored {} .v2 rfl rfl (by decide +kernel) rfl rfl rfl
  have new : first ≠ genesisBlock {} := ne_genesisBlock rfl
  have fields := (Node.new {}).stored_fields [.call (call {} .v2)] accepted (keepsTo (.inr rfl))
    there new
  exact ⟨accepted, there, new, fields⟩

/-- A chain on which Shanghai activates at the time of the first block. -/
def shanghai : ChainConfig := { shanghaiTime := some 12 }

/-- **A block is stored without the withdrawals root that its fork asks for**, when it comes by the
first version. -/
theorem lacks_withdrawalsRoot :
    shanghai.validate = .ok () ∧
      (∀ version request wantWitness,
        .call (.newPayload version request wantWitness) ∈ [Event.call (call shanghai .v1)] →
          request.KeepsTo version) ∧
      ((Node.new shanghai).fresh.run [.call (call shanghai .v1)]).chain.blockByHash? first.hash =
        some first ∧
      first ≠ genesisBlock shanghai ∧ shanghai.isShanghai first.timestamp = true ∧
      first.header.withdrawalsRoot = none := by
  have there := stored shanghai .v1 rfl rfl (by decide +kernel) rfl rfl rfl
  exact ⟨rfl, keepsTo (.inl rfl), there, ne_genesisBlock rfl, rfl, rfl⟩

end FirstBlock

end EngineNode
