import EngineNode.Proofs.Engine.Return

/-!
Which payloads are valid.

What is checked of a request before the chain is looked at depends on the request alone. Behind
these checks a payload is valid if its block is stored already, or if it extends a stored parent: a
node that is in order finds no other fault, whatever it has met before.

* `PayloadRequest.Presents`: a request passes the checks and describes a block.
* `Node.presents_of_valid`: the request of a valid payload does.
* `Node.cases_of_valid`: a valid payload is stored already, or it is inserted now.
* `Node.Orderly.validates_of_extends`: in full sync a payload is valid if its block extends a stored
  parent, whatever is on the list of bad chains.
-/

namespace EngineNode

/-- A request passes everything that is checked before the chain is looked at, and describes a
block. -/
structure PayloadRequest.Presents (request : PayloadRequest) (version : NewPayloadVersion)
    (config : ChainConfig) (wantWitness : Bool) (block : Block) : Prop where
  accepted : version.check (if wantWitness then .newPayloadWithWitness else .newPayload) config
    request = .ok ()
  ordered : Requests.validate (request.executionRequests.getD []) = .ok ()
  plain : EngineM.extraDataFault config request.payload = none
  converted : request.payload.toBlock config request.sidecar = .ok block

namespace PayloadRequest.Presents

variable {request : PayloadRequest} {version : NewPayloadVersion} {config : ChainConfig}
  {wantWitness : Bool} {block : Block}

theorem hash_eq (presents : request.Presents version config wantWitness block) :
    block.hash = request.payload.blockHash :=
  (Payload.toBlock_eq_ok_iff.mp presents.converted).2

theorem parentHash_eq (presents : request.Presents version config wantWitness block) :
    block.parentHash = request.payload.parentHash := by
  obtain ⟨_, _, -, -, header⟩ := (Payload.toBlock_eq_ok_iff.mp presents.converted).1.header
  rw [Block.parentHash, header]
  rfl

/-- The payload of an empty block can be sent in the first version of the method before Isthmus. -/
theorem of_emptyChild {parent : Block} {timestamp : UInt64}
    (fee : (nextBaseFee config parent.header timestamp).isSome) (plain : config.isRollup = false)
    (early : config.isIsthmus timestamp = false) :
    ({ payload := .ofBlock config (.emptyChild config parent timestamp) } : PayloadRequest).Presents
      .v1 config false (.emptyChild config parent timestamp) where
  accepted := rfl
  ordered := rfl
  plain := by simp only [EngineM.extraDataFault, plain, Bool.false_eq_true, if_false]
  converted := Payload.toBlock_emptyChild fee early

end PayloadRequest.Presents

/-! ### The checks before the chain -/

namespace EngineM

open NodeM

variable {node : Node} {logs : List LogEntry} {version : NewPayloadVersion}
  {request : PayloadRequest} {wantWitness : Bool}

/-- A payload is answered with a status only if the version of the method accepts it. -/
theorem newPayload_accepted :
    Ensures (newPayload version request wantWitness) node logs fun result _ _ =>
      ∀ status, result = .ok status →
        version.check (if wantWitness then .newPayloadWithWitness else .newPayload) node.config
          request = .ok () ∧
        Requests.validate (request.executionRequests.getD []) = .ok () := by
  simp only [newPayload, ensures_bind, ensures_get, ensures_liftExcept]
  cases accepted : version.check (if wantWitness then .newPayloadWithWitness else .newPayload)
      node.config request with
  | error e => exact of_error_eq_ok
  | ok _ =>
      dsimp only
      cases ordered : Requests.validate (request.executionRequests.getD []) with
      | error e => exact of_error_eq_ok
      | ok _ => exact fun _ _ => ⟨rfl, rfl⟩

end EngineM

namespace Node

variable {node : Node} {version : NewPayloadVersion} {request : PayloadRequest}
  {wantWitness : Bool} {block parent : Block} {known : List Block}

/-- The answer to a request is that the payload is valid. -/
def Validates (node : Node) (version : NewPayloadVersion) (request : PayloadRequest)
    (wantWitness : Bool) : Prop :=
  ∃ status, (node.answer (.newPayload version request wantWitness)).1 = .ok status ∧
    status.status = .valid

/-- **The request of a valid payload passes all checks before the chain.** -/
theorem presents_of_valid (valid : node.Validates version request wantWitness) :
    ∃ block, request.Presents version node.config wantWitness block := by
  obtain ⟨status, answered, valid⟩ := valid
  have accepted : ∀ status, (node.answer (.newPayload version request wantWitness)).1 =
      .ok status → _ := EngineM.newPayload_accepted
  obtain ⟨plain, block, converted⟩ := of_answer_valid answered valid
  exact ⟨block, (accepted status answered).1, (accepted status answered).2, plain, converted⟩

/-- A payload that is valid was stored before, or it is inserted now. -/
theorem cases_of_valid (presents : request.Presents version node.config wantWitness block)
    {status : PayloadStatus}
    (answered : (node.answer (.newPayload version request wantWitness)).1 = .ok status)
    (valid : status.status = .valid) :
    (∃ old, node.chain.blockByHash? block.hash = some old ∧
      status.latestValidHash = some old.hash ∧
      (node.answer (.newPayload version request wantWitness)).2.chain = node.chain) ∨
    status.latestValidHash = some block.hash ∧
      (node.answer (.newPayload version request wantWitness)).2.chain =
        node.chain.withBlock block := by
  have imported := (node.answer_newPayload version request wantWitness).2
  rw [answered] at imported
  generalize (node.answer (.newPayload version request wantWitness)).2.chain = chain' at imported ⊢
  have unique {block' : Block}
      (converted : request.payload.toBlock node.config request.sidecar = .ok block') :
      block' = block :=
    Except.ok.inj (converted.symm.trans presents.converted)
  cases imported with
  | passed notValid => exact absurd valid (notValid status rfl)
  | known converted stored =>
      obtain rfl := unique converted
      exact .inl ⟨_, stored, rfl, rfl⟩
  | stored converted _ _ inserted =>
      obtain rfl := unique converted
      obtain ⟨_, _, _, _, _, _, _, added, _⟩ := Chain.insert_eq_ok_iff.mp inserted
      exact .inr ⟨rfl, added⟩

/-- A payload that is valid is stored from then on. -/
theorem stored_of_valid (presents : request.Presents version node.config wantWitness block)
    (valid : node.Validates version request wantWitness) :
    ∃ old, (node.answer (.newPayload version request wantWitness)).2.chain.blockByHash?
      block.hash = some old := by
  obtain ⟨status, answered, valid⟩ := valid
  rcases cases_of_valid presents answered valid with ⟨old, stored, -, same⟩ | ⟨-, added⟩
  · rw [same]
    exact ⟨old, stored⟩
  · rw [added, Chain.blockByHash?_withBlock, if_pos rfl]
    exact ⟨block, rfl⟩

/-- A payload whose block is stored is valid. -/
theorem validates_of_stored (presents : request.Presents version node.config wantWitness block)
    {old : Block} (stored : node.chain.blockByHash? block.hash = some old) :
    node.Validates version request wantWitness := by
  have answered : (node.answer (.newPayload version request wantWitness)).1 =
      .ok (.valid old.hash) :=
    EngineM.newPayload_knows presents.accepted presents.ordered presents.plain presents.converted
      stored
  exact ⟨_, answered, rfl⟩

/-- A payload whose block can be inserted is valid, if nothing is known against its hash. -/
theorem validates_of_insert (presents : request.Presents version node.config wantWitness block)
    (fresh : node.chain.blockByHash? block.hash = none)
    (good : node.badChains.tips.get? block.hash = none) (full : node.chain.syncMode = .full)
    {chain' : Chain} {witness : Option Witness}
    (inserted : node.chain.insert node.config block wantWitness = .ok (chain', witness)) :
    node.Validates version request wantWitness := by
  have answered : (node.answer (.newPayload version request wantWitness)).1 =
      .ok { PayloadStatus.valid block.hash with witness := witness.map Witness.encode } :=
    (EngineM.newPayload_stores presents.accepted presents.ordered presents.plain presents.converted
      fresh good full inserted).1
  exact ⟨_, answered, rfl⟩

/-! ### Nodes in order -/

/-- A payload whose block extends a stored parent is valid in full sync. -/
theorem Orderly.validates_of_extends (orderly : node.Orderly known)
    (unambiguous : Block.Unambiguous known) (full : node.chain.syncMode = .full)
    (presents : request.Presents version node.config wantWitness block) (member : block ∈ known)
    (stored : node.chain.blockByHash? block.parentHash = some parent)
    (fits : block.Extends node.config parent.header) :
    node.Validates version request wantWitness := by
  cases found : node.chain.blockByHash? block.hash with
  | some old => exact validates_of_stored presents found
  | none =>
      have hasState := orderly.founded.hasState _ _ stored
      have good := orderly.not_tip unambiguous member stored fits
      obtain ⟨witness, inserted⟩ := fits.insert hasState stored wantWitness
      exact validates_of_insert presents found good full inserted

end Node

end EngineNode
