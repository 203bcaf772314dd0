import EngineNode.Proofs.Engine.Choice
import EngineNode.Proofs.Payload.Conversion

/-!
What a payload does to the chain.

A payload is put off, rejected, recognised or executed on its way in, and only the last of these
changes the chain.

* `Imported` lists what can come of a payload: the chain stays as it is, or it gets the one block
  that the payload describes, which insertion has accepted and which was not stored before.
* `newPayload_ensures`: every payload comes to one of these.
-/

namespace EngineNode

namespace Chain

/-- What importing a payload comes to: the result and the chain afterwards. -/
inductive Imported (config : ChainConfig) (chain : Chain) (request : PayloadRequest) :
    Except EngineError PayloadStatus → Chain → Prop where
  | passed {result : Except EngineError PayloadStatus} :
      (∀ status, result = .ok status → status.status ≠ .valid) →
      Imported config chain request result chain
  | known {block known : Block} : request.payload.toBlock config request.sidecar = .ok block →
      chain.blockByHash? block.hash = some known →
      Imported config chain request (.ok (.valid known.hash)) chain
  | stored {block : Block} {chain' : Chain} {wantWitness : Bool} {witness : Option Witness} :
      request.payload.toBlock config request.sidecar = .ok block →
      chain.blockByHash? block.hash = none → chain.syncMode ≠ .snap →
      chain.insert config block wantWitness = .ok (chain', witness) →
      Imported config chain request
        (.ok { PayloadStatus.valid block.hash with witness := witness.map Witness.encode }) chain'

end Chain

namespace EngineM

open NodeM Chain

theorem delayImport_ensures (node : Node) (logs : List LogEntry) (block : Block) :
    Ensures (delayImport block) node logs fun result node' _ =>
      node.SameChain node' ∧ ∀ status, result = .ok status → status.status ≠ .valid := by
  simp only [delayImport, ensures_bind, ensures_lift]
  refine (checkBadChains_ensures node logs _ _).mono ?_
  rintro status node' logs' ⟨kept, -, rfl⟩
  cases rejected : (node.badChains.check node.chain block.parentHash block.hash).1 with
  | some status =>
      exact ⟨kept, of_eq_ok (BadChains.not_valid_of_check rejected)⟩
  | none =>
      simp only [ensures_bind, ensures_get, rememberHeader, ensures_modify]
      cases node'.downloader.extend node'.chain.syncMode block.header with
      | ok downloader => exact ⟨⟨kept.config, kept.chain⟩, of_eq_ok (by decide)⟩
      | error e =>
          simp only
          split <;> exact ⟨⟨kept.config, kept.chain⟩, of_eq_ok (by decide)⟩

theorem execute_ensures (node : Node) (logs : List LogEntry) {block parent : Block}
    {request : PayloadRequest} {wantWitness : Bool}
    (converted : request.payload.toBlock node.config request.sidecar = .ok block)
    (fresh : node.chain.blockByHash? block.hash = none) (full : node.chain.syncMode ≠ .snap) :
    Ensures (execute block parent wantWitness) node logs fun result node' _ =>
      node'.config = node.config ∧ Imported node.config node.chain request result node'.chain := by
  simp only [execute, ensures_bind, ensures_get]
  cases inserted : node.chain.insert node.config block wantWitness with
  | ok result => exact ⟨rfl, .stored converted fresh full inserted⟩
  | error e =>
      cases e
      case overflow => exact ⟨rfl, .passed of_error_eq_ok⟩
      all_goals exact ⟨rfl, .passed (of_eq_ok (PayloadStatus.not_valid_of_invalid rfl))⟩

theorem importOn_ensures (node : Node) (logs : List LogEntry) {block parent : Block}
    {request : PayloadRequest} {wantWitness : Bool}
    (converted : request.payload.toBlock node.config request.sidecar = .ok block)
    (fresh : node.chain.blockByHash? block.hash = none) :
    Ensures (importOn block parent wantWitness) node logs fun result node' _ =>
      node'.config = node.config ∧ Imported node.config node.chain request result node'.chain := by
  simp only [importOn, ensures_bind, ensures_get]
  split
  · exact ⟨rfl, .passed (of_eq_ok (PayloadStatus.not_valid_of_invalid rfl))⟩
  · split
    · refine (delayImport_ensures node logs block).mono ?_
      rintro result node' logs ⟨⟨config, chain⟩, notValid⟩
      exact ⟨config, chain ▸ .passed notValid⟩
    · rename_i full
      split
      · exact execute_ensures node logs converted fresh full
      · exact ⟨rfl, .passed (of_eq_ok (by decide))⟩

theorem importBlock_ensures (node : Node) (logs : List LogEntry) {block : Block}
    {request : PayloadRequest} {wantWitness : Bool}
    (converted : request.payload.toBlock node.config request.sidecar = .ok block) :
    Ensures (importBlock block wantWitness) node logs fun result node' _ =>
      node'.config = node.config ∧ Imported node.config node.chain request result node'.chain := by
  simp only [importBlock, ensures_bind, ensures_modify, ensures_get]
  cases stored : node.chain.blockByHash? block.hash with
  | some known => exact ⟨rfl, .known converted stored⟩
  | none =>
      simp only [ensures_bind, ensures_lift]
      refine (checkBadChains_ensures _ logs _ _).mono ?_
      rintro status node' logs' ⟨⟨config, chain⟩, -, rfl⟩
      split
      · rename_i status rejected
        exact ⟨config, chain ▸ .passed (of_eq_ok (BadChains.not_valid_of_check rejected))⟩
      · cases node.chain.blockByHash? block.parentHash with
        | none =>
            refine (delayImport_ensures node' logs' block).mono ?_
            rintro result node'' logs ⟨⟨config', chain'⟩, notValid⟩
            exact ⟨config'.trans config, (chain'.trans chain) ▸ .passed notValid⟩
        | some parent =>
            rw [show node.config = node'.config from config.symm] at converted ⊢
            rw [show node.chain = node'.chain from chain.symm] at stored ⊢
            exact importOn_ensures node' logs' converted stored

theorem importPayload_ensures (node : Node) (logs : List LogEntry) (request : PayloadRequest)
    (wantWitness : Bool) :
    Ensures (importPayload request wantWitness) node logs fun result node' _ =>
      node'.config = node.config ∧ Imported node.config node.chain request result node'.chain := by
  simp only [importPayload, ensures_bind, ensures_get]
  split
  · exact ⟨rfl, .passed (of_eq_ok (PayloadStatus.not_valid_of_invalid rfl))⟩
  · cases converted : request.payload.toBlock node.config request.sidecar with
    | error e => exact ⟨rfl, .passed (of_eq_ok (PayloadStatus.not_valid_of_invalid rfl))⟩
    | ok block => exact importBlock_ensures node logs converted

/-- **What a payload does.** -/
theorem newPayload_ensures (node : Node) (logs : List LogEntry) (version : NewPayloadVersion)
    (request : PayloadRequest) (wantWitness : Bool) :
    Ensures (newPayload version request wantWitness) node logs fun result node' _ =>
      node'.config = node.config ∧ Imported node.config node.chain request result node'.chain := by
  unfold newPayload
  rw [ensures_bind, ensures_get]
  dsimp only
  rw [ensures_bind, ensures_liftExcept]
  cases version.check _ node.config request with
  | error e => exact ⟨rfl, .passed of_error_eq_ok⟩
  | ok _ =>
      dsimp only
      split
      · exact ⟨rfl, .passed of_error_eq_ok⟩
      · refine ensures_bind.mpr ((importPayload_ensures node logs request wantWitness).mono ?_)
        rintro result node' logs ⟨config, imported⟩
        cases result <;> exact ⟨config, imported⟩

/-- A block is not stopped on its way to insertion if it can be inserted, unless it is known to be
bad. -/
theorem importBlock_stores {node : Node} {logs : List LogEntry} {wantWitness : Bool}
    {block : Block} {chain' : Chain} {witness : Option Witness}
    (fresh : node.chain.blockByHash? block.hash = none)
    (good : node.badChains.tips.get? block.hash = none) (full : node.chain.syncMode = .full)
    (inserted : node.chain.insert node.config block wantWitness = .ok (chain', witness)) :
    Ensures (importBlock block wantWitness) node logs fun result node' _ =>
      result = .ok { PayloadStatus.valid block.hash with witness := witness.map Witness.encode } ∧
        node'.chain = chain' ∧ node'.badChains = node.badChains := by
  obtain ⟨parent, _, hasState, stored, follows, -⟩ := Chain.insert_eq_ok_iff.mp inserted
  have later : ¬block.timestamp ≤ parent.timestamp := UInt64.not_le.mpr follows.timestamp
  have unchecked : node.badChains.check node.chain block.hash block.hash =
      (none, node.badChains, []) := by
    simp only [BadChains.check, good]
  simp only [importBlock, ensures_bind, ensures_modify, ensures_get, fresh, ensures_lift]
  refine (checkBadChains_ensures _ logs _ _).mono ?_
  rintro status node' logs' ⟨⟨config, chain⟩, badChains, rfl⟩
  simp only [unchecked] at config chain badChains ⊢
  simp only [stored, importOn, ensures_bind, ensures_get, later, if_false, chain, full, hasState,
    reduceCtorEq, if_true, execute, config, inserted]
  exact ⟨rfl, rfl, badChains⟩

/-- **A payload whose block can be inserted is stored**, if the version of the method accepts it
and its hash is not that of a block known to be bad. -/
theorem newPayload_stores {node : Node} {logs : List LogEntry} {version : NewPayloadVersion}
    {request : PayloadRequest} {wantWitness : Bool} {block : Block} {chain' : Chain}
    {witness : Option Witness}
    (accepted : version.check
      (if wantWitness then .newPayloadWithWitness else .newPayload) node.config request = .ok ())
    (ordered : Requests.validate (request.executionRequests.getD []) = .ok ())
    (plain : extraDataFault node.config request.payload = none)
    (converted : request.payload.toBlock node.config request.sidecar = .ok block)
    (fresh : node.chain.blockByHash? block.hash = none)
    (good : node.badChains.tips.get? block.hash = none) (full : node.chain.syncMode = .full)
    (inserted : node.chain.insert node.config block wantWitness = .ok (chain', witness)) :
    Ensures (newPayload version request wantWitness) node logs fun result node' _ =>
      result = .ok { PayloadStatus.valid block.hash with witness := witness.map Witness.encode } ∧
        node'.chain = chain' ∧ node'.badChains = node.badChains := by
  simp only [newPayload, ensures_bind, ensures_get, ensures_liftExcept, accepted, ordered,
    importPayload, plain, converted]
  refine (importBlock_stores fresh good full inserted).mono ?_
  rintro result node' logs' ⟨rfl, chain, badChains⟩
  exact ⟨rfl, chain, badChains⟩

end EngineM

end EngineNode
