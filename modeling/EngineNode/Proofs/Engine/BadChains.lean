import EngineNode.Proofs.Engine.Store

/-!
How payloads get on the list of bad chains.

A payload that is rejected because of its parent becomes the tip of a bad chain itself, and so does
one whose execution fails. Nothing else adds a tip, though many things take some away.

* `BadChains.check_cases`: what a check says and what it does to the tips.
* `EngineM.newPayload_judges`: every payload passes, is rejected, or fails (`BadChains.Judged`).
* `ne_rejectionText_of_head` and the lemmas on messages: no other complaint reads like a rejection.
-/

namespace EngineNode

/-! ### Messages -/

/-- What is said of a block that belongs to a bad chain. -/
def BadChains.rejectionText : String := "links to previously rejected block"

theorem ne_rejectionText_of_head {message : String} (other : message.toList.head? ≠ some 'l') :
    message ≠ BadChains.rejectionText := by
  rintro rfl
  exact other rfl

theorem FeeParamsError.message_head (error : FeeParamsError) :
    error.message.toList.head? ≠ some 'l' := by
  cases error <;> unfold message <;> simp [String.toList_append]

theorem ConversionError.message_head (error : ConversionError) :
    error.message.toList.head? ≠ some 'l' := by
  cases error <;> unfold message <;> simp [String.toList_append]

theorem TransactionError.messageWithCause_head (error : TransactionError) :
    error.messageWithCause.toList.head? ≠ some 'l' := by
  cases error <;> unfold messageWithCause message <;> simp [String.toList_append]

theorem ExecutionError.message_head (error : ExecutionError) :
    error.message.toList.head? ≠ some 'l' := by
  cases error with
  | transaction error => exact error.messageWithCause_head
  | _ => unfold message; simp [String.toList_append]

theorem ChainError.message_head (error : ChainError) :
    error.message.toList.head? ≠ some 'l' := by
  cases error with
  | execution error => exact error.message_head
  | _ => unfold message; simp [String.toList_append]

theorem EngineM.extraDataFault_head {config : ChainConfig} {payload : Payload} {fault : String}
    (found : extraDataFault config payload = some fault) : fault.toList.head? ≠ some 'l' := by
  unfold extraDataFault at found
  split at found
  · split at found
    · split at found
      · cases found
      · cases found
        exact FeeParamsError.message_head _
    · split at found
      · cases found
      · cases found
        simp
  · cases found

/-! ### Tips -/

namespace BadChains

variable {chains chains' chains'' : BadChains} {chain : Chain} {tip : Hash} {bad : Header}

/-- No tip is added or changed. -/
def Covers (chains chains' : BadChains) : Prop :=
  ∀ tip bad, chains'.tips.get? tip = some bad → chains.tips.get? tip = some bad

/-- No tip is added or changed but one. -/
def Gains (chains chains' : BadChains) (tip : Hash) (bad : Header) : Prop :=
  ∀ other worse, chains'.tips.get? other = some worse →
    chains.tips.get? other = some worse ∨ other = tip ∧ worse = bad

theorem Covers.refl (chains : BadChains) : chains.Covers chains := fun _ _ found => found

theorem Covers.trans (first : chains.Covers chains') (second : chains'.Covers chains'') :
    chains.Covers chains'' :=
  fun tip bad found => first tip bad (second tip bad found)

theorem Covers.gains (first : chains.Covers chains') (second : chains'.Gains chains'' tip bad) :
    chains.Gains chains'' tip bad :=
  fun other worse found => (second other worse found).imp_left (first other worse)

/-- A tip that was there is not gained. -/
theorem Gains.covers (gains : chains.Gains chains' tip bad)
    (known : chains.tips.get? tip = some bad) : chains.Covers chains' := by
  intro other worse found
  rcases gains other worse found with before | ⟨rfl, rfl⟩
  · exact before
  · exact known

/-- A block that fails is a tip. -/
theorem get?_recordFailure (chains : BadChains) (header : Header) :
    (chains.recordFailure header).tips.get? header.hash = some header := by
  rw [recordFailure, RecencyMap.get?_insert, if_pos rfl]

/-- A block that fails has been hit once. -/
theorem hitsOf_recordFailure (chains : BadChains) (header : Header) :
    (chains.recordFailure header).hitsOf header.hash = 1 := by
  rw [hitsOf, recordFailure, RecencyMap.get?_insert, if_pos rfl, Option.getD_some]

theorem gains_recordFailure (chains : BadChains) (header : Header) :
    chains.Gains (chains.recordFailure header) header.hash header := by
  intro other worse found
  rw [recordFailure, RecencyMap.get?_insert] at found
  split at found
  · rename_i same
    exact .inr ⟨same, (Option.some.inj found).symm⟩
  · exact .inl found

theorem gains_addTip (chains : BadChains) (tip : Hash) (bad : Header) :
    chains.Gains (chains.addTip tip bad) tip bad := by
  intro other worse found
  rw [addTip, RecencyMap.get?_insert] at found
  split at found
  · rename_i same
    exact .inr ⟨same, (Option.some.inj found).symm⟩
  · exact .inl (RecencyMap.get?_of_get?_trim found)

/-- **What a check comes to.** -/
theorem check_cases (chains : BadChains) (chain : Chain) (check head : Hash) :
    (chains.check chain check head).1 = none ∧
        chains.Covers (chains.check chain check head).2.1 ∨
      ∃ bad, chains.tips.get? check = some bad ∧
        (chains.check chain check head).1 = some (rejection chain bad) ∧
        chains.Gains (chains.check chain check head).2.1 head bad := by
  unfold BadChains.check
  cases known : chains.tips.get? check with
  | none => exact .inl ⟨rfl, .refl chains⟩
  | some bad =>
      dsimp only
      split
      · exact .inl ⟨rfl, fun _ _ found => (RecencyMap.get?_of_get?_filter found).1⟩
      · split
        · exact .inr ⟨bad, rfl, rfl, fun _ _ found => .inl found⟩
        · exact .inr ⟨bad, rfl, rfl, gains_addTip { chains with hits := _ } head bad⟩

/-- A block that is no tip passes the check. -/
theorem check_of_get?_eq_none {check : Hash} (good : chains.tips.get? check = none)
    (chain : Chain) (head : Hash) : chains.check chain check head = (none, chains, []) := by
  simp only [BadChains.check, good]

/-- **What becomes of a payload as far as bad chains are concerned**: the result and the bad chains
afterwards. -/
inductive Judged (config : ChainConfig) (chain : Chain) (request : PayloadRequest)
    (wantWitness : Bool) (chains : BadChains) :
    Except EngineError PayloadStatus → BadChains → Prop where
  | passed {result : Except EngineError PayloadStatus} {chains' : BadChains} :
      chains.Covers chains' →
      (∀ status, result = .ok status → status.validationError ≠ some rejectionText) →
      Judged config chain request wantWitness chains result chains'
  | rejected {block : Block} {bad : Header} {chains' : BadChains} :
      request.payload.toBlock config request.sidecar = .ok block →
      chain.blockByHash? block.hash = none →
      chains.tips.get? block.hash = some bad ∨ chains.tips.get? block.parentHash = some bad →
      chains.Gains chains' block.hash bad →
      Judged config chain request wantWitness chains (.ok (rejection chain bad)) chains'
  | failed {block parent : Block} {error : ChainError} {chains' : BadChains} :
      request.payload.toBlock config request.sidecar = .ok block →
      chain.blockByHash? block.hash = none →
      chain.blockByHash? block.parentHash = some parent →
      chain.hasState block.parentHash = true →
      chain.insert config block wantWitness = .error error →
      chains.Gains chains' block.hash block.header →
      Judged config chain request wantWitness chains
        (.ok (.invalid error.message (some parent.header))) chains'

/-- An answer without a complaint is no rejection. -/
theorem Judged.silent {config : ChainConfig} {request : PayloadRequest} {wantWitness : Bool}
    {status : PayloadStatus} (covers : chains.Covers chains')
    (silent : status.validationError = none) :
    chains.Judged config chain request wantWitness (.ok status) chains' := by
  refine .passed covers (of_eq_ok ?_)
  rw [silent]
  exact (Option.some_ne_none _).symm

theorem Judged.of_covers {config : ChainConfig} {request : PayloadRequest} {wantWitness : Bool}
    {result : Except EngineError PayloadStatus} (first : chains.Covers chains')
    (judged : chains'.Judged config chain request wantWitness result chains'') :
    chains.Judged config chain request wantWitness result chains'' := by
  cases judged with
  | passed covers other => exact .passed (first.trans covers) other
  | rejected converted fresh known gains =>
      exact .rejected converted fresh (known.imp (first _ _) (first _ _)) (first.gains gains)
  | failed converted fresh stored hasState refused gains =>
      exact .failed converted fresh stored hasState refused (first.gains gains)

end BadChains

/-! ### Payloads -/

/-- Neither the payloads that were ordered nor the settings of the builder differ. -/
structure Node.SameOrders (node node' : Node) : Prop where
  miner : node'.miner = node.miner
  payloads : node'.payloads = node.payloads

theorem Node.SameOrders.trans {node node' node'' : Node} (first : node.SameOrders node')
    (second : node'.SameOrders node'') : node.SameOrders node'' :=
  ⟨second.miner.trans first.miner, second.payloads.trans first.payloads⟩

theorem PayloadStatus.validationError_invalid_ne {message : String}
    (other : message.toList.head? ≠ some 'l') (parent : Option Header) :
    (invalid message parent).validationError ≠ some BadChains.rejectionText :=
  fun same => ne_rejectionText_of_head other (Option.some.inj same)

theorem NodeM.checkBadChains_judges (node : Node) (logs : List LogEntry) (check head : Hash) :
    Ensures (checkBadChains check head) node logs fun status node' _ =>
      node.SameChain node' ∧ node.SameOrders node' ∧
        (status = none ∧ node.badChains.Covers node'.badChains ∨
          ∃ bad, node.badChains.tips.get? check = some bad ∧
            status = some (BadChains.rejection node.chain bad) ∧
            node.badChains.Gains node'.badChains head bad) :=
  ⟨⟨rfl, rfl⟩, ⟨rfl, rfl⟩, node.badChains.check_cases node.chain check head⟩

namespace EngineM

open NodeM BadChains

variable {node : Node} {block : Block} {request : PayloadRequest}

theorem delayImport_judges (logs : List LogEntry) (wantWitness : Bool)
    (converted : request.payload.toBlock node.config request.sidecar = .ok block)
    (fresh : node.chain.blockByHash? block.hash = none) :
    Ensures (delayImport block) node logs fun result node' _ => node.SameOrders node' ∧
      node.badChains.Judged node.config node.chain request wantWitness result node'.badChains := by
  simp only [delayImport, ensures_bind, ensures_lift]
  refine (checkBadChains_judges node logs block.parentHash block.hash).mono ?_
  rintro status node' logs' ⟨-, orders, ⟨rfl, covers⟩ | ⟨bad, known, rfl, gains⟩⟩
  · simp only [ensures_bind, ensures_get, rememberHeader, ensures_modify]
    cases node'.downloader.extend node'.chain.syncMode block.header with
    | ok downloader => exact ⟨⟨orders.miner, orders.payloads⟩, .silent covers rfl⟩
    | error e =>
        simp only
        split <;> exact ⟨⟨orders.miner, orders.payloads⟩, .silent covers rfl⟩
  · exact ⟨orders, .rejected converted fresh (.inr known) gains⟩

/-- A block whose execution fails becomes the tip of a bad chain. -/
theorem execute_fails {logs : List LogEntry} {parent : Block} {wantWitness : Bool}
    {error : ChainError} (refused : node.chain.insert node.config block wantWitness = .error error)
    (bounded : error ≠ .overflow) :
    Ensures (execute block parent wantWitness) node logs fun result node' _ =>
      result = .ok (.invalid error.message (some parent.header)) ∧ node.SameChain node' ∧
        node.SameOrders node' ∧ node'.badChains = node.badChains.recordFailure block.header := by
  simp only [execute, ensures_bind, ensures_get]
  split
  · rename_i inserted
    cases refused.symm.trans inserted
  · rename_i unbounded
    cases refused.symm.trans unbounded
    exact absurd rfl bounded
  · rename_i failed
    cases refused.symm.trans failed
    exact ⟨rfl, ⟨rfl, rfl⟩, ⟨rfl, rfl⟩, rfl⟩

theorem execute_judges (logs : List LogEntry) {parent : Block} (wantWitness : Bool)
    (converted : request.payload.toBlock node.config request.sidecar = .ok block)
    (fresh : node.chain.blockByHash? block.hash = none)
    (stored : node.chain.blockByHash? block.parentHash = some parent)
    (hasState : node.chain.hasState block.parentHash = true) :
    Ensures (execute block parent wantWitness) node logs fun result node' _ =>
      node.SameOrders node' ∧
      node.badChains.Judged node.config node.chain request wantWitness result node'.badChains := by
  cases inserted : node.chain.insert node.config block wantWitness with
  | ok result =>
      simp only [execute, ensures_bind, ensures_get, inserted]
      exact ⟨⟨rfl, rfl⟩, .silent (.refl _) rfl⟩
  | error error =>
      by_cases unbounded : error = .overflow
      · simp only [execute, ensures_bind, ensures_get, inserted, unbounded]
        exact ⟨⟨rfl, rfl⟩, .passed (.refl _) of_error_eq_ok⟩
      · refine (execute_fails inserted unbounded).mono ?_
        rintro _ node' _ ⟨rfl, -, orders, recorded⟩
        rw [recorded]
        exact ⟨orders, .failed converted fresh stored hasState inserted
          (gains_recordFailure node.badChains block.header)⟩

theorem importOn_judges (logs : List LogEntry) {parent : Block} (wantWitness : Bool)
    (converted : request.payload.toBlock node.config request.sidecar = .ok block)
    (fresh : node.chain.blockByHash? block.hash = none)
    (stored : node.chain.blockByHash? block.parentHash = some parent) :
    Ensures (importOn block parent wantWitness) node logs fun result node' _ =>
      node.SameOrders node' ∧
      node.badChains.Judged node.config node.chain request wantWitness result node'.badChains := by
  simp only [importOn, ensures_bind, ensures_get]
  split
  · exact ⟨⟨rfl, rfl⟩, .passed (.refl _)
      (of_eq_ok (PayloadStatus.validationError_invalid_ne (by simp) _))⟩
  · split
    · exact delayImport_judges logs wantWitness converted fresh
    · split
      · rename_i hasState
        exact execute_judges logs wantWitness converted fresh stored hasState
      · exact ⟨⟨rfl, rfl⟩, .silent (.refl _) rfl⟩

theorem importBlock_judges (logs : List LogEntry) (wantWitness : Bool)
    (converted : request.payload.toBlock node.config request.sidecar = .ok block) :
    Ensures (importBlock block wantWitness) node logs fun result node' _ =>
      node.SameOrders node' ∧
      node.badChains.Judged node.config node.chain request wantWitness result node'.badChains := by
  simp only [importBlock, ensures_bind, ensures_modify, ensures_get]
  cases fresh : node.chain.blockByHash? block.hash with
  | some known => exact ⟨⟨rfl, rfl⟩, .silent (.refl _) rfl⟩
  | none =>
      simp only [ensures_bind, ensures_lift]
      refine (checkBadChains_judges _ logs block.hash block.hash).mono ?_
      rintro status node' logs' ⟨⟨config, chain⟩, orders, ⟨rfl, covers⟩ | ⟨bad, known, rfl, gains⟩⟩
      · -- The rest happens to a node that may have forgotten some tips.
        rw [show node.config = node'.config from config.symm] at converted ⊢
        rw [show node.chain = node'.chain from chain.symm] at fresh ⊢
        cases stored : node'.chain.blockByHash? block.parentHash with
        | none =>
            refine (delayImport_judges logs' wantWitness converted fresh).mono ?_
            rintro result node'' _ ⟨orders', judged⟩
            exact ⟨.trans ⟨orders.miner, orders.payloads⟩ orders', judged.of_covers covers⟩
        | some parent =>
            refine (importOn_judges logs' wantWitness converted fresh stored).mono ?_
            rintro result node'' _ ⟨orders', judged⟩
            exact ⟨.trans ⟨orders.miner, orders.payloads⟩ orders', judged.of_covers covers⟩
      · exact ⟨⟨orders.miner, orders.payloads⟩, .rejected converted fresh (.inl known) gains⟩

theorem importPayload_judges (node : Node) (logs : List LogEntry) (request : PayloadRequest)
    (wantWitness : Bool) :
    Ensures (importPayload request wantWitness) node logs fun result node' _ =>
      node.SameOrders node' ∧
      node.badChains.Judged node.config node.chain request wantWitness result node'.badChains := by
  simp only [importPayload, ensures_bind, ensures_get]
  split
  · rename_i fault found
    exact ⟨⟨rfl, rfl⟩, .passed (.refl _)
      (of_eq_ok (PayloadStatus.validationError_invalid_ne (extraDataFault_head found) _))⟩
  · cases converted : request.payload.toBlock node.config request.sidecar with
    | error e =>
        exact ⟨⟨rfl, rfl⟩, .passed (.refl _)
          (of_eq_ok (PayloadStatus.validationError_invalid_ne e.message_head _))⟩
    | ok block => exact importBlock_judges logs wantWitness converted

/-- **What a payload does to the bad chains.** -/
theorem newPayload_judges (node : Node) (logs : List LogEntry) (version : NewPayloadVersion)
    (request : PayloadRequest) (wantWitness : Bool) :
    Ensures (newPayload version request wantWitness) node logs fun result node' _ =>
      node.SameOrders node' ∧
      node.badChains.Judged node.config node.chain request wantWitness result node'.badChains := by
  rw [newPayload, ensures_bind, ensures_get]
  dsimp only
  rw [ensures_bind, ensures_liftExcept]
  cases version.check _ node.config request with
  | error e => exact ⟨⟨rfl, rfl⟩, .passed (.refl _) of_error_eq_ok⟩
  | ok _ =>
      dsimp only
      split
      · exact ⟨⟨rfl, rfl⟩, .passed (.refl _) of_error_eq_ok⟩
      · refine ensures_bind.mpr ((importPayload_judges node logs request wantWitness).mono ?_)
        rintro result node' logs ⟨orders, judged⟩
        cases result <;> exact ⟨⟨orders.miner, orders.payloads⟩, judged⟩

/-- A block whose execution fails on its parent becomes the tip of a bad chain. -/
theorem importBlock_fails {logs : List LogEntry} {parent : Block} {wantWitness : Bool}
    {error : ChainError} (fresh : node.chain.blockByHash? block.hash = none)
    (good : node.badChains.tips.get? block.hash = none) (full : node.chain.syncMode = .full)
    (stored : node.chain.blockByHash? block.parentHash = some parent)
    (hasState : node.chain.hasState block.parentHash = true)
    (later : parent.timestamp < block.timestamp)
    (refused : node.chain.insert node.config block wantWitness = .error error)
    (bounded : error ≠ .overflow) :
    Ensures (importBlock block wantWitness) node logs fun result node' _ =>
      result = .ok (.invalid error.message (some parent.header)) ∧ node.SameChain node' ∧
        node'.badChains = node.badChains.recordFailure block.header := by
  have notEarlier : ¬block.timestamp ≤ parent.timestamp := UInt64.not_le.mpr later
  have unchecked := check_of_get?_eq_none good node.chain block.hash
  simp only [importBlock, ensures_bind, ensures_modify, ensures_get, fresh, ensures_lift]
  refine (checkBadChains_ensures _ logs _ _).mono ?_
  rintro status node' logs' ⟨⟨config, chain⟩, badChains, rfl⟩
  simp only [unchecked] at config chain badChains ⊢
  rw [← chain] at stored hasState full
  rw [← chain, ← config] at refused
  simp only [← chain, stored, importOn, ensures_bind, ensures_get, notEarlier, if_false, full,
    hasState, reduceCtorEq, if_true]
  refine (execute_fails refused bounded).mono ?_
  rintro _ node'' _ ⟨rfl, kept, -, recorded⟩
  rw [badChains] at recorded
  exact ⟨rfl, .trans ⟨config, chain⟩ kept, recorded⟩

/-- The tip of a bad chain is rejected, unless it has been hit too often. -/
theorem importBlock_rejects {logs : List LogEntry} {wantWitness : Bool} {bad : Header}
    (fresh : node.chain.blockByHash? block.hash = none)
    (tip : node.badChains.tips.get? block.hash = some bad)
    (few : node.badChains.hitsOf bad.hash + 1 < badBlockHitLimit) :
    Ensures (importBlock block wantWitness) node logs fun result _ _ =>
      result = .ok (rejection node.chain bad) := by
  have checked : (node.badChains.check node.chain block.hash block.hash).1 =
      some (rejection node.chain bad) := by
    simp only [BadChains.check, tip, Nat.not_le.mpr few, if_false, if_true]
  simp only [importBlock, ensures_bind, ensures_modify, ensures_get, fresh, ensures_lift]
  refine (checkBadChains_ensures _ logs _ _).mono ?_
  rintro status node' logs' ⟨-, -, rfl⟩
  simp only [checked]
  rfl

/-- A payload that is accepted and can be converted comes to what its block comes to. -/
theorem newPayload_of_importBlock {logs : List LogEntry} {version : NewPayloadVersion}
    {wantWitness : Bool} {post : Except EngineError PayloadStatus → Node → Prop}
    (accepted : version.check
      (if wantWitness then .newPayloadWithWitness else .newPayload) node.config request = .ok ())
    (ordered : Requests.validate (request.executionRequests.getD []) = .ok ())
    (plain : extraDataFault node.config request.payload = none)
    (converted : request.payload.toBlock node.config request.sidecar = .ok block)
    (imported : Ensures (importBlock block wantWitness) node logs fun result node' _ =>
      (∃ status, result = .ok status) ∧ ∀ change, post result (node'.count change)) :
    Ensures (newPayload version request wantWitness) node logs fun result node' _ =>
      post result node' := by
  simp only [newPayload, ensures_bind, ensures_get, ensures_liftExcept, accepted, ordered,
    importPayload, plain, converted]
  refine imported.mono ?_
  rintro _ node' logs' ⟨⟨status, rfl⟩, holds⟩
  exact holds _

end EngineM

end EngineNode
