import EngineNode.Proofs.Engine.Admission
import EngineNode.Proofs.Engine.Verdict

/-!
Valid payloads stay valid.

Nothing that happens to a node or to its chain takes a block out of the store, and whether a block
is stored is asked before anything else. So a payload that was valid once is valid whenever it is
sent again: neither the list of bad chains nor the sync mode is looked at, and nothing is executed.

* `Node.act_blocks`: an action adds at most one block to the store, under the hash of the block.
* `EngineM.newPayloadWith`: the program for payloads, with another one for blocks that are unknown.
* `Node.valid_again`: what becomes of a payload that is sent again.
* `Node.imports_once`: no hash is imported twice.
-/

namespace EngineNode

/-! ### What stays stored -/

namespace Chain

variable {config : ChainConfig} {chain chain' : Chain} {hash : Hash} {block : Block}

/-- Blocks are stored under their hashes. -/
def Keyed (chain : Chain) : Prop :=
  ∀ hash block, chain.blockByHash? hash = some block → block.hash = hash

theorem keyed_new (config : ChainConfig) : (Chain.new config).Keyed := by
  intro hash block stored
  obtain ⟨rfl, rfl⟩ := lookup_new stored
  rfl

/-- The store is the same, or it has one more block, in front of the others. -/
def Adds (chain chain' : Chain) : Prop :=
  chain'.blocks = chain.blocks ∨ ∃ block, chain'.blocks = (block.hash, block) :: chain.blocks

/-- Operations add at most one block. -/
theorem adds_perform (config : ChainConfig) (chain : Chain) (operation : Operation) :
    chain.Adds (chain.perform config operation) := by
  cases operation with
  | insertWithoutState block => exact .inr ⟨block, rfl⟩
  | insert block wantWitness =>
      cases inserted : chain.insert config block wantWitness with
      | error e =>
          simp only [perform, inserted]
          exact .inl rfl
      | ok result =>
          obtain ⟨_, _, _, _, _, _, _, same, _⟩ := insert_eq_ok_iff.mp inserted
          simp only [perform, inserted, same]
          exact .inr ⟨block, rfl⟩
  | setCanonical block =>
      cases moved : chain.setCanonical block.hash with
      | error e =>
          simp only [perform, moved]
          exact .inl rfl
      | ok result =>
          obtain ⟨_, _, _, _, _, _, same⟩ := setCanonical_eq_ok moved
          simp only [perform, moved, same]
          exact .inl rfl
  | setSafe header => exact .inl rfl
  | setFinalized header => exact .inl rfl

/-- What is found in a store with one more block is this block or was found before. -/
theorem Adds.lookup (adds : chain.Adds chain') (hash : Hash) :
    chain'.blockByHash? hash = chain.blockByHash? hash ∨
      ∃ block, block.hash = hash ∧ chain'.blockByHash? hash = some block := by
  unfold blockByHash?
  rcases adds with same | ⟨block, added⟩
  · rw [same]
    exact .inl rfl
  · rw [added, show (block.hash, block) :: chain.blocks = (chain.insertWithoutState block).blocks
      from rfl, lookup_insertWithoutState]
    by_cases own : hash = block.hash
    · exact .inr ⟨block, own.symm, if_pos own⟩
    · exact .inl (if_neg own)

theorem Adds.keyed (adds : chain.Adds chain') (keyed : chain.Keyed) : chain'.Keyed := by
  intro hash block stored
  rcases adds.lookup hash with same | ⟨added, own, found⟩
  · exact keyed hash block (same ▸ stored)
  · cases found.symm.trans stored
    exact own

/-- A hash that is taken stays taken. -/
theorem Adds.stored (adds : chain.Adds chain') (stored : chain.blockByHash? hash = some block) :
    ∃ again, chain'.blockByHash? hash = some again := by
  rcases adds.lookup hash with same | ⟨added, -, found⟩
  · exact ⟨block, same.trans stored⟩
  · exact ⟨added, found⟩

end Chain

namespace Node

variable {node : Node} {hash : Hash} {block : Block}

/-- **Whatever happens adds at most one block to the store.** -/
theorem adds_act (node : Node) (action : Action) : node.chain.Adds (node.act action).chain := by
  cases action with
  | operation operation => exact Chain.adds_perform node.config node.chain operation
  | event event =>
      rcases node.after_store event with ⟨same, -⟩ | ⟨block, _, _, -, -, inserted⟩
      · exact .inl same
      · obtain ⟨_, _, _, _, _, _, _, same, _⟩ := Chain.insert_eq_ok_iff.mp inserted
        refine .inr ⟨block, ?_⟩
        rw [show node.act (.event event) = node.after event from rfl, same]
        rfl

theorem keyed_actAll (keyed : node.chain.Keyed) (actions : List Action) :
    (node.actAll actions).chain.Keyed := by
  induction actions using List.reverseRecOn with
  | nil => exact keyed
  | append_singleton actions action ih =>
      rw [actAll_concat]
      exact (adds_act _ action).keyed ih

/-- A hash that is taken stays taken, whatever happens. -/
theorem stored_actAll (stored : node.chain.blockByHash? hash = some block)
    (actions : List Action) :
    ∃ again, (node.actAll actions).chain.blockByHash? hash = some again := by
  induction actions using List.reverseRecOn with
  | nil => exact ⟨block, stored⟩
  | append_singleton actions action ih =>
      obtain ⟨between, stored⟩ := ih
      rw [actAll_concat]
      exact (adds_act _ action).stored stored

end Node

/-! ### Payloads of stored blocks -/

namespace EngineM

open NodeM

/-- What is done with a block that is not stored: it is rejected if it belongs to a bad chain, put
off, or executed. -/
def importUnknown (chain : Chain) (block : Block) (wantWitness : Bool) : EngineM PayloadStatus := do
  if let some status ← checkBadChains block.hash block.hash then return status
  match chain.blockByHash? block.parentHash with
  | none => delayImport block
  | some parent => importOn block parent wantWitness

/-- Imports the block of a payload with a program for blocks that are not stored. -/
def importBlockWith (unknown : Chain → Block → Bool → EngineM PayloadStatus) (block : Block)
    (wantWitness : Bool) : EngineM PayloadStatus := do
  modify fun node => { node with activity := { node.activity with newPayload := some node.clock } }
  let chain := (← get).chain
  match chain.blockByHash? block.hash with
  | some known =>
    logWithHead .warn ("Ignoring already known beacon payload (" ++
      blockText known.number known.hash ++ ")")
    return .valid known.hash
  | none => unknown chain block wantWitness

/-- Imports a payload with a program for blocks that are not stored. -/
def importPayloadWith (unknown : Chain → Block → Bool → EngineM PayloadStatus)
    (request : PayloadRequest) (wantWitness : Bool) : EngineM PayloadStatus := do
  let config := (← get).config
  let payload := request.payload
  match extraDataFault config payload with
  | some fault => return .invalid fault none
  | none =>
    match payload.toBlock config request.sidecar with
    | .error error =>
      logWithHead .warn ("Invalid NewPayload params (" ++
        blockText payload.blockNumber payload.blockHash ++ "): " ++ error.message)
      return .invalid error.message none
    | .ok block => importBlockWith unknown block wantWitness

/-- The method for payloads with a program for blocks that are not stored. -/
def newPayloadWith (unknown : Chain → Block → Bool → EngineM PayloadStatus)
    (version : NewPayloadVersion) (request : PayloadRequest) (wantWitness : Bool) :
    EngineM PayloadStatus := do
  let method := if wantWitness then PayloadMethod.newPayloadWithWitness else .newPayload
  version.check method (← get).config request
  match Requests.validate (request.executionRequests.getD []) with
  | .error error => throw (.invalidParams error.message)
  | .ok _ =>
    let status ← importPayloadWith unknown request wantWitness
    count fun m => { m with payloadStatuses := m.payloadStatuses.add status.status.name }
    return status

/-- This is how payloads are imported. -/
theorem newPayloadWith_importUnknown (version : NewPayloadVersion) (request : PayloadRequest)
    (wantWitness : Bool) :
    newPayloadWith importUnknown version request wantWitness =
      newPayload version request wantWitness := rfl

variable {node : Node} {logs : List LogEntry} {version : NewPayloadVersion}
  {request : PayloadRequest} {wantWitness : Bool} {block old : Block}

/-- What the payload of a stored block leaves: the time of the call, and a count of the answer. -/
def leftByKnown (node : Node) : Node :=
  Node.count { node with activity := { node.activity with newPayload := some node.clock } } fun m =>
    { m with payloadStatuses := m.payloadStatuses.add PayloadVerdict.valid.name }

/-- **Whether the block of a payload is stored is asked first.** If it is, the program for other
blocks is not reached: the answer, the node and the log are the same with every such program. -/
theorem exec_newPayloadWith_known (unknown : Chain → Block → Bool → EngineM PayloadStatus)
    (presents : request.Presents version node.config wantWitness block)
    (stored : node.chain.blockByHash? block.hash = some old) :
    NodeM.exec (newPayloadWith unknown version request wantWitness).run node =
      (.ok (.valid old.hash), leftByKnown node, [⟨.warn, node.report.mark
        ("Ignoring already known beacon payload (" ++ blockText old.number old.hash ++ ")")⟩]) := by
  have known : Ensures (newPayloadWith unknown version request wantWitness) node []
      fun result node' logs => (result, node', logs) = (.ok (.valid old.hash), leftByKnown node,
        [⟨.warn, node.report.mark ("Ignoring already known beacon payload (" ++
          blockText old.number old.hash ++ ")")⟩]) := by
    simp only [newPayloadWith, ensures_bind, ensures_get, ensures_liftExcept, presents.accepted,
      presents.ordered, importPayloadWith, presents.plain, presents.converted, importBlockWith,
      ensures_modify, stored]
    rfl
  exact known

end EngineM

namespace Node

/-- A payload that was answered with a status is sent again. It is valid with the same hash, no
witness comes along, the chain and the list of bad chains stay as they are, and no program for
blocks that are not stored is reached, the one that executes and inserts them included. -/
structure Repeats (node : Node) (version : NewPayloadVersion) (request : PayloadRequest)
    (wantWitness : Bool) (status : PayloadStatus) : Prop where
  answered : ∃ again, (node.answer (.newPayload version request wantWitness)).1 = .ok again ∧
    again.status = .valid ∧ again.latestValidHash = status.latestValidHash ∧ again.witness = none
  chain : (node.answer (.newPayload version request wantWitness)).2.chain = node.chain
  badChains : (node.answer (.newPayload version request wantWitness)).2.badChains = node.badChains
  notImported : ∀ unknown,
    NodeM.exec (EngineM.newPayloadWith unknown version request wantWitness).run node =
      NodeM.exec (EngineM.newPayload version request wantWitness).run node

/-- An event imports a block of a hash: insertion accepts the block, and the event leaves the chain
that insertion comes to. -/
def Imports (node : Node) (event : Event) (hash : Hash) : Prop :=
  ∃ block wantWitness witness, block.hash = hash ∧
    node.chain.insert node.config block wantWitness = .ok ((node.after event).chain, witness)

variable {node : Node} {version : NewPayloadVersion} {request : PayloadRequest}
  {wantWitness : Bool} {block old : Block} {status : PayloadStatus} {event : Event} {hash : Hash}

/-- A payload that is valid is named as the newest valid block. -/
theorem latestValidHash_of_valid (keyed : node.chain.Keyed)
    (presents : request.Presents version node.config wantWitness block)
    (answered : (node.answer (.newPayload version request wantWitness)).1 = .ok status)
    (valid : status.status = .valid) : status.latestValidHash = some block.hash := by
  rcases cases_of_valid presents answered valid with ⟨old, stored, named, -⟩ | ⟨named, -⟩
  · rw [named, keyed _ _ stored]
  · exact named

/-- What is repeated of a payload whose block is stored. -/
theorem repeats_of_stored (presents : request.Presents version node.config wantWitness block)
    (stored : node.chain.blockByHash? block.hash = some old)
    (same : status.latestValidHash = some old.hash) :
    node.Repeats version request wantWitness status := by
  have run (unknown : Chain → Block → Bool → EngineM PayloadStatus) :=
    EngineM.exec_newPayloadWith_known unknown presents stored
  have own := run EngineM.importUnknown
  rw [EngineM.newPayloadWith_importUnknown] at own
  have answer : node.answer (.newPayload version request wantWitness) =
      (.ok (.valid old.hash), EngineM.leftByKnown node) :=
    congrArg (fun run => (run.1, run.2.1)) own
  constructor
  · rw [answer]
    exact ⟨_, rfl, rfl, same.symm, rfl⟩
  · rw [answer]
    rfl
  · rw [answer]
    rfl
  · intro unknown
    rw [run unknown, own]

/-- A payload that is valid on a node that stores blocks under their hashes is so later. -/
theorem repeats_later (keyed : node.chain.Keyed)
    (answered : (node.answer (.newPayload version request wantWitness)).1 = .ok status)
    (valid : status.status = .valid) (later : List Action) :
    ((node.answer (.newPayload version request wantWitness)).2.actAll later).Repeats version request
      wantWitness status := by
  obtain ⟨block, presents⟩ := presents_of_valid ⟨status, answered, valid⟩
  obtain ⟨_, stored⟩ := stored_of_valid presents ⟨status, answered, valid⟩
  have named := latestValidHash_of_valid keyed presents answered valid
  have adds := node.adds_act (.event (.call (.newPayload version request wantWitness)))
  obtain ⟨again, stored'⟩ := stored_actAll stored later
  have keyed' := keyed_actAll (adds.keyed keyed) later _ _ stored'
  have config := (actAll_config _ later).trans
    (node.answer_newPayload version request wantWitness).1
  rw [← config] at presents
  exact repeats_of_stored presents stored' (named.trans (congrArg some keyed'.symm))

/-- **An imported hash was free before and is taken afterwards.** -/
theorem Imports.stored (imports : node.Imports event hash) :
    node.chain.blockByHash? hash = none ∧
      ∃ block, (node.after event).chain.blockByHash? hash = some block := by
  obtain ⟨block, wantWitness, witness, rfl, inserted⟩ := imports
  obtain ⟨_, _, _, _, _, _, _, added, _⟩ := Chain.insert_eq_ok_iff.mp inserted
  have found : (node.after event).chain.blockByHash? block.hash = some block := by
    rw [added, Chain.blockByHash?_withBlock, if_pos rfl]
  refine ⟨?_, block, found⟩
  rcases node.after_store event with ⟨same, -⟩ | ⟨other, _, _, -, fresh, inserted'⟩
  · -- Insertion makes the store longer.
    have longer := congrArg (fun chain => chain.blocks.length) added
    simp [same, Chain.withBlock, Chain.insertWithoutState] at longer
  · obtain ⟨_, _, _, _, _, _, _, added', _⟩ := Chain.insert_eq_ok_iff.mp inserted'
    have heads := congrArg Chain.blocks (added.symm.trans added')
    simp only [Chain.withBlock, Chain.insertWithoutState, List.cons.injEq, Prod.mk.injEq] at heads
    obtain ⟨⟨hashes, -⟩, -⟩ := heads
    rw [hashes]
    exact fresh

/-- A hash that was imported is not imported again. -/
theorem not_imports_again (imports : node.Imports event hash) (between : List Event)
    (second : Event) : ¬((node.after event).run between).Imports second hash := by
  intro again
  obtain ⟨block, stored⟩ := imports.stored.2
  cases (Node.run_blockByHash? _ between stored).symm.trans again.stored.1

/-- **What was valid once is valid for ever**, whatever has happened to the node and to its chain
before and whatever happens later: bad blocks that are reported, choices of other heads, changes of
the sync mode, and blocks that others store. And no run of a node imports a hash twice. -/
theorem valid_again (node : Node) (before : List Action) :
    let now := node.fresh.actAll before
    (∀ version request wantWitness status,
      (now.answer (.newPayload version request wantWitness)).1 = .ok status →
      status.status = .valid → ∀ later : List Action,
        ((now.answer (.newPayload version request wantWitness)).2.actAll later).Repeats
          version request wantWitness status) ∧
    ∀ events first between second hash, (now.run events).Imports first hash →
      ¬(now.run (events ++ first :: between)).Imports second hash := by
  intro now
  constructor
  · intro version request wantWitness status answered valid later
    exact repeats_later (keyed_actAll (Chain.keyed_new node.config) before) answered valid later
  · intro events first between second hash imports
    rw [run_append, run_cons]
    exact not_imports_again imports between second

end Node

namespace Siblings

/-- The payload of the first block. -/
def firstRequest : PayloadRequest := { payload := .ofBlock {} first }

theorem firstRequest_presents : firstRequest.Presents .v1 {} false first :=
  .of_emptyChild (by decide +kernel) rfl rfl

theorem first_inserted (wantWitness : Bool) : ∃ witness,
    (Chain.new {}).insert {} first wantWitness = .ok ((Chain.new {}).withBlock first, witness) := by
  have room : genesis.number.toNat + 1 < UInt64.size := by decide
  have later : genesis.timestamp < 12 := by decide
  have fee : (nextBaseFee {} genesis.header 12).isSome := by decide +kernel
  have inserted : ∃ witness,
      (Chain.new {}).insert {} (.emptyChild {} genesis 12) wantWitness = _ :=
    Chain.insert_emptyChild genesis_hasState genesis_stored room later fee
  exact inserted

/-- On a new chain the first block is valid. -/
theorem firstRequest_validates : (Node.new {}).Validates .v1 firstRequest false := by
  obtain ⟨witness, inserted⟩ := first_inserted false
  have presents : firstRequest.Presents .v1 (Node.new {}).config false first :=
    firstRequest_presents
  exact Node.validates_of_insert presents first_fresh rfl rfl inserted

/-- The downloader reports the first block, the node turns to snap sync, and the second block is
stored from elsewhere. -/
def unsettled : List Action :=
  [.event (.badBlock ⟨first.header, first.header⟩), .event (.setSyncMode .snap),
    .operation (.insertWithoutState second)]

theorem first_valid_again :
    (∃ status, ((Node.new {}).answer (.newPayload .v1 firstRequest false)).1 = .ok status ∧
      (((Node.new {}).answer (.newPayload .v1 firstRequest false)).2.actAll unsettled).Repeats
        .v1 firstRequest false status) ∧
    (Node.new {}).Imports (.payload {} first) first.hash ∧
    ¬((Node.new {}).run [.payload {} first, .payload {} second]).Imports (.payload {} first)
      first.hash := by
  obtain ⟨repeats, once⟩ := Node.valid_again (Node.new {}) []
  obtain ⟨status, answered, valid⟩ := firstRequest_validates
  obtain ⟨witness, inserted⟩ := first_inserted false
  have imports : (Node.new {}).Imports (.payload {} first) first.hash := by
    refine ⟨first, false, witness, rfl, ?_⟩
    have start : (Node.new {}).chain = Chain.new {} := rfl
    have after : ((Node.new {}).after (.payload {} first)).chain = (Chain.new {}).withBlock first :=
      (Node.after_payload_emptyChild rfl start rfl rfl genesis_hasState genesis_stored first_fresh
        (by decide) (by decide) (by decide +kernel) rfl rfl).2.1
    rw [after]
    exact inserted
  exact ⟨⟨status, answered, repeats _ _ _ status answered valid unsettled⟩, imports,
    once [] _ [.payload {} second] _ _ imports⟩

end Siblings

end EngineNode
