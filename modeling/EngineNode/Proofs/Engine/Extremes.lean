import EngineNode.Proofs.Engine.Stateless
import EngineNode.Proofs.Execution
import EngineNode.Proofs.Payload.Inverse

/-!
Stateless execution at the extremes.

Payload and witness of a stateless execution both come from the caller, and no chain ties them
together. Every slice that is taken of them exists, and every sum and product of the execution fits,
but for two things: a witness may have a parent of the last number there is, and a payload may be
too large for its gas to be counted.

* `StatelessStatus.checked?`: the status of a payload with all of these operations checked, which
  hangs on the execution alone (`StatelessStatus.checked?_eq`).
* `Node.answer_executeStateless`: what the method answers with.
* `Node.executeStateless_checked`: where the answer is a status, and that nothing stops on the way.
* `LastNumber.payload_stops`: a payload whose parent has the last number stops the node.
-/

namespace EngineNode

open Checked

/-! ### Statuses -/

/-- What an outcome says of a block. -/
def StatelessOutcome.verdict (outcome : StatelessOutcome) (block : Block) : StatelessStatus :=
  let fault :=
    if outcome.stateRoot ≠ block.header.stateRoot then some "state root mismatch"
    else if outcome.receiptsRoot ≠ block.header.receiptsRoot then some "receipts root mismatch"
    else none
  { status := if fault.isSome then .invalid else .valid
    stateRoot := outcome.stateRoot
    receiptsRoot := outcome.receiptsRoot
    validationError := fault }

/-- The status of a payload, with every slice, every sum and every product checked on the way to
it. -/
def StatelessStatus.checked? (config : ChainConfig) (request : PayloadRequest) (witness : Bytes) :
    Option StatelessStatus := do
  match ← (request.payload.toBlockChecked config request.sidecar).run with
  | .error error => return .invalid error.message
  | .ok block =>
    match ← (Witness.decodeChecked witness).run with
    | .error error => return .invalid error.message
    | .ok witness =>
      match ← (executeStatelessChecked block witness).run with
      | .error error => return .invalid error.message
      | .ok outcome => return outcome.verdict block

/-- Conversion and the reading of the witness do not stop, so the status hangs on the execution. -/
theorem StatelessStatus.checked?_eq (config : ChainConfig) (request : PayloadRequest)
    (witness : Bytes) : checked? config request witness =
      match request.payload.toBlockUnchecked config request.sidecar with
      | .error error => some (.invalid error.message)
      | .ok block =>
        match Witness.decode witness with
        | .error error => some (.invalid error.message)
        | .ok witness => (executeStatelessChecked block witness).run.map fun
          | .error error => .invalid error.message
          | .ok outcome => outcome.verdict block := by
  have converts : (request.payload.toBlockChecked config request.sidecar).run = some _ :=
    Payload.toBlockChecked_agrees config request.payload request.sidecar
  have reads : (Witness.decodeChecked witness).run = some _ := Witness.decodeChecked_agrees witness
  unfold checked?
  rw [converts, Option.bind_eq_bind, Option.bind_some]
  cases request.payload.toBlockUnchecked config request.sidecar with
  | error e => rfl
  | ok block =>
      dsimp only
      rw [reads, Option.bind_eq_bind, Option.bind_some]
      cases Witness.decode witness with
      | error e => rfl
      | ok decoded =>
          dsimp only
          cases (executeStatelessChecked block decoded).run with
          | none => rfl
          | some ended => cases ended <;> rfl

/-- A status is one of two. -/
def StatelessStatus.Decides (status : StatelessStatus) : Prop :=
  status.status = .valid ∨ status.status = .invalid

theorem StatelessOutcome.decides_verdict (outcome : StatelessOutcome) (block : Block) :
    (outcome.verdict block).Decides := by
  unfold StatelessStatus.Decides verdict
  dsimp only
  generalize (if outcome.stateRoot ≠ block.header.stateRoot then some "state root mismatch"
    else if outcome.receiptsRoot ≠ block.header.receiptsRoot then some "receipts root mismatch"
    else none) = fault
  cases fault with
  | none => exact .inl rfl
  | some _ => exact .inr rfl

/-- The payload can be converted and the witness can be read, and the parent that it has for the
block has the last number. -/
def PayloadRequest.FollowsLast (request : PayloadRequest) (config : ChainConfig)
    (witness : Bytes) : Prop :=
  ∃ block decoded, request.payload.toBlockUnchecked config request.sidecar = .ok block ∧
    Witness.decode witness = .ok decoded ∧ block.FollowsLast decoded

/-- A payload is small enough for its gas to be counted: less than `2 ^ 48` transactions of less
than `2 ^ 59` bytes together, sent with less than `2 ^ 46` blob hashes. -/
structure PayloadRequest.Countable (request : PayloadRequest) : Prop where
  size : (request.payload.transactions.map List.length).sum < 2 ^ 59
  count : request.payload.transactions.length < 2 ^ 48
  blobs : (request.versionedHashes.getD []).length < 2 ^ 46

/-! ### Sizes -/

namespace Payload

/-- A transaction has no more blob hashes than all of them together. -/
theorem length_le_of_blobHashes {transactions : List Transaction} {index : Nat}
    {all own : List Hash} (collected : blobHashes index transactions = .ok all)
    {tx : Transaction} (member : tx ∈ transactions) (told : tx.blobVersionedHashes = .ok own) :
    own.length ≤ all.length := by
  induction transactions generalizing index all with
  | nil => cases member
  | cons first rest ih =>
      rw [blobHashes] at collected
      cases first_ : first.blobVersionedHashes with
      | error e => simp [first_] at collected
      | ok hashes =>
          simp only [first_] at collected
          obtain ⟨others, left, listed⟩ := bind_eq_ok_iff.mp collected
          cases listed
          rw [List.length_append]
          rcases List.mem_cons.mp member with rfl | member
          · cases told.symm.trans first_
            exact Nat.le_add_right _ _
          · exact (ih left member).trans (Nat.le_add_left _ _)

end Payload

/-- A payload that is small enough describes a block that is. -/
theorem PayloadRequest.Countable.block {request : PayloadRequest} {config : ChainConfig}
    {block : Block} (countable : request.Countable)
    (converted : request.payload.toBlockUnchecked config request.sidecar = .ok block) :
    block.Countable := by
  have describes := Payload.toBlockUnchecked_eq_ok_iff.mp converted
  have bytes : block.transactions.map Transaction.bytes = request.payload.transactions :=
    Payload.map_bytes_of_decodeTransactions describes.transactions
  obtain ⟨hashes, collected, checked⟩ := describes.blobHashes
  constructor
  case size =>
    have sizes : (block.transactions.map fun tx => tx.bytes.length) =
        request.payload.transactions.map List.length := by
      rw [← bytes, List.map_map]
      rfl
    rw [sizes]
    exact countable.size
  case count =>
    have count := countable.count
    rwa [← bytes, List.length_map] at count
  case blobs =>
    intro tx member own told
    have given : hashes.length = (request.versionedHashes.getD []).length :=
      Payload.length_eq_of_checkVersionedHashes checked
    exact (Payload.length_le_of_blobHashes collected member told).trans_lt (given ▸ countable.blobs)

/-! ### Answers -/

namespace Node

variable {node : Node} {version : NewPayloadVersion} {request : PayloadRequest} {witness : Bytes}

/-- **What the method answers with.** -/
theorem answer_executeStateless
    (accepted : version.check .executeStateless node.config request = .ok ()) :
    (node.answer (.executeStatelessPayload version request witness)).1 =
      match request.payload.toBlockUnchecked node.config request.sidecar with
      | .error error => .ok (.invalid error.message)
      | .ok block =>
        match Witness.decode witness with
        | .error error => .ok (.invalid error.message)
        | .ok witness =>
          match executeStateless block witness with
          | .ok outcome => .ok (outcome.verdict block)
          | .error .overflow => .error .overflow
          | .error error => .ok (.invalid error.message) := by
  suffices answered : EngineM.Ensures
      (EngineM.executeStatelessPayload version request witness) node [] fun result _ _ =>
        result = _ from answered
  simp only [EngineM.executeStatelessPayload, EngineM.ensures_bind, EngineM.ensures_get,
    EngineM.ensures_liftExcept, accepted]
  cases request.payload.toBlockUnchecked node.config request.sidecar with
  | error e => rfl
  | ok block =>
      dsimp only
      cases Witness.decode witness with
      | error e => rfl
      | ok decoded =>
          have verified : EngineM.verifyStateless block decoded =
              (executeStateless block decoded).map (·.verdict block) := rfl
          simp only [EngineM.ensures_bind, EngineM.ensures_modify, verified]
          cases executeStateless block decoded with
          | ok outcome => rfl
          | error e => cases e <;> rfl

/-- **With a parent of the last number the method stops**, and so does the checked execution. -/
theorem answer_of_followsLast
    (accepted : version.check .executeStateless node.config request = .ok ())
    (last : request.FollowsLast node.config witness) :
    StatelessStatus.checked? node.config request witness = none ∧
      (node.answer (.executeStatelessPayload version request witness)).1 = .error .overflow := by
  obtain ⟨block, decoded, converted, read, last⟩ := last
  obtain ⟨stops, overflows⟩ := executeStatelessChecked_stops last
  rw [StatelessStatus.checked?_eq, answer_executeStateless accepted, converted]
  simp only [read, stops, overflows, Option.map_none, and_self]

/-- **With any other parent it comes to a status**, the one of the checked execution. -/
theorem answer_of_not_followsLast
    (accepted : version.check .executeStateless node.config request = .ok ())
    (countable : request.Countable) (notLast : ¬ request.FollowsLast node.config witness) :
    ∃ status, StatelessStatus.checked? node.config request witness = some status ∧
      (node.answer (.executeStatelessPayload version request witness)).1 = .ok status ∧
      status.Decides := by
  rw [StatelessStatus.checked?_eq, answer_executeStateless accepted]
  cases converted : request.payload.toBlockUnchecked node.config request.sidecar with
  | error e => exact ⟨_, rfl, rfl, .inr rfl⟩
  | ok block =>
      cases read : Witness.decode witness with
      | error e => exact ⟨_, rfl, rfl, .inr rfl⟩
      | ok decoded =>
          have other : ¬ block.FollowsLast decoded := fun last =>
            notLast ⟨block, decoded, converted, read, last⟩
          obtain ⟨agrees, noOverflow⟩ :=
            executeStatelessChecked_agrees (countable.block converted) other
          have executed : (executeStatelessChecked block decoded).run = some _ := agrees
          dsimp only
          rw [executed]
          cases ended : executeStateless block decoded with
          | ok outcome => exact ⟨_, rfl, rfl, outcome.decides_verdict block⟩
          | error e =>
              refine ⟨.invalid e.message, rfl, ?_, .inr rfl⟩
              cases e with
              | overflow => exact absurd ended noOverflow
              | _ => rfl

/-- **The answer to a stateless execution is a status, unless its parent has the last number**: then
it stops. The request is one that the version of the method accepts, and small enough for its gas to
be counted; the payload and the witness may hold anything. With slices, sums and products checked
the status is the same, so that nothing else stops on the way. -/
theorem executeStateless_checked (node : Node) (version : NewPayloadVersion)
    (request : PayloadRequest) (witness : Bytes)
    (accepted : version.check .executeStateless node.config request = .ok ())
    (countable : request.Countable) :
    let answer := (node.answer (.executeStatelessPayload version request witness)).1
    (request.FollowsLast node.config witness →
      StatelessStatus.checked? node.config request witness = none ∧
        answer = .error .overflow) ∧
    (¬ request.FollowsLast node.config witness →
      ∃ status, StatelessStatus.checked? node.config request witness = some status ∧
        answer = .ok status ∧ status.Decides) :=
  ⟨answer_of_followsLast accepted, answer_of_not_followsLast accepted countable⟩

end Node

/-! ### The last number -/

namespace LastNumber

open Siblings

/-- The first block on a new chain, with a witness for it, is executed to a status. -/
theorem first_decided :
    let request : PayloadRequest := { payload := .ofBlock {} first }
    NewPayloadVersion.check .v1 .executeStateless {} request = .ok () ∧ request.Countable ∧
    ∃ status, ((Node.new {}).answer
        (.executeStatelessPayload .v1 request genesisWitness.encode)).1 = .ok status ∧
      status.Decides := by
  intro request
  have accepted : NewPayloadVersion.check .v1 .executeStateless {} request = .ok () := rfl
  have countable : request.Countable := ⟨by decide, by decide, by decide⟩
  refine ⟨accepted, countable, ?_⟩
  have read : Witness.decode genesisWitness.encode = .ok genesisWitness.filled :=
    Witness.decode_encode (Witness.length_contents_lt (by decide) (FixedBytes.length_toList _).le)
  have notLast : ¬ request.FollowsLast {} genesisWitness.encode := by
    rintro ⟨block, decoded, -, read', parent, found, -, last⟩
    cases read.symm.trans read'
    have member := List.mem_of_find?_eq_some found
    cases List.mem_singleton.mp member
    exact absurd last (by decide)
  obtain ⟨status, -, answered, decides⟩ := ((Node.new {}).executeStateless_checked .v1 request
    genesisWitness.encode accepted countable).2 notLast
  exact ⟨status, answered, decides⟩

/-- A header with the last number. -/
def parent : Header := { number := UInt64.ofNat (UInt64.size - 1) }

/-- A block on top of it, whose number wraps around. -/
def block : Block where
  header := {
    parentHash := parent.hash
    transactionsRoot := Transaction.root []
    number := 0
    baseFeePerGas := some 0 }
  body := {}

/-- A witness that has the parent and a node for its state. -/
def witness : Witness := { headers := [parent], state := [parent.stateRoot.toList] }

theorem block_followsLast : block.FollowsLast witness.filled := by
  have named : parent.filled.hash = block.parentHash := parent.hash_filled
  refine ⟨parent.filled, ?_, List.mem_singleton_self _, by decide +kernel⟩
  exact List.find?_cons_of_pos (decide_eq_true named)

/-- **A payload whose parent has the last number stops the node**, although the version of the
method accepts it and it has no transactions at all. -/
theorem payload_stops :
    NewPayloadVersion.check .v1 .executeStateless {} { payload := .ofBlock {} block } = .ok () ∧
    (Payload.ofBlock {} block).transactions = [] ∧
    ((Node.new {}).answer (.executeStatelessPayload .v1 { payload := .ofBlock {} block }
      witness.encode)).1 = .error .overflow := by
  refine ⟨rfl, rfl, ?_⟩
  have travels : block.Travels {} {} :=
    { ommersHash := rfl
      difficulty := rfl
      nonce := rfl
      extraData := Nat.zero_le _
      baseFee := rfl
      transactionsRoot := rfl
      withdrawalsRoot := fun _ => rfl
      isthmus := nofun
      beaconRoot := rfl
      requestsHash := rfl
      blobHashes := rfl }
  have converted : (Payload.ofBlock {} block).toBlockUnchecked {} {} = .ok block :=
    Payload.toBlockUnchecked_eq_ok_iff.mpr (Payload.describes_ofBlock travels)
  have read : Witness.decode witness.encode = .ok witness.filled :=
    Witness.decode_encode (Witness.length_contents_lt (by decide) (FixedBytes.length_toList _).le)
  have accepted : NewPayloadVersion.check .v1 .executeStateless (Node.new {}).config
      { payload := .ofBlock {} block } = .ok () := rfl
  exact (Node.answer_of_followsLast accepted
    ⟨block, witness.filled, converted, read, block_followsLast⟩).2

end LastNumber

end EngineNode
