import EngineNode.Engine.Import
import EngineNode.Proofs.Build.Replay
import EngineNode.Proofs.FeeMarket
import EngineNode.Proofs.Payload.RoundTrip

/-!
Built payloads that are sent back.

A payload that was built is handed out in an envelope. Sent back to the node, its parts go to the
version of the method that belongs to its fork. A built block has all that its forks ask for, but
not only that: it may carry extra data, withdrawals or blobs that are not accepted back.

* `Generator.Generated.fitsForks`: what a built block has, fork by fork.
* `Envelope.HasParts.check_eq_ok`: the version of the method accepts its parts.
* `BuiltBlock.FitsForks.toBlock_request`, `BuiltBlock.FitsForks.returns_of_toBlock`: the block comes
  back exactly under the rules of `Payload.Returns`.
-/

namespace EngineNode

/-! ### Sending back -/

/-- The version of the method for the payloads of a fork. -/
def NewPayloadVersion.ofFork : Fork → NewPayloadVersion
  | .paris => .v1
  | .shanghai => .v2
  | .cancun => .v3
  | .prague | .osaka => .v4

/-- The blob hashes of the transactions of a payload. -/
def Payload.ownBlobHashes (p : Payload) : Except ConversionError (List Hash) := do
  blobHashes 0 (← decodeTransactions 0 p.transactions)

/-- The request that sends an envelope back, with those of its parts for which the version has a
parameter. -/
def Envelope.request (envelope : Envelope) (version : NewPayloadVersion) (hashes : List Hash) :
    PayloadRequest :=
  match version with
  | .v1 | .v2 => { payload := envelope.payload }
  | .v3 => {
      payload := envelope.payload
      versionedHashes := some hashes
      beaconRoot := envelope.parentBeaconBlockRoot }
  | .v4 => {
      payload := envelope.payload
      versionedHashes := some hashes
      beaconRoot := envelope.parentBeaconBlockRoot
      executionRequests := envelope.executionRequests }

@[simp] theorem Envelope.request_payload (envelope : Envelope) (version : NewPayloadVersion)
    (hashes : List Hash) : (envelope.request version hashes).payload = envelope.payload := by
  cases version <;> rfl

/-- What is asked of a payload that is sent back, beyond what its forks ask of it when it is built:
rollup chains have no extra data before Holocene, there are no withdrawals since Isthmus, and no
blobs before Cancun. -/
structure Payload.Returns (config : ChainConfig) (p : Payload) (hashes : List Hash) : Prop where
  extraData : config.isRollup = true → config.isHolocene p.timestamp = false → p.extraData = []
  withdrawals : config.isIsthmus p.timestamp = true → p.withdrawals = some []
  blobs : config.isCancun p.timestamp = false → hashes = []

theorem EngineM.extraDataFault_eq_none_iff {config : ChainConfig} {p : Payload} :
    extraDataFault config p = none ↔ (config.isRollup = true →
      (config.isHolocene p.timestamp = true → FeeParams.validateExtraData p.extraData = .ok ()) ∧
        (config.isHolocene p.timestamp = false → p.extraData = [])) := by
  unfold extraDataFault
  cases config.isRollup with
  | false => simp
  | true =>
      cases config.isHolocene p.timestamp with
      | false => simp
      | true =>
          cases FeeParams.validateExtraData p.extraData <;> simp

/-! ### What built blocks have -/

/-- A built block has what the forks of its time ask for. -/
structure BuiltBlock.FitsForks (config : ChainConfig) (built : BuiltBlock) : Prop where
  ommersHash : built.block.header.ommersHash = emptyOmmersHash
  difficulty : built.block.header.difficulty = 0
  nonce : built.block.header.nonce = .zero 8
  extraData : built.block.header.extraData.length ≤ maximumExtraDataSize
  feeParams : config.isHolocene built.block.timestamp = true →
    FeeParams.validateExtraData built.block.header.extraData = .ok ()
  baseFee : built.block.header.baseFeePerGas.isSome
  transactionsRoot :
    built.block.header.transactionsRoot = Transaction.root built.block.transactions
  withdrawals : built.block.withdrawals.isSome = config.isShanghai built.block.timestamp
  withdrawalsRoot :
    built.block.header.withdrawalsRoot = built.block.withdrawals.map Withdrawal.root
  blobGasUsed : built.block.header.blobGasUsed.isSome = config.isCancun built.block.timestamp
  excessBlobGas : built.block.header.excessBlobGas.isSome = config.isCancun built.block.timestamp
  beaconRoot :
    built.block.header.parentBeaconBlockRoot.isSome = config.isCancun built.block.timestamp
  requests :
    built.executionRequests = if config.isPrague built.block.timestamp then some [] else none
  requestsHash : built.block.header.requestsHash = built.executionRequests.map Requests.hash
  blobHashes : ∃ hashes, Payload.blobHashes 0 built.block.transactions = .ok hashes

/-- Transactions that were applied tell their blob hashes. -/
theorem Session.blobHashes_of_applyAll {s s' : Session} {transactions : List Transaction}
    (applied : s.applyAll transactions = .ok s') (index : Nat) :
    ∃ hashes, Payload.blobHashes index transactions = .ok hashes := by
  induction transactions generalizing s index with
  | nil => exact ⟨[], rfl⟩
  | cons tx rest ih =>
      obtain ⟨next, first, others⟩ := bind_eq_ok_iff.mp applied
      obtain ⟨own, told, -⟩ := apply_eq_ok first
      obtain ⟨later, toldLater⟩ := ih others (index + 1)
      refine ⟨own ++ later, ?_⟩
      rw [Payload.blobHashes]
      simp only [told, toldLater, ok_bind, pure_eq_ok]

/-- **What a generated block has**, if the configuration is accepted and the extra data of the
operator is not too long. -/
theorem Generator.Generated.fitsForks {g : Generator} {plan : BlockPlan} {built : BuiltBlock}
    (generated : g.Generated plan built) (accepted : g.config.Accepted)
    (short : g.miner.extraData.length ≤ maximumExtraDataSize) : built.FitsForks g.config := by
  obtain ⟨header, start, f, opens, -, replays, rfl⟩ := generated
  have timestamp : header.timestamp = plan.timestamp := by rw [opens.fields]
  have closed : (g.close plan header f).block.timestamp = plan.timestamp := timestamp
  constructor
  case ommersHash =>
    show header.ommersHash = emptyOmmersHash
    rw [opens.fields]
  case difficulty =>
    show header.difficulty = 0
    rw [opens.fields]
  case nonce =>
    show header.nonce = .zero 8
    rw [opens.fields]
  case extraData => exact length_extraData_le opens.extraData short
  case feeParams =>
    rw [closed]
    exact extraData_accepted accepted opens.extraData
  case baseFee =>
    obtain ⟨fee, -, given⟩ := opens.baseFee
    exact Option.isSome_iff_exists.mpr ⟨fee, given⟩
  case transactionsRoot => rfl
  case withdrawals =>
    rw [closed, close, Block.withdrawals]
    cases g.config.isShanghai plan.timestamp <;> rfl
  case withdrawalsRoot =>
    rw [close, Block.withdrawals]
    cases g.config.isShanghai plan.timestamp <;> rfl
  case blobGasUsed =>
    rw [closed, close]
    cases g.config.isCancun plan.timestamp <;> rfl
  case excessBlobGas =>
    rw [closed]
    exact opens.excessBlobGas
  case beaconRoot =>
    rw [closed]
    show header.parentBeaconBlockRoot.isSome = _
    rw [opens.fields]
    cases g.config.isCancun plan.timestamp <;> rfl
  case requests => rw [closed, close]
  case requestsHash => rw [close]
  case blobHashes => exact Session.blobHashes_of_applyAll replays 0

/-! ### What is accepted back -/

/-- An envelope has the parts that a fork asks for. -/
structure Envelope.HasParts (envelope : Envelope) (config : ChainConfig) (fork : Fork) : Prop where
  latest : config.latestFork envelope.payload.timestamp = fork
  cancun : config.isCancun envelope.payload.timestamp = decide (Fork.cancun ≤ fork)
  withdrawals : envelope.payload.withdrawals.isSome = decide (Fork.shanghai ≤ fork)
  blobGasUsed : envelope.payload.blobGasUsed.isSome = decide (Fork.cancun ≤ fork)
  excessBlobGas : envelope.payload.excessBlobGas.isSome = decide (Fork.cancun ≤ fork)
  beaconRoot : envelope.parentBeaconBlockRoot.isSome = decide (Fork.cancun ≤ fork)
  requests : envelope.executionRequests.isSome = decide (Fork.prague ≤ fork)
  withdrawalsRoot : config.isIsthmus envelope.payload.timestamp = true → Fork.prague ≤ fork →
    envelope.payload.withdrawalsRoot.isSome

namespace Envelope.HasParts

variable {envelope : Envelope} {config : ChainConfig} {fork : Fork} {hashes : List Hash}

theorem checkCancunFields_eq_ok (parts : envelope.HasParts config fork)
    (since : Fork.cancun ≤ fork) {request : PayloadRequest}
    (payload : request.payload = envelope.payload) (given : request.versionedHashes = some hashes)
    (beacon : request.beaconRoot = envelope.parentBeaconBlockRoot) :
    NewPayloadVersion.checkCancunFields request = .ok () := by
  have shanghai : Fork.shanghai ≤ fork := Nat.le_trans (by decide) since
  have withdrawals := parts.withdrawals
  have blobGasUsed := parts.blobGasUsed
  have excessBlobGas := parts.excessBlobGas
  have beaconRoot := parts.beaconRoot
  rw [decide_eq_true since] at blobGasUsed excessBlobGas beaconRoot
  rw [decide_eq_true shanghai] at withdrawals
  simp [NewPayloadVersion.checkCancunFields, payload, given, beacon, ← Option.not_isSome,
    withdrawals, blobGasUsed, excessBlobGas, beaconRoot]

theorem checkV2_eq_ok (parts : envelope.HasParts config .shanghai) (method : String) :
    NewPayloadVersion.checkV2 config method envelope.payload = .ok () := by
  have early : config.isCancun envelope.payload.timestamp = false := parts.cancun
  have withdrawals : envelope.payload.withdrawals.isSome = true := parts.withdrawals
  have blobGasUsed : envelope.payload.blobGasUsed.isSome = false := parts.blobGasUsed
  have excessBlobGas : envelope.payload.excessBlobGas.isSome = false := parts.excessBlobGas
  simp [NewPayloadVersion.checkV2, early, parts.latest, ← Option.not_isSome, withdrawals,
    blobGasUsed, excessBlobGas]

theorem checkV3_eq_ok (parts : envelope.HasParts config .cancun) (method : String) :
    NewPayloadVersion.checkV3 config method (envelope.request .v3 hashes) = .ok () := by
  have fields : NewPayloadVersion.checkCancunFields (envelope.request .v3 hashes) = .ok () :=
    parts.checkCancunFields_eq_ok (by decide) rfl rfl rfl
  simp [NewPayloadVersion.checkV3, fields, parts.latest]

theorem checkV4_eq_ok (parts : envelope.HasParts config fork) (since : Fork.prague ≤ fork)
    (method : String) :
    NewPayloadVersion.checkV4 config method (envelope.request .v4 hashes) = .ok () := by
  have cancun : Fork.cancun ≤ fork := Nat.le_trans (by decide) since
  have fields : NewPayloadVersion.checkCancunFields (envelope.request .v4 hashes) = .ok () :=
    parts.checkCancunFields_eq_ok cancun rfl rfl rfl
  have requests : (envelope.request .v4 hashes).executionRequests.isSome = true :=
    parts.requests.trans (decide_eq_true since)
  have withdrawalsRoot := parts.withdrawalsRoot
  simp only [NewPayloadVersion.checkV4, fields, ok_bind, ← Option.not_isSome, requests,
    request_payload, parts.latest, since]
  cases active : config.isIsthmus envelope.payload.timestamp with
  | false => simp
  | true => simp [withdrawalsRoot active since]

/-- **The version of the method that belongs to a fork accepts an envelope with its parts.** -/
theorem check_eq_ok (parts : envelope.HasParts config fork) (method : PayloadMethod) :
    (NewPayloadVersion.ofFork fork).check method config
      (envelope.request (.ofFork fork) hashes) = .ok () := by
  cases fork with
  | paris =>
      have withdrawals : envelope.payload.withdrawals.isSome = false := parts.withdrawals
      rw [NewPayloadVersion.ofFork, NewPayloadVersion.check, NewPayloadVersion.checkV1,
        request_payload, withdrawals]
      rfl
  | shanghai => exact parts.checkV2_eq_ok _
  | cancun => exact parts.checkV3_eq_ok _
  | prague => exact parts.checkV4_eq_ok (by decide) _
  | osaka => exact parts.checkV4_eq_ok (by decide) _

/-- **The parts that a version has no parameter for are absent**, but for the blob hashes. -/
theorem sidecar_request (parts : envelope.HasParts config fork) :
    (envelope.request (.ofFork fork) hashes).sidecar = {
      versionedHashes := if Fork.cancun ≤ fork then hashes else []
      parentBeaconBlockRoot := envelope.parentBeaconBlockRoot
      executionRequests := envelope.executionRequests } := by
  have absent {α : Type} {part : Option α} (missing : part.isSome = false) : part = none :=
    Option.isNone_iff_eq_none.mp (Option.isSome_eq_false_iff.mp missing)
  cases fork with
  | paris | shanghai =>
      rw [absent parts.beaconRoot, absent parts.requests]
      rfl
  | cancun =>
      rw [absent parts.requests]
      rfl
  | prague | osaka => rfl

end Envelope.HasParts

/-- The transactions of the envelope are those of the block. -/
theorem BuiltBlock.ownBlobHashes_envelope (built : BuiltBlock) (config : ChainConfig) :
    (built.envelope config).payload.ownBlobHashes =
      Payload.blobHashes 0 built.block.transactions := by
  have transactions : (built.envelope config).payload.transactions =
      built.block.transactions.map Transaction.bytes := rfl
  rw [Payload.ownBlobHashes, transactions, Payload.decodeTransactions_bytes, ok_bind]

namespace BuiltBlock.FitsForks

variable {config : ChainConfig} {built : BuiltBlock} {hashes : List Hash}

/-- Built blocks come without requests. -/
theorem executionRequests_request (fits : built.FitsForks config) (version : NewPayloadVersion)
    (hashes : List Hash) :
    ((built.envelope config).request version hashes).executionRequests.getD [] = [] := by
  have own : (built.envelope config).executionRequests.getD [] = [] := by
    rw [show (built.envelope config).executionRequests = built.executionRequests from rfl,
      fits.requests]
    split <;> rfl
  cases version with
  | v1 | v2 | v3 => rfl
  | v4 => exact own

theorem hasParts (fits : built.FitsForks config) (accepted : config.Accepted) :
    (built.envelope config).HasParts config (config.latestFork built.block.timestamp) := by
  have active (fork : Fork) : config.isForkActive fork built.block.timestamp =
      decide (fork ≤ config.latestFork built.block.timestamp) := accepted.isForkActive_eq fork
  have cancun : config.isCancun built.block.timestamp = _ := active .cancun
  exact {
    latest := rfl
    cancun
    withdrawals := fits.withdrawals.trans (active .shanghai)
    blobGasUsed := fits.blobGasUsed.trans cancun
    excessBlobGas := fits.excessBlobGas.trans cancun
    beaconRoot := fits.beaconRoot.trans cancun
    requests := by
      rw [← active .prague]
      show built.executionRequests.isSome = config.isPrague built.block.timestamp
      rw [fits.requests]
      cases config.isPrague built.block.timestamp <;> rfl
    withdrawalsRoot := fun isthmus since => by
      rw [show (built.envelope config).payload.withdrawalsRoot = _ from
        Payload.withdrawalsRoot_ofBlock config built.block,
        if_pos (show config.isIsthmus built.block.timestamp = true from isthmus),
        fits.withdrawalsRoot, Option.isSome_map, fits.withdrawals]
      exact (active .shanghai).trans (decide_eq_true (Nat.le_trans (by decide) since)) }

/-- **Under the rules of `Payload.Returns` a built block is accepted back.** -/
theorem toBlock_request (fits : built.FitsForks config) (accepted : config.Accepted)
    (told : Payload.blobHashes 0 built.block.transactions = .ok hashes)
    (returns : (built.envelope config).payload.Returns config hashes) :
    let request := (built.envelope config).request
      (.ofFork (config.latestFork built.block.timestamp)) hashes
    EngineM.extraDataFault config request.payload = none ∧
      request.payload.toBlock config request.sidecar = .ok built.block := by
  intro request
  have parts := fits.hasParts accepted
  have payload : request.payload = .ofBlock config built.block := Envelope.request_payload _ _ _
  have time : (built.envelope config).payload.timestamp = built.block.timestamp := rfl
  constructor
  · rw [payload]
    exact EngineM.extraDataFault_eq_none_iff.mpr fun rollup =>
      ⟨fits.feeParams, fun early => returns.extraData rollup early⟩
  · rw [payload, show request.sidecar = _ from parts.sidecar_request]
    refine Payload.toBlock_ofBlock {
      ommersHash := fits.ommersHash
      difficulty := fits.difficulty
      nonce := fits.nonce
      extraData := fits.extraData
      baseFee := fits.baseFee
      transactionsRoot := fits.transactionsRoot
      withdrawalsRoot := fun _ => fits.withdrawalsRoot
      isthmus := ?_
      beaconRoot := rfl
      requestsHash := fits.requestsHash.symm
      blobHashes := ?_ }
    · intro active
      have empty : built.block.withdrawals = some [] := returns.withdrawals active
      rw [fits.withdrawalsRoot, empty]
      exact ⟨rfl, rfl⟩
    · have active : config.isCancun built.block.timestamp = _ := parts.cancun
      split
      · exact told
      · rename_i before
        rw [decide_eq_false before] at active
        rw [told, returns.blobs active]

/-- A block that is accepted back keeps these rules. -/
theorem returns_of_toBlock (fits : built.FitsForks config) (accepted : config.Accepted)
    (told : Payload.blobHashes 0 built.block.transactions = .ok hashes)
    (plain : EngineM.extraDataFault config (built.envelope config).payload = none) {block : Block}
    (converted : (built.envelope config).payload.toBlock config ((built.envelope config).request
      (.ofFork (config.latestFork built.block.timestamp)) hashes).sidecar = .ok block) :
    (built.envelope config).payload.Returns config hashes := by
  have parts := fits.hasParts accepted
  obtain ⟨describes, -⟩ := Payload.toBlock_eq_ok_iff.mp converted
  rw [show ((built.envelope config).request _ hashes).sidecar = _ from parts.sidecar_request]
    at describes
  constructor
  case extraData =>
    intro rollup early
    exact (EngineM.extraDataFault_eq_none_iff.mp plain rollup).2 early
  case withdrawals =>
    intro active
    exact (Payload.checkIsthmus_eq_ok_iff.mp (describes.isthmus active)).2
  case blobs =>
    intro early
    have before : ¬Fork.cancun ≤ config.latestFork built.block.timestamp :=
      of_decide_eq_false (parts.cancun.symm.trans early)
    obtain ⟨own, toldOwn, agree⟩ := describes.blobHashes
    have decoded := (Payload.decodeTransactions_bytes built.block.transactions 0).symm.trans
      describes.transactions
    rw [← Except.ok.inj decoded, told] at toldOwn
    cases toldOwn
    rw [if_neg before] at agree
    exact List.length_eq_zero_iff.mp (Payload.length_eq_of_checkVersionedHashes agree)

end BuiltBlock.FitsForks

end EngineNode
