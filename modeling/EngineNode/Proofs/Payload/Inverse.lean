import EngineNode.Proofs.Payload.RoundTrip

/-!
Payloads and blocks, there and back.

A payload and its sidecar hold no more than their block, apart from a withdrawals root that was
named too early, and a block holds no more than its payload and its sidecar if it has the form of a
block after the merge.

* `Payload.ofBlock_toBlock`: the payload of the block of a payload is the payload.
* `Block.Portable.travels`: a block of the right form travels with what belongs beside its payload.
* `Payload.toBlock_inverse`: so the conversions undo each other, in both directions.
-/

namespace EngineNode

/-! ### From payloads to blocks and back -/

namespace Payload

variable {config : ChainConfig} {payload : Payload} {sidecar : Sidecar} {block : Block}

/-- Decoded transactions keep their bytes. -/
theorem map_bytes_of_decodeTransactions {index : Nat} {items : List Bytes}
    {transactions : List Transaction}
    (decoded : decodeTransactions index items = .ok transactions) :
    transactions.map Transaction.bytes = items := by
  induction items generalizing index transactions with
  | nil =>
      cases decoded
      rfl
  | cons bytes rest ih =>
      rw [decodeTransactions] at decoded
      split at decoded
      · cases decoded
      · rename_i tx first
        obtain ⟨others, below, same⟩ := bind_eq_ok_iff.mp decoded
        cases same
        rw [List.map_cons, Transaction.decode_eq_ok_iff.mp first, ih below]

/-- **The payload of the block of a payload is the payload**, if no withdrawals root was named
before Isthmus. -/
theorem ofBlock_toBlock (converted : payload.toBlock config sidecar = .ok block)
    (unnamed : config.isIsthmus payload.timestamp = false → payload.withdrawalsRoot = none) :
    ofBlock config block = payload := by
  obtain ⟨describes, announced⟩ := toBlock_eq_ok_iff.mp converted
  obtain ⟨baseFee, bloom, given, wide, header⟩ := describes.header
  have transactions : block.body.transactions.map Transaction.bytes = payload.transactions :=
    map_bytes_of_decodeTransactions describes.transactions
  have withdrawals : block.body.withdrawals = payload.withdrawals := describes.withdrawals
  have logsBloom : bloom.toList = payload.logsBloom := FixedBytes.toList_of_ofBytes? wide
  have root : (if config.isIsthmus payload.timestamp then
      (payload.withdrawalsRoot <|> payload.withdrawals.map Withdrawal.root) else none) =
        payload.withdrawalsRoot := by
    cases active : config.isIsthmus payload.timestamp with
    | false => exact (unnamed active).symm
    | true =>
        have isthmus := checkIsthmus_eq_ok_iff.mp (describes.isthmus active)
        obtain ⟨root, named⟩ := Option.isSome_iff_exists.mp isthmus.1
        rw [named]
        rfl
  simp only [ofBlock, header, Payload.header, announced, transactions, withdrawals, logsBloom, root,
    ← given]

end Payload

/-! ### From blocks to payloads and back -/

/-- The hashes of the blobs that the transactions of a block carry, in order. -/
def Block.blobHashes (block : Block) : List Hash :=
  block.transactions.flatMap fun tx => tx.blobVersionedHashes.toOption.getD []

/-- A block has the form of a block after the merge: what a payload leaves out of it is what it
follows to be. -/
structure Block.Portable (config : ChainConfig) (block : Block) : Prop where
  ommersHash : block.header.ommersHash = emptyOmmersHash
  difficulty : block.header.difficulty = 0
  nonce : block.header.nonce = .zero 8
  extraData : block.header.extraData.length ≤ maximumExtraDataSize
  baseFee : block.header.baseFeePerGas.isSome
  transactionsRoot : block.header.transactionsRoot = Transaction.root block.transactions
  withdrawalsRoot : config.isIsthmus block.timestamp = false →
    block.header.withdrawalsRoot = block.withdrawals.map Withdrawal.root
  isthmus : config.isIsthmus block.timestamp = true →
    block.header.withdrawalsRoot.isSome ∧ block.withdrawals = some []
  blobHashes : ∀ tx ∈ block.transactions, ∃ hashes, tx.blobVersionedHashes = .ok hashes

/-- What belongs beside the payload of a block with some requests. -/
def Block.sidecar (block : Block) (requests : Option (List Bytes)) : Sidecar where
  versionedHashes := block.blobHashes
  parentBeaconBlockRoot := block.header.parentBeaconBlockRoot
  executionRequests := requests

theorem Payload.blobHashes_eq_ok {transactions : List Transaction}
    (told : ∀ tx ∈ transactions, ∃ hashes, tx.blobVersionedHashes = .ok hashes) (index : Nat) :
    Payload.blobHashes index transactions =
      .ok (transactions.flatMap fun tx => tx.blobVersionedHashes.toOption.getD []) := by
  induction transactions generalizing index with
  | nil => rfl
  | cons tx rest ih =>
      obtain ⟨hashes, first⟩ := told tx List.mem_cons_self
      have others := ih (fun other member => told other (List.mem_cons_of_mem _ member)) (index + 1)
      rw [blobHashes, List.flatMap_cons, first]
      simp only [others, ok_bind, pure_eq_ok]
      rfl

/-- A block of the right form survives the journey with its own sidecar. -/
theorem Block.Portable.travels {config : ChainConfig} {block : Block}
    (portable : block.Portable config) {requests : Option (List Bytes)}
    (committed : requests.map Requests.hash = block.header.requestsHash) :
    block.Travels config (block.sidecar requests) where
  ommersHash := portable.ommersHash
  difficulty := portable.difficulty
  nonce := portable.nonce
  extraData := portable.extraData
  baseFee := portable.baseFee
  transactionsRoot := portable.transactionsRoot
  withdrawalsRoot := portable.withdrawalsRoot
  isthmus := portable.isthmus
  beaconRoot := rfl
  requestsHash := committed
  blobHashes := Payload.blobHashes_eq_ok portable.blobHashes 0

/-- **Payloads and blocks are converted into each other without loss.** Whatever payload is accepted
comes back from its block, unless it names a withdrawals root before Isthmus; and every block of the
right form comes back from its payload, sent with the hashes of its blobs, its beacon root and
requests that it commits to. -/
theorem Payload.toBlock_inverse (config : ChainConfig) :
    (∀ (payload : Payload) (sidecar : Sidecar) (block : Block),
      payload.toBlock config sidecar = .ok block →
      (config.isIsthmus payload.timestamp = false → payload.withdrawalsRoot = none) →
      ofBlock config block = payload) ∧
    ∀ (block : Block) (requests : Option (List Bytes)), block.Portable config →
      requests.map Requests.hash = block.header.requestsHash →
      (ofBlock config block).toBlock config (block.sidecar requests) = .ok block := by
  constructor
  · intro payload sidecar block converted unnamed
    exact ofBlock_toBlock converted unnamed
  · intro block requests portable committed
    exact toBlock_ofBlock (portable.travels committed)

/-! ### A block that carries a blob -/

namespace BlobBlock

/-- A chain on which Prague is active from the start. -/
def config : ChainConfig :=
  { shanghaiTime := some 0, cancunTime := some 0, pragueTime := some 0 }

def blobHash : Hash := .ofNat 32 1

/-- A transaction of ten empty fields and one blob. -/
def transaction : Transaction where
  bytes := [0x03, 0xec] ++ List.replicate 10 0x80 ++ [0xe1, 0xa0] ++ blobHash.toList
  type := .blob
  classify_bytes := rfl

def withdrawal : Withdrawal := ⟨1, 2, .zero 20, 3⟩

def requests : List Bytes := [[0, 170], [1, 187]]

def block : Block where
  header := {
    transactionsRoot := Transaction.root [transaction]
    number := 1
    gasLimit := 30000000
    timestamp := 12
    extraData := [1, 2, 3]
    baseFeePerGas := some 7
    withdrawalsRoot := some (Withdrawal.root [withdrawal])
    blobGasUsed := some 131072
    excessBlobGas := some 0
    parentBeaconBlockRoot := some (.ofNat 32 5)
    requestsHash := some (Requests.hash requests) }
  body := ⟨[transaction], some [withdrawal]⟩

/-- What is sent of the block. The rest goes beside it or follows. -/
def payload : Payload where
  parentHash := .zero 32
  feeRecipient := .zero 20
  stateRoot := .zero 32
  receiptsRoot := .zero 32
  logsBloom := List.replicate 256 0
  prevRandao := .zero 32
  blockNumber := 1
  gasLimit := 30000000
  gasUsed := 0
  timestamp := 12
  extraData := [1, 2, 3]
  baseFeePerGas := some 7
  blockHash := block.hash
  transactions := [transaction.bytes]
  withdrawals := some [withdrawal]
  blobGasUsed := some 131072
  excessBlobGas := some 0
  withdrawalsRoot := none

def sidecar : Sidecar := ⟨[blobHash], some (.ofNat 32 5), some requests⟩

theorem blobVersionedHashes_transaction : transaction.blobVersionedHashes = .ok [blobHash] := by
  with_unfolding_all rfl

theorem sidecar_block : block.sidecar (some requests) = sidecar := by
  simp only [Block.sidecar, Block.blobHashes, show block.transactions = [transaction] from rfl,
    List.flatMap_cons, List.flatMap_nil, blobVersionedHashes_transaction]
  rfl

theorem block_portable : block.Portable config where
  ommersHash := rfl
  difficulty := rfl
  nonce := rfl
  extraData := by decide
  baseFee := rfl
  transactionsRoot := rfl
  withdrawalsRoot := fun _ => rfl
  isthmus := nofun
  blobHashes tx member := by
    rw [List.mem_singleton.mp member]
    exact ⟨_, blobVersionedHashes_transaction⟩

theorem payload_inverse :
    block.Portable config ∧ (some requests).map Requests.hash = block.header.requestsHash ∧
      payload.toBlock config sidecar = .ok block ∧
      (config.isIsthmus payload.timestamp = false → payload.withdrawalsRoot = none) ∧
      Payload.ofBlock config block = payload := by
  obtain ⟨fromPayload, fromBlock⟩ := Payload.toBlock_inverse config
  have committed : (some requests).map Requests.hash = block.header.requestsHash := rfl
  have converted : payload.toBlock config sidecar = .ok block := by
    rw [← sidecar_block]
    exact fromBlock block (some requests) block_portable committed
  have unnamed : config.isIsthmus payload.timestamp = false → payload.withdrawalsRoot = none :=
    fun _ => rfl
  exact ⟨block_portable, committed, converted, unnamed,
    fromPayload payload sidecar block converted unnamed⟩

end BlobBlock

end EngineNode
