import EngineNode.Proofs.Payload.Conversion

/-!
Blocks that travel as payloads.

A payload leaves out what follows from the rest, so a block survives the journey only if these
parts of it are what they follow to be, and if what travels beside it agrees with it.

* `Block.Travels`: the blocks that survive with a given sidecar.
* `Payload.toBlock_ofBlock`: they do.
-/

namespace EngineNode

/-! ### Transactions and blob hashes -/

namespace Payload

theorem decodeTransactions_bytes (transactions : List Transaction) (index : Nat) :
    decodeTransactions index (transactions.map Transaction.bytes) = .ok transactions := by
  induction transactions generalizing index with
  | nil => rfl
  | cons tx rest ih =>
      rw [List.map_cons, decodeTransactions, Transaction.decode_bytes]
      simp only [ih, ok_bind, pure_eq_ok]

theorem matchVersionedHashes_self (hashes : List Hash) (index : Nat) :
    matchVersionedHashes index hashes hashes = .ok () := by
  induction hashes generalizing index with
  | nil => rfl
  | cons hash rest ih => rw [matchVersionedHashes, if_pos rfl, ih]

theorem checkVersionedHashes_self (hashes : List Hash) :
    checkVersionedHashes hashes hashes = .ok () := by
  rw [checkVersionedHashes, if_pos rfl, matchVersionedHashes_self]

theorem length_eq_of_checkVersionedHashes {inTransactions given : List Hash}
    (agree : checkVersionedHashes inTransactions given = .ok ()) :
    inTransactions.length = given.length := by
  unfold checkVersionedHashes at agree
  split at agree
  · assumption
  · cases agree

end Payload

/-! ### Blocks -/

/-- A block is the one that its payload and a sidecar describe. -/
structure Block.Travels (config : ChainConfig) (sidecar : Sidecar) (block : Block) : Prop where
  ommersHash : block.header.ommersHash = emptyOmmersHash
  difficulty : block.header.difficulty = 0
  nonce : block.header.nonce = .zero 8
  extraData : block.header.extraData.length ≤ maximumExtraDataSize
  baseFee : block.header.baseFeePerGas.isSome
  transactionsRoot : block.header.transactionsRoot = Transaction.root block.transactions
  withdrawalsRoot : config.isIsthmus block.timestamp = false →
    block.header.withdrawalsRoot = block.withdrawals.map Withdrawal.root
  isthmus : config.isIsthmus block.timestamp = true →
    block.header.withdrawalsRoot.isSome ∧ block.withdrawals = some []
  beaconRoot : sidecar.parentBeaconBlockRoot = block.header.parentBeaconBlockRoot
  requestsHash : sidecar.executionRequests.map Requests.hash = block.header.requestsHash
  blobHashes : Payload.blobHashes 0 block.transactions = .ok sidecar.versionedHashes

namespace Payload

variable {config : ChainConfig} {sidecar : Sidecar} {block : Block}

theorem checkIsthmus_eq_ok_iff {payload : Payload} : payload.checkIsthmus = .ok () ↔
    payload.withdrawalsRoot.isSome ∧ payload.withdrawals = some [] := by
  unfold checkIsthmus
  cases payload.withdrawalsRoot <;> simp

/-- The withdrawals root is sent from Isthmus on. -/
theorem withdrawalsRoot_ofBlock (config : ChainConfig) (block : Block) :
    (ofBlock config block).withdrawalsRoot =
      if config.isIsthmus block.timestamp then block.header.withdrawalsRoot else none := rfl

/-- The withdrawals root of a block can be told from its payload. -/
theorem impliedWithdrawalsRoot_ofBlock (travels : block.Travels config sidecar) :
    ((ofBlock config block).withdrawalsRoot <|>
      (ofBlock config block).withdrawals.map Withdrawal.root) = block.header.withdrawalsRoot := by
  rw [withdrawalsRoot_ofBlock]
  cases active : config.isIsthmus block.timestamp with
  | false => exact (travels.withdrawalsRoot active).symm
  | true =>
      obtain ⟨root, present⟩ := Option.isSome_iff_exists.mp (travels.isthmus active).1
      rw [present]
      rfl

theorem describes_ofBlock (travels : block.Travels config sidecar) :
    (ofBlock config block).Describes config sidecar block where
  transactions := decodeTransactions_bytes block.transactions 0
  extraData := travels.extraData
  blobHashes := ⟨_, travels.blobHashes, checkVersionedHashes_self _⟩
  isthmus active := by
    have active : config.isIsthmus block.timestamp = true := active
    obtain ⟨root, empty⟩ := travels.isthmus active
    refine checkIsthmus_eq_ok_iff.mpr ⟨?_, empty⟩
    rw [withdrawalsRoot_ofBlock, if_pos active]
    exact root
  header := by
    obtain ⟨fee, hfee⟩ := Option.isSome_iff_exists.mp travels.baseFee
    refine ⟨fee, block.header.logsBloom, hfee, FixedBytes.ofBytes?_toList _, ?_⟩
    rw [Payload.header, impliedWithdrawalsRoot_ofBlock travels, ← travels.transactionsRoot,
      travels.beaconRoot, travels.requestsHash, ← hfee, ← travels.ommersHash, ← travels.difficulty,
      ← travels.nonce]
    rfl
  withdrawals := rfl

/-- **A block that is sent as its payload comes back.** -/
theorem toBlock_ofBlock (travels : block.Travels config sidecar) :
    (ofBlock config block).toBlock config sidecar = .ok block :=
  toBlock_eq_ok_iff.mpr ⟨describes_ofBlock travels, rfl⟩

end Payload

end EngineNode
