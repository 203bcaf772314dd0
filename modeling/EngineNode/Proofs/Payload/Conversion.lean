import EngineNode.Proofs.Chain.Insert

/-!
What a payload must be to describe a block.

* `Payload.toBlockUnchecked_eq_ok_iff`: the checks on the way, read as a predicate
  (`Payload.Describes`), and the block at the end.
* `Payload.toBlock_eq_ok_iff`: the block must have the hash that was announced.
-/

namespace EngineNode

namespace Payload

variable {config : ChainConfig} {payload : Payload} {sidecar : Sidecar} {block : Block}

/-- A payload and its sidecar describe a block under the rules of a chain. -/
structure Describes (config : ChainConfig) (payload : Payload) (sidecar : Sidecar)
    (block : Block) : Prop where
  transactions : decodeTransactions 0 payload.transactions = .ok block.transactions
  extraData : payload.extraData.length ≤ maximumExtraDataSize
  blobHashes : ∃ hashes, Payload.blobHashes 0 block.transactions = .ok hashes ∧
    checkVersionedHashes hashes sidecar.versionedHashes = .ok ()
  isthmus : config.isIsthmus payload.timestamp = true → payload.checkIsthmus = .ok ()
  header : ∃ baseFee bloom, payload.baseFeePerGas = some baseFee ∧
    FixedBytes.ofBytes? 256 payload.logsBloom = some bloom ∧
      block.header = payload.header sidecar block.transactions baseFee bloom
  withdrawals : block.withdrawals = payload.withdrawals

/-- **What conversion accepts.** -/
theorem toBlockUnchecked_eq_ok_iff :
    payload.toBlockUnchecked config sidecar = .ok block ↔
      payload.Describes config sidecar block := by
  unfold toBlockUnchecked
  constructor
  · intro converted
    obtain ⟨transactions, decoded, converted⟩ := bind_eq_ok_iff.mp converted
    simp only [throw_eq_error, error_bind, pure_eq_ok] at converted
    split at converted
    · cases converted
    · rename_i short
      split at converted
      · cases converted
      · rename_i bloom hbloom
        split at converted
        · cases converted
        · rename_i baseFee hbaseFee
          obtain ⟨hashes, hhashes, converted⟩ := bind_eq_ok_iff.mp converted
          obtain ⟨_, checked, converted⟩ := bind_eq_ok_iff.mp converted
          split at converted
          · obtain ⟨_, isthmus, converted⟩ := bind_eq_ok_iff.mp converted
            cases converted
            exact ⟨decoded, Nat.not_lt.mp short, ⟨hashes, hhashes, checked⟩, fun _ => isthmus,
              ⟨baseFee, bloom, hbaseFee, hbloom, rfl⟩, rfl⟩
          · rename_i early
            cases converted
            exact ⟨decoded, Nat.not_lt.mp short, ⟨hashes, hhashes, checked⟩,
              fun active => absurd active early, ⟨baseFee, bloom, hbaseFee, hbloom, rfl⟩, rfl⟩
  · rintro ⟨decoded, short, ⟨hashes, hhashes, checked⟩, isthmus,
      ⟨baseFee, bloom, hbaseFee, hbloom, header⟩, withdrawals⟩
    have described : (⟨payload.header sidecar block.transactions baseFee bloom,
        ⟨block.transactions, payload.withdrawals⟩⟩ : Block) = block := by
      rw [← header, ← withdrawals]
      rfl
    simp only [decoded, ok_bind, Nat.not_lt.mpr short, if_false, hbloom, hbaseFee, hhashes,
      checked, described]
    split
    · rename_i active
      rw [isthmus active]
      rfl
    · rfl

theorem toBlock_eq_ok_iff : payload.toBlock config sidecar = .ok block ↔
    payload.Describes config sidecar block ∧ block.hash = payload.blockHash := by
  rw [← toBlockUnchecked_eq_ok_iff]
  unfold toBlock
  constructor
  · intro converted
    obtain ⟨unchecked, built, converted⟩ := bind_eq_ok_iff.mp converted
    simp only [throw_eq_error, error_bind, pure_eq_ok] at converted
    split at converted
    · cases converted
    · rename_i announced
      cases converted
      exact ⟨built, not_not.mp announced⟩
  · rintro ⟨built, announced⟩
    simp only [built, ok_bind, announced, ne_eq, not_true_eq_false, if_false, pure_eq_ok]

/-- The block of a payload commits to its transactions. -/
theorem Describes.transactionsRoot (describes : payload.Describes config sidecar block) :
    block.header.transactionsRoot = Transaction.root block.transactions := by
  obtain ⟨_, _, -, -, header⟩ := describes.header
  rw [header]
  rfl

theorem Describes.extraData_eq (describes : payload.Describes config sidecar block) :
    block.header.extraData = payload.extraData := by
  obtain ⟨_, _, -, -, header⟩ := describes.header
  rw [header]
  rfl

end Payload

end EngineNode
