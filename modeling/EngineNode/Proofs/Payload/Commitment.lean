import EngineNode.Proofs.Payload.RoundTrip

/-!
What the block of a payload commits to.

The body of a block cannot be exchanged under its hash as far as the header commits to it. The
header always commits to the transactions. Its withdrawals root is the one that the payload names,
and that of the withdrawals only if it names none: not just since Isthmus, when the root has another
meaning, but before, too.

* `Payload.toBlock_commits`: a block commits to its transactions, and to its withdrawals exactly if
  the payload names no root, or the right one.
* `Payload.toBlock_exchanged`: before Isthmus the withdrawals of an accepted payload can be
  exchanged for any others, and the block keeps its hash.
* `Commitment.exchanged_accepted`: so a block may have withdrawals that its header does not commit
  to.
-/

namespace EngineNode

namespace Payload

variable {config : ChainConfig} {payload : Payload} {sidecar : Sidecar} {block : Block}

/-- The root that the payload names is taken first. -/
theorem Describes.withdrawalsRoot_eq (describes : payload.Describes config sidecar block) :
    block.header.withdrawalsRoot =
      (payload.withdrawalsRoot <|> payload.withdrawals.map Withdrawal.root) := by
  obtain ⟨_, _, -, -, header⟩ := describes.header
  rw [header]
  rfl

/-- **What the block of a payload commits to**: to its transactions, and to its withdrawals exactly
if the payload names no root, or theirs. -/
theorem toBlock_commits (converted : payload.toBlock config sidecar = .ok block) :
    block.header.transactionsRoot = Transaction.root block.transactions ∧
      (block.header.withdrawalsRoot = block.withdrawals.map Withdrawal.root ↔
        payload.withdrawalsRoot = none ∨
          payload.withdrawalsRoot = payload.withdrawals.map Withdrawal.root) := by
  obtain ⟨describes, -⟩ := toBlock_eq_ok_iff.mp converted
  refine ⟨describes.transactionsRoot, ?_⟩
  rw [describes.withdrawalsRoot_eq, describes.withdrawals]
  cases named : payload.withdrawalsRoot with
  | none => simp
  | some root => simp

/-- **Withdrawals can be exchanged under a hash** before Isthmus, by naming the root of those that
were there. -/
theorem toBlock_exchanged (converted : payload.toBlock config sidecar = .ok block)
    (early : config.isIsthmus payload.timestamp = false)
    (rooted : block.header.withdrawalsRoot.isSome) (withdrawals : Option (List Withdrawal)) :
    let exchanged :=
      { payload with withdrawals, withdrawalsRoot := block.header.withdrawalsRoot }
    exchanged.toBlock config sidecar =
      .ok { block with body := { block.body with withdrawals } } := by
  intro exchanged
  obtain ⟨describes, announced⟩ := toBlock_eq_ok_iff.mp converted
  obtain ⟨baseFee, bloom, given, wide, header⟩ := describes.header
  obtain ⟨root, named⟩ := Option.isSome_iff_exists.mp rooted
  have same : exchanged.header sidecar block.transactions baseFee bloom = block.header := by
    have own : (exchanged.withdrawalsRoot <|> exchanged.withdrawals.map Withdrawal.root) =
        (payload.withdrawalsRoot <|> payload.withdrawals.map Withdrawal.root) := by
      rw [← describes.withdrawalsRoot_eq, show exchanged.withdrawalsRoot = _ from named, named]
      rfl
    rw [header, Payload.header, own]
    rfl
  refine toBlock_eq_ok_iff.mpr ⟨?_, announced⟩
  exact {
    transactions := describes.transactions
    extraData := describes.extraData
    blobHashes := describes.blobHashes
    isthmus := fun active => absurd (early.symm.trans active) Bool.false_ne_true
    header := ⟨baseFee, bloom, given, wide, same.symm⟩
    withdrawals := rfl }

end Payload

/-! ### Withdrawals without a commitment -/

namespace Commitment

open Siblings

/-- A chain on which Shanghai is active from the start. -/
def config : ChainConfig := { shanghaiTime := some 0 }

/-- The first block of the chain, which pays nobody. -/
def honest : Block where
  header := { first.header with withdrawalsRoot := some (Withdrawal.root []) }
  body := { withdrawals := some [] }

/-- A withdrawal that nobody has committed to. -/
def gift : Withdrawal := ⟨0, 0, .zero 20, 1⟩

/-- The payload of the first block with the withdrawal in it, and the root without it. -/
def exchanged : Payload :=
  { Payload.ofBlock config honest with
    withdrawals := some [gift], withdrawalsRoot := honest.header.withdrawalsRoot }

theorem honest_travels : honest.Travels config {} where
  ommersHash := rfl
  difficulty := rfl
  nonce := rfl
  extraData := Nat.zero_le _
  baseFee := rfl
  transactionsRoot := rfl
  withdrawalsRoot := fun _ => rfl
  isthmus := nofun
  beaconRoot := rfl
  requestsHash := rfl
  blobHashes := rfl

/-- The first block is accepted and commits to its withdrawals. -/
theorem honest_commits : (Payload.ofBlock config honest).toBlock config {} = .ok honest ∧
    honest.header.transactionsRoot = Transaction.root honest.transactions ∧
    honest.header.withdrawalsRoot = honest.withdrawals.map Withdrawal.root := by
  have converted := Payload.toBlock_ofBlock honest_travels
  obtain ⟨transactions, withdrawals⟩ := Payload.toBlock_commits converted
  exact ⟨converted, transactions, withdrawals.mpr (.inl rfl)⟩

/-- **A block is accepted whose header does not commit to its withdrawals**, before Isthmus. -/
theorem exchanged_accepted :
    config.validate = .ok () ∧ config.isIsthmus exchanged.timestamp = false ∧
      ∃ block, exchanged.toBlock config {} = .ok block ∧
        block.header.withdrawalsRoot ≠ block.withdrawals.map Withdrawal.root := by
  refine ⟨rfl, rfl, _,
    Payload.toBlock_exchanged (Payload.toBlock_ofBlock honest_travels) rfl rfl (some [gift]), ?_⟩
  have distinct : Withdrawal.root [] ≠ Withdrawal.root [gift] := by decide +kernel
  exact fun same => distinct (Option.some.inj same)

end Commitment

end EngineNode
