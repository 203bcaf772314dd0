import EngineNode.Payload.Id
import EngineNode.Transaction
import EngineNode.Withdrawal

/-!
# Arguments of a build

Everything that the consensus layer says about the payload it wants. The arguments decide the
name of the payload.
-/

namespace EngineNode

structure BuildArgs where
  parent : Hash
  timestamp : UInt64
  feeRecipient : Address
  random : Hash
  withdrawals : Option (List Withdrawal)
  beaconRoot : Option Hash
  version : PayloadVersion
  /-- Leaves the transaction pool out. -/
  noTxPool : Bool
  /-- The transactions with which the block begins. -/
  transactions : List Transaction
  gasLimit : Option UInt64
  feeParams : Option Bytes
deriving DecidableEq

namespace BuildArgs

/-- The bytes whose hash names the payload. -/
def preimage (args : BuildArgs) : Bytes :=
  args.parent.toList ++ Bytes.ofNatPadded 8 args.timestamp.toNat ++ args.random.toList ++
    args.feeRecipient.toList ++
    (args.withdrawals.elim [] fun list => Rlp.encodeList (list.flatMap Withdrawal.encode)) ++
    args.beaconRoot.elim [] FixedBytes.toList ++ [if args.noTxPool then 1 else 0] ++
    Bytes.ofNatPadded 8 args.transactions.length ++
    (args.transactions.flatMap fun tx => tx.hash.toList) ++
    (args.gasLimit.elim [] fun limit => Bytes.ofNatPadded 8 limit.toNat) ++
    args.feeParams.getD []

/-- The version of the request, and seven bytes of the hash of the arguments. -/
def id (args : BuildArgs) : PayloadId where
  bytes := .ofBytesPadded 8 (args.version.toByte :: (keccak256 args.preimage).toList.drop 1)

end BuildArgs

end EngineNode
