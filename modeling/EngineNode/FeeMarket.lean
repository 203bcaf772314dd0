import EngineNode.ChainConfig
import EngineNode.Header

/-!
# The fee market

The base fee of a block follows from its parent: it rises when the parent used more gas than its
target and falls when it used less. From Holocene on, blocks of rollup chains choose the
parameters themselves and carry them in their extra data, behind a version byte.

`nextBaseFee` has no value when a product leaves 256 bits.
-/

namespace EngineNode

/-- Fee parameters that a block chooses. Both zero leaves the choice to the chain. -/
structure FeeParams where
  denominator : UInt32 := 0
  elasticity : UInt32 := 0
deriving DecidableEq, Repr

/-- Why bytes are no fee parameters. -/
inductive FeeParamsError where
  | paramsLength (length : Nat)
  | zeroDenominator
  | extraDataLength (length : Nat)
  | extraDataVersion (version : UInt8)
deriving DecidableEq, Repr

def FeeParamsError.message : FeeParamsError → String
  | .paramsLength length => "holocene eip-1559 params should be 8 bytes, got " ++ toString length
  | .zeroDenominator => "holocene params cannot have a 0 denominator unless elasticity is also 0"
  | .extraDataLength length => "holocene extraData should be 9 bytes, got " ++ toString length
  | .extraDataVersion version =>
    "holocene extraData should have 0 version byte, got " ++ toString version.toNat

namespace FeeParams

/-- Reads the denominator and the elasticity, four bytes each; zeros if there are not eight. -/
def decode (bytes : Bytes) : FeeParams :=
  if bytes.length = 8 then
    ⟨UInt32.ofNat (Bytes.toNat (bytes.take 4)), UInt32.ofNat (Bytes.toNat (bytes.drop 4))⟩
  else {}

/-- Reads the parameters behind a version byte of zero; zeros if they are not there. -/
def decodeExtraData (extraData : Bytes) : FeeParams :=
  match extraData with
  | 0 :: params => decode params
  | _ => {}

def isZero (p : FeeParams) : Bool := p.denominator = 0 && p.elasticity = 0

def encode (p : FeeParams) : Bytes :=
  Bytes.ofNatPadded 4 p.denominator.toNat ++ Bytes.ofNatPadded 4 p.elasticity.toNat

/-- The parameters behind a version byte of zero. -/
def encodeExtraData (p : FeeParams) : Bytes := 0 :: p.encode

/-- The greatest 32-bit number at most `n`. -/
def saturate (n : UInt64) : UInt32 := UInt32.ofNat (min n.toNat (UInt32.size - 1))

/-- The parameters of the chain in place of zeros. -/
def orChainDefaults (p : FeeParams) (config : ChainConfig) (timestamp : UInt64) : FeeParams :=
  if p.isZero then
    ⟨saturate (config.baseFeeChangeDenominator timestamp), saturate config.elasticityMultiplier⟩
  else p

/-- Accepts eight bytes with a denominator, unless all of them are zero. -/
def validate (bytes : Bytes) : Except FeeParamsError Unit :=
  if bytes.length ≠ 8 then .error (.paramsLength bytes.length)
  else
    let p := decode bytes
    if p.denominator = 0 ∧ p.elasticity ≠ 0 then .error .zeroDenominator else .ok ()

/-- Accepts valid parameters behind a version byte of zero. -/
def validateExtraData (extraData : Bytes) : Except FeeParamsError Unit :=
  match extraData with
  | version :: params =>
    if extraData.length ≠ 9 then .error (.extraDataLength extraData.length)
    else if version ≠ 0 then .error (.extraDataVersion version)
    else validate params
  | [] => .error (.extraDataLength 0)

end FeeParams

/-- The base fee of the first block that has one. -/
def initialBaseFee : U256 := 1000000000

/-- The denominator and the elasticity that decide about the block after a parent. -/
def feeParamsAfter (config : ChainConfig) (parent : Header) (timestamp : UInt64) : Nat × Nat :=
  if config.isHolocene parent.timestamp then
    let params := (FeeParams.decodeExtraData parent.extraData).orChainDefaults config timestamp
    (params.denominator.toNat, params.elasticity.toNat)
  else ((config.baseFeeChangeDenominator timestamp).toNat, config.elasticityMultiplier.toNat)

/-- The change of a base fee when gas use is off its target; no value when a product leaves 256
bits. -/
def baseFeeDelta? (baseFee gasDelta gasTarget denominator : Nat) : Option Nat :=
  if baseFee * gasDelta < U256.size then some (baseFee * gasDelta / gasTarget / denominator)
  else none

/-- The base fee of the block at `timestamp` after `parent`. -/
def nextBaseFee (config : ChainConfig) (parent : Header) (timestamp : UInt64) : Option U256 :=
  match parent.baseFeePerGas with
  | none => some initialBaseFee
  | some parentFee =>
    let (denominator, elasticity) := feeParamsAfter config parent timestamp
    let gasTarget := parent.gasLimit.toNat / max elasticity 1
    let gasUsed := parent.gasUsed.toNat
    let fee := parentFee.toNat
    if gasTarget = 0 ∨ gasUsed = gasTarget then some parentFee
    else if gasTarget < gasUsed then
      (baseFeeDelta? fee (gasUsed - gasTarget) gasTarget (max denominator 1)).map fun delta =>
        BitVec.ofNat 256 (min (fee + max delta 1) (U256.size - 1))
    else
      (baseFeeDelta? fee (gasTarget - gasUsed) gasTarget (max denominator 1)).map fun delta =>
        BitVec.ofNat 256 (fee - delta)

end EngineNode
