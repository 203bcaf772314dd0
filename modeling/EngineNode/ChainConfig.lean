import EngineNode.Fork
import EngineNode.Wire.Hex

/-!
# Chain configuration

When the forks of a chain activate and which parameters its fee market has. Rollup chains have an
own section with fee parameters and three upgrades of their own.

`ChainConfig.validate` says which configurations are consistent.
-/

namespace EngineNode

/-- The fee market of a rollup chain. -/
structure RollupConfig where
  elasticity : UInt64 := 6
  denominator : UInt64 := 50
  denominatorCanyon : Option UInt64 := some 250
deriving DecidableEq

/-- The configuration of a chain. Forks without a time are not scheduled. -/
structure ChainConfig where
  name : String := "default"
  chainId : UInt64 := 1
  terminalTotalDifficulty : Option U256 := none
  shanghaiTime : Option UInt64 := none
  cancunTime : Option UInt64 := none
  pragueTime : Option UInt64 := none
  osakaTime : Option UInt64 := none
  canyonTime : Option UInt64 := none
  holoceneTime : Option UInt64 := none
  isthmusTime : Option UInt64 := none
  rollup : Option RollupConfig := none
deriving DecidableEq

/-- An upgrade of rollup chains. -/
inductive Upgrade where
  | canyon
  | holocene
  | isthmus
deriving DecidableEq, Repr

namespace Upgrade

def all : List Upgrade := [canyon, holocene, isthmus]

def name : Upgrade → String
  | .canyon => "canyon"
  | .holocene => "holocene"
  | .isthmus => "isthmus"

end Upgrade

/-- What is wrong with a configuration. -/
inductive ConfigError where
  | nameEmpty
  | nameContainsIllegalCharacters
  | scheduledAfterUnscheduled (fork previous : Fork)
  | forkOutOfOrder (fork previous : Fork)
  | upgradeOutOfOrder (upgrade previous : Upgrade)
  | upgradeWithoutRollup
  | canyonDenominatorMissing
deriving DecidableEq, Repr

def ConfigError.message : ConfigError → String
  | .nameEmpty => "configuration name is empty"
  | .nameContainsIllegalCharacters => "configuration name contains illegal characters"
  | .scheduledAfterUnscheduled fork previous =>
    fork.name ++ " is scheduled but " ++ previous.name ++ " is not"
  | .forkOutOfOrder fork previous => fork.name ++ " activates before " ++ previous.name
  | .upgradeOutOfOrder upgrade previous => upgrade.name ++ " activates before " ++ previous.name
  | .upgradeWithoutRollup => "OP Stack upgrades are scheduled without an OPTIMISM section"
  | .canyonDenominatorMissing =>
    "Canyon is scheduled but EIP1559_DENOMINATOR_CANYON is missing or zero"

namespace ChainConfig

/-! ### Networks that are known by name -/

def opMainnet : ChainConfig where
  name := "op-mainnet"
  chainId := 10
  terminalTotalDifficulty := some 0
  shanghaiTime := some 1704992401
  cancunTime := some 1710374401
  pragueTime := some 1746806401
  canyonTime := some 1704992401
  holoceneTime := some 1736445601
  isthmusTime := some 1746806401
  rollup := some {}

def ethereumMainnet : ChainConfig where
  name := "mainnet"
  chainId := 1
  terminalTotalDifficulty := some 58750000000000000000000
  shanghaiTime := some 1681338455
  cancunTime := some 1710338135
  pragueTime := some 1746612311

/-- A rollup network with every fork up to Prague and every upgrade active from the start. -/
def optimismDevnet : ChainConfig where
  name := "optimism-devnet"
  chainId := 901
  terminalTotalDifficulty := some 0
  shanghaiTime := some 0
  cancunTime := some 0
  pragueTime := some 0
  canyonTime := some 0
  holoceneTime := some 0
  isthmusTime := some 0
  rollup := some { elasticity := 50, denominator := 10, denominatorCanyon := some 250 }

/-- A network with every fork up to Prague active from the start. -/
def ethereumDevnet : ChainConfig where
  name := "ethereum-devnet"
  chainId := 1337
  terminalTotalDifficulty := some 0
  shanghaiTime := some 0
  cancunTime := some 0
  pragueTime := some 0

/-! ### Activation -/

/-- When a fork activates; Paris has no time of its own and counts from the start. -/
def forkTime (config : ChainConfig) : Fork → Option UInt64
  | .paris => some 0
  | .shanghai => config.shanghaiTime
  | .cancun => config.cancunTime
  | .prague => config.pragueTime
  | .osaka => config.osakaTime

def upgradeTime (config : ChainConfig) : Upgrade → Option UInt64
  | .canyon => config.canyonTime
  | .holocene => config.holoceneTime
  | .isthmus => config.isthmusTime

/-- Whether something that activates at a time, or never, is active. -/
def isActive (activation : Option UInt64) (time : UInt64) : Bool :=
  activation.any (· ≤ time)

def isForkActive (config : ChainConfig) (fork : Fork) (time : UInt64) : Bool :=
  isActive (config.forkTime fork) time

/-- The newest fork that is active at a time. -/
def latestFork (config : ChainConfig) (time : UInt64) : Fork :=
  (Fork.all.reverse.find? fun fork => config.isForkActive fork time).getD .paris

def isShanghai (config : ChainConfig) (time : UInt64) : Bool := isActive config.shanghaiTime time

def isCancun (config : ChainConfig) (time : UInt64) : Bool := isActive config.cancunTime time

def isPrague (config : ChainConfig) (time : UInt64) : Bool := isActive config.pragueTime time

def isOsaka (config : ChainConfig) (time : UInt64) : Bool := isActive config.osakaTime time

def isRollup (config : ChainConfig) : Bool := config.rollup.isSome

/-- Upgrades count on rollup chains only. -/
def isUpgradeActive (config : ChainConfig) (upgrade : Upgrade) (time : UInt64) : Bool :=
  config.isRollup && isActive (config.upgradeTime upgrade) time

def isCanyon (config : ChainConfig) (time : UInt64) : Bool := config.isUpgradeActive .canyon time

def isHolocene (config : ChainConfig) (time : UInt64) : Bool :=
  config.isUpgradeActive .holocene time

def isIsthmus (config : ChainConfig) (time : UInt64) : Bool := config.isUpgradeActive .isthmus time

/-! ### Fee parameters -/

/-- By how much of itself the base fee may change from block to block, before blocks set it
themselves. -/
def baseFeeChangeDenominator (config : ChainConfig) (time : UInt64) : UInt64 :=
  match config.rollup with
  | some rollup =>
    if config.isCanyon time then
      (rollup.denominatorCanyon.filter (· ≠ 0)).getD rollup.denominator
    else rollup.denominator
  | none => 8

/-- How many times the gas target fits in the gas limit. -/
def elasticityMultiplier (config : ChainConfig) : UInt64 :=
  match config.rollup with
  | some rollup => rollup.elasticity
  | none => 2

/-! ### Consistency -/

/-- The letters of a name. -/
def isNameCharacter (c : Char) : Bool :=
  ('a' ≤ c && c ≤ 'z') || ('0' ≤ c && c ≤ '9') || c = '-'

/-- Each fork is scheduled only after the one before it, and not for an earlier time. -/
def checkForks (config : ChainConfig) : (previous : Fork) → List Fork → Except ConfigError Unit
  | _, [] => .ok ()
  | previous, fork :: rest =>
    match config.forkTime previous, config.forkTime fork with
    | none, some _ => .error (.scheduledAfterUnscheduled fork previous)
    | some earlier, some time =>
      if time < earlier then .error (.forkOutOfOrder fork previous) else checkForks config fork rest
    | _, none => checkForks config fork rest

/-- Each upgrade is scheduled only together with the one before it, and not for an earlier time. -/
def checkUpgrades (config : ChainConfig) :
    (previous : Upgrade) → List Upgrade → Except ConfigError Unit
  | _, [] => .ok ()
  | previous, upgrade :: rest =>
    match config.upgradeTime previous, config.upgradeTime upgrade with
    | none, some _ => .error (.upgradeOutOfOrder upgrade previous)
    | some earlier, some time =>
      if time < earlier then .error (.upgradeOutOfOrder upgrade previous)
      else checkUpgrades config upgrade rest
    | _, none => checkUpgrades config upgrade rest

/-- Accepts consistent configurations, or says what is wrong first. -/
def validate (config : ChainConfig) : Except ConfigError Unit := do
  if config.name.isEmpty then throw .nameEmpty
  unless config.name.toList.all isNameCharacter do throw .nameContainsIllegalCharacters
  config.checkForks .paris [.shanghai, .cancun, .prague, .osaka]
  match config.rollup with
  | none =>
    if Upgrade.all.any fun upgrade => (config.upgradeTime upgrade).isSome then
      throw .upgradeWithoutRollup
  | some rollup =>
    if config.canyonTime.isSome ∧ rollup.denominatorCanyon.getD 0 = 0 then
      throw .canyonDenominatorMissing
  config.checkUpgrades .canyon [.holocene, .isthmus]

/-! ### JSON -/

def word (n : UInt64) : Json := .number (.nat n)

end ChainConfig

namespace RollupConfig

def toJson (rollup : RollupConfig) : Json :=
  .obj [
    ("EIP1559_ELASTICITY", ChainConfig.word rollup.elasticity),
    ("EIP1559_DENOMINATOR", ChainConfig.word rollup.denominator),
    ("EIP1559_DENOMINATOR_CANYON", .ofOption ChainConfig.word rollup.denominatorCanyon)]

def record : RecordDecoder RollupConfig :=
  RollupConfig.mk <$> .defaulted "EIP1559_ELASTICITY" Decoder.word 6
    <*> .defaulted "EIP1559_DENOMINATOR" Decoder.word 50
    <*> .defaulted "EIP1559_DENOMINATOR_CANYON" (Decoder.nullable Decoder.word) (some 250)

/-- Fields that are missing have their values by default. -/
def decode : Decoder RollupConfig := record.decode "OptimismConfig"

end RollupConfig

namespace ChainConfig

def toJson (config : ChainConfig) : Json :=
  .obj [
    ("CONFIG_NAME", .str config.name),
    ("CHAIN_ID", word config.chainId),
    ("TERMINAL_TOTAL_DIFFICULTY", .ofOption Wire.encodeU256 config.terminalTotalDifficulty),
    ("SHANGHAI_TIME", .ofOption word config.shanghaiTime),
    ("CANCUN_TIME", .ofOption word config.cancunTime),
    ("PRAGUE_TIME", .ofOption word config.pragueTime),
    ("OSAKA_TIME", .ofOption word config.osakaTime),
    ("CANYON_TIME", .ofOption word config.canyonTime),
    ("HOLOCENE_TIME", .ofOption word config.holoceneTime),
    ("ISTHMUS_TIME", .ofOption word config.isthmusTime),
    ("OPTIMISM", .ofOption RollupConfig.toJson config.rollup)]

/-- A time that may be null or missing. -/
def timeField (name : String) : RecordDecoder (Option UInt64) :=
  .defaulted name (Decoder.nullable Decoder.word) none

def record : RecordDecoder ChainConfig :=
  ChainConfig.mk <$> .defaulted "CONFIG_NAME" Decoder.string "default"
    <*> .defaulted "CHAIN_ID" Decoder.word 1
    <*> .defaulted "TERMINAL_TOTAL_DIFFICULTY" (Decoder.nullable Wire.decodeU256) none
    <*> timeField "SHANGHAI_TIME" <*> timeField "CANCUN_TIME" <*> timeField "PRAGUE_TIME"
    <*> timeField "OSAKA_TIME" <*> timeField "CANYON_TIME" <*> timeField "HOLOCENE_TIME"
    <*> timeField "ISTHMUS_TIME"
    <*> .defaulted "OPTIMISM" (Decoder.nullable RollupConfig.decode) none

/-- Fields that are missing have their values by default. -/
def decode : Decoder ChainConfig := record.decode "Config"

end ChainConfig

end EngineNode
