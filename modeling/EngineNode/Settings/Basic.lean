import EngineNode.Build.MinerConfig
import EngineNode.Log
import EngineNode.Settings.CommandLine
import EngineNode.Settings.ChainFile
import EngineNode.Text.Quoted

/-!
# Settings of the program

What the arguments of the command line and the file that they may name add up to, and what the
program reports about it when it starts.
-/

namespace EngineNode

/-- How the program is set up. -/
structure Settings where
  chain : ChainConfig
  httpAddress : SocketAddress
  allowedOrigins : List String
  /-- The milliseconds for a request, if they are limited. -/
  timeout : Option UInt64
  secretFile : String
  miner : MinerConfig
  /-- Where metrics are served, if they are collected. -/
  metricsAddress : Option SocketAddress
  haltLevel : Option HaltLevel
  features : List Feature
  alwaysWriteStyle : Bool
deriving DecidableEq

/-- Why arguments that were understood cannot be followed. -/
inductive SettingsError where
  /-- The file of the configuration cannot be read. -/
  | unreadable (path : String)
  | malformed (path : String)
  | config (error : ConfigError)
  | zeroRecommit
deriving DecidableEq, Repr

def SettingsError.message : SettingsError → String
  | .unreadable path => "failed to open file '" ++ path ++ "'"
  | .malformed path => "malformed chain configuration in '" ++ path ++ "'"
  | .config error => error.message
  | .zeroRecommit => "--miner-recommit must be greater than zero"

namespace Arguments

/-- The configuration of the file, if one is named, or that of the network. `file` is what the
file holds, if it can be read. -/
def chain (args : Arguments) (file : Option String) : Except SettingsError ChainConfig :=
  match args.chainConfig, file with
  | none, _ => .ok (args.network.getD .optimismDevnet).config
  | some path, none => .error (.unreadable path)
  | some path, some text =>
    match ChainConfig.ofYaml? text with
    | some config => .ok config
    | none => .error (.malformed path)

/-- The settings of the builder, apart from the time between two attempts. -/
def miner (args : Arguments) (recommit : UInt64) : MinerConfig :=
  let default : MinerConfig := {}
  { pendingFeeRecipient := args.pendingFeeRecipient.getD default.pendingFeeRecipient
    extraData := args.extraData.getD default.extraData
    gasCeil := args.gasCeil.getD default.gasCeil
    recommit := recommit.toNat
    computePendingBlock := args.computePendingBlock
    maxTransactionSize := args.maxTransactionSize.filter (0 < ·)
    maxBlockSize := args.maxBlockSize.filter (0 < ·) }

/-- Settings are checked in order: the chain comes before the builder. -/
def settings (args : Arguments) (file : Option String) : Except SettingsError Settings := do
  let chain ← args.chain file
  match chain.validate with
  | .error error => throw (.config error)
  | .ok _ => pure ()
  let recommit := args.recommit.getD 2000
  if recommit = 0 then throw .zeroRecommit
  return {
    chain
    httpAddress := ⟨args.httpAddress.getD .localhost, args.httpPort.getD 8551⟩
    allowedOrigins := args.allowedOrigins
    timeout := args.timeout
    secretFile := args.jwtSecret.getD "jwt.hex"
    miner := args.miner recommit
    metricsAddress :=
      if args.metrics then
        some ⟨args.metricsAddress.getD .localhost, args.metricsPort.getD 6060⟩
      else none
    haltLevel := args.haltLevel
    features := args.features
    alwaysWriteStyle := args.alwaysWriteStyle }

end Arguments

/-! ### The report -/

/-- The name of a file in quotes; quotes of both kinds are escaped in it. -/
def quotedPath (path : String) : String :=
  String.ofList ('"' :: path.toList.flatMap escape ++ ['"'])
where
  escape (c : Char) : List Char := if c = '\'' then ['\\', c] else Text.escapeChar '"' c

/-- Milliseconds, or seconds with the digits behind the point that are needed. -/
def durationText (ms : Nat) : String :=
  if ms < 1000 then toString ms ++ "ms"
  else
    let digits := [ms / 100 % 10, ms / 10 % 10, ms % 10]
    let digits := (digits.reverse.dropWhile (· = 0)).reverse
    let fraction :=
      if digits.isEmpty then "" else "." ++ String.join (digits.map toString)
    toString (ms / 1000) ++ fraction ++ "s"

namespace Settings

/-- What is logged about the features that are turned on. -/
def featureReport (settings : Settings) : List LogEntry :=
  settings.features.map fun feature => ⟨.info, "enabling feature: " ++ feature.name⟩

/-- What is logged about the settings. -/
def report (settings : Settings) : List LogEntry :=
  let chain := settings.chain
  let miner := settings.miner
  List.map (⟨.info, ·⟩) <|
    ["chain: " ++ chain.name ++ " (chain ID: " ++ toString chain.chainId.toNat ++ ", optimism: " ++
        (if chain.isRollup then "true" else "false") ++ ")",
      "Engine API address: " ++ settings.httpAddress.toText,
      "JWT secret file: " ++ quotedPath settings.secretFile,
      "miner: gas ceil " ++ toString miner.gasCeil.toNat ++ ", recommit " ++
        durationText miner.recommit ++ ", extra data " ++ toString miner.extraData.length ++
        " bytes"] ++
    (settings.metricsAddress.map fun address => "metrics address: " ++ address.toText).toList ++
    [match settings.haltLevel with
      | some level => "halting on " ++ level.name ++ " protocol version changes"
      | none => "not halting on protocol version changes"]

end Settings

end EngineNode
