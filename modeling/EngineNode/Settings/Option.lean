/-!
# Options of the command line

The options by their names, and why a command line is refused.
-/

namespace EngineNode

/-- An option that takes a value. -/
inductive ValueOption where
  | network
  | chainConfig
  | httpAddress
  | httpPort
  | jwtSecret
  | httpAllowedOrigins
  | httpTimeout
  | minerGasCeil
  | minerExtraData
  | minerRecommit
  | minerMaxDaTxSize
  | minerMaxDaBlockSize
  | minerPendingFeeRecipient
  | metricsAddress
  | metricsPort
  | rollupHalt
  | features
deriving DecidableEq, Repr

namespace ValueOption

def all : List ValueOption :=
  [network, chainConfig, httpAddress, httpPort, jwtSecret, httpAllowedOrigins, httpTimeout,
    minerGasCeil, minerExtraData, minerRecommit, minerMaxDaTxSize, minerMaxDaBlockSize,
    minerPendingFeeRecipient, metricsAddress, metricsPort, rollupHalt, features]

def name : ValueOption → String
  | .network => "network"
  | .chainConfig => "chain-config"
  | .httpAddress => "http-address"
  | .httpPort => "http-port"
  | .jwtSecret => "jwt-secret"
  | .httpAllowedOrigins => "http-allowed-origins"
  | .httpTimeout => "http-timeout"
  | .minerGasCeil => "miner-gas-ceil"
  | .minerExtraData => "miner-extra-data"
  | .minerRecommit => "miner-recommit"
  | .minerMaxDaTxSize => "miner-max-da-tx-size"
  | .minerMaxDaBlockSize => "miner-max-da-block-size"
  | .minerPendingFeeRecipient => "miner-pending-fee-recipient"
  | .metricsAddress => "metrics-address"
  | .metricsPort => "metrics-port"
  | .rollupHalt => "rollup-halt"
  | .features => "features"

/-- What an option is for. -/
def description : ValueOption → String
  | .network => "Name of the built-in chain to run"
  | .chainConfig => "Load the chain configuration from a file in YAML"
  | .httpAddress => "Engine API address"
  | .httpPort => "Engine API port"
  | .jwtSecret => "File with the secret that is shared with the consensus client"
  | .httpAllowedOrigins => "Origins that may send requests, with commas between them"
  | .httpTimeout => "Time for a request in milliseconds"
  | .minerGasCeil => "Gas limit to aim at where the consensus client sets none"
  | .minerExtraData => "Extra data of the blocks that are built"
  | .minerRecommit => "Milliseconds between two attempts to improve a payload"
  | .minerMaxDaTxSize => "Limit on the published size of a transaction, 0 for none"
  | .minerMaxDaBlockSize => "Limit on the published size of a block, 0 for none"
  | .minerPendingFeeRecipient => "Fee recipient of the pending block"
  | .metricsAddress => "Address of the metrics server"
  | .metricsPort => "Port of the metrics server"
  | .rollupHalt => "Halt when a required protocol version is this far ahead: major, minor, patch"
  | .features => "Optional features to enable, with commas between them"

end ValueOption

/-- An option without a value. -/
inductive Switch where
  | rollupComputePendingBlock
  | metrics
  | alwaysWriteStyle
  | help
  | version
deriving DecidableEq, Repr

namespace Switch

def all : List Switch := [rollupComputePendingBlock, metrics, alwaysWriteStyle, help, version]

def name : Switch → String
  | .rollupComputePendingBlock => "rollup-compute-pending-block"
  | .metrics => "metrics"
  | .alwaysWriteStyle => "always-write-style"
  | .help => "help"
  | .version => "version"

/-- What an option is for. -/
def description : Switch → String
  | .rollupComputePendingBlock => "Build the pending block from the pool on rollup chains too"
  | .metrics => "Collect metrics"
  | .alwaysWriteStyle => "Write colored logs even when not writing to a terminal"
  | .help => "Print help"
  | .version => "Print version"

/-- The options that have a short form too. -/
def ofLetter? : Char → Option Switch
  | 'h' => some .help
  | 'V' => some .version
  | _ => none

end Switch

/-- The options with what they are for, one a line. -/
def usage : String :=
  let line (form description : String) : String := "  --" ++ form ++ "\n          " ++ description
  String.intercalate "\n" <|
    ["Options:"] ++
    (ValueOption.all.map fun option => line (option.name ++ " <VALUE>") option.description) ++
    Switch.all.map fun switch => line switch.name switch.description

/-- Why a command line is not accepted, or is not run. -/
inductive UsageError where
  | help
  | version
  | unknownArgument (argument : String)
  /-- A value behind a sign of equality, for an option that takes none. -/
  | unexpectedValue (switch : Switch)
  | missingValue (option : ValueOption)
  /-- A name that is none of those which can be chosen. -/
  | unknownChoice (option : ValueOption) (value : String)
  | malformedValue (option : ValueOption) (value : String)
  | repeated (name : String)
deriving DecidableEq, Repr

namespace UsageError

def message : UsageError → String
  | .help => "help"
  | .version => "version"
  | .unknownArgument argument => "unexpected argument '" ++ argument ++ "' found"
  | .unexpectedValue switch => "unexpected value for '--" ++ switch.name ++ "' found"
  | .missingValue option =>
    "a value is required for '--" ++ option.name ++ "' but none was supplied"
  | .unknownChoice option value | .malformedValue option value =>
    "invalid value '" ++ value ++ "' for '--" ++ option.name ++ "'"
  | .repeated name => "the argument '--" ++ name ++ "' cannot be used multiple times"

end UsageError

end EngineNode
