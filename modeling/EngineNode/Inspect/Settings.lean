import EngineNode.Inspect.Build
import EngineNode.Settings.Basic

/-!
# Settings in JSON
-/

namespace EngineNode

/-- A message with its level. -/
def LogEntry.toJson (entry : LogEntry) : Json := .arr [.str entry.level.name, .str entry.message]

/-- The kind of a complaint about a command line. -/
def UsageError.kind : UsageError → String
  | .help => "DisplayHelp"
  | .version => "DisplayVersion"
  | .unknownArgument _ => "UnknownArgument"
  | .unexpectedValue _ => "TooManyValues"
  | .missingValue _ | .unknownChoice .. => "InvalidValue"
  | .malformedValue .. => "ValueValidation"
  | .repeated _ => "ArgumentConflict"

/-- Settings with what is logged about them. -/
def Settings.toJson (settings : Settings) : Json :=
  .obj [
    ("chain", settings.chain.toJson), ("httpAddress", .str settings.httpAddress.toText),
    ("allowedOrigins", .ofList .str settings.allowedOrigins),
    ("timeoutMs", .ofOption ChainConfig.word settings.timeout),
    ("jwtSecretPath", .str settings.secretFile), ("miner", settings.miner.toJson),
    ("metrics", .bool settings.metricsAddress.isSome),
    ("metricsAddress", .ofOption (fun address => .str address.toText) settings.metricsAddress),
    ("haltLevel", .ofOption (fun level => .str level.name) settings.haltLevel),
    ("alwaysWriteStyle", .bool settings.alwaysWriteStyle),
    ("logs", .ofList LogEntry.toJson (settings.featureReport ++ settings.report))]

end EngineNode
