import EngineNode.Build.Generate
import EngineNode.Downloader

/-!
# Errors of the engine methods

Each error has a code and a fixed message; most carry a text that says more.
-/

namespace EngineNode

/-- Causes inside the node. -/
inductive InternalError where
  | missingTerminalDifficulty
  | terminalDifficultyMismatch (execution : Option U256) (consensus : U256)
  | terminalBlockMismatch
  | parentUnavailable
  | canonical (error : CanonicalError)
  | download (error : DownloadError)
  | invalidTransaction (index : Nat) (error : TransactionError)
deriving DecidableEq

/-- A terminal difficulty in a message. -/
def terminalDifficultyText : Option U256 → String
  | some difficulty => toString difficulty.toNat
  | none => "<nil>"

def InternalError.message : InternalError → String
  | .missingTerminalDifficulty => "invalid terminal total difficulty"
  | .terminalDifficultyMismatch execution consensus =>
    "invalid ttd: execution " ++ terminalDifficultyText execution ++ " consensus " ++
      toString consensus.toNat
  | .terminalBlockMismatch => "invalid terminal block hash"
  | .parentUnavailable => "parent unavailable for difficulty check"
  | .canonical error => error.message
  | .download error => error.message
  | .invalidTransaction index error =>
    "transaction " ++ toString index ++ " is not valid: " ++ error.message

/-- Why a method gives no result. -/
inductive EngineError where
  | invalidParams (details : String)
  | unknownPayload
  | invalidForkchoiceState (details : String)
  | invalidPayloadAttributes (details : String)
  | tooLargeRequest (details : String)
  | unsupportedFork (details : String)
  | internal (error : InternalError)
  /-- A number left its fixed width. -/
  | overflow
deriving DecidableEq

namespace EngineError

def code : EngineError → Int
  | .invalidParams _ => -32602
  | .internal _ | .overflow => -32603
  | .unknownPayload => -38001
  | .invalidForkchoiceState _ => -38002
  | .invalidPayloadAttributes _ => -38003
  | .tooLargeRequest _ => -38004
  | .unsupportedFork _ => -38005

def message : EngineError → String
  | .invalidParams _ => "Invalid parameters"
  | .unknownPayload => "Unknown payload"
  | .invalidForkchoiceState _ => "Invalid forkchoice state"
  | .invalidPayloadAttributes _ => "Invalid payload attributes"
  | .tooLargeRequest _ => "Too large request"
  | .unsupportedFork _ => "Unsupported fork"
  | .internal error => error.message
  | .overflow => "arithmetic overflow"

/-- What is said beside the message. -/
def details? : EngineError → Option String
  | .invalidParams details | .invalidForkchoiceState details | .invalidPayloadAttributes details
  | .tooLargeRequest details | .unsupportedFork details => some details
  | .unknownPayload | .internal _ | .overflow => none

end EngineError

end EngineNode
