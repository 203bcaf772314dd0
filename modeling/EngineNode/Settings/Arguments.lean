import EngineNode.Engine.Halt
import EngineNode.Features
import EngineNode.Header
import EngineNode.Settings.Address
import EngineNode.Settings.Network
import EngineNode.Settings.Option

/-!
# Arguments

What a command line asks for, and how the values of its options are written. `Arguments.set` reads
every value, and refuses a second one where only one can be given.
-/

namespace EngineNode

/-- What a command line asks for. -/
structure Arguments where
  network : Option Network := none
  chainConfig : Option String := none
  httpAddress : Option IpAddress := none
  httpPort : Option UInt16 := none
  jwtSecret : Option String := none
  allowedOrigins : List String := []
  timeout : Option UInt64 := none
  gasCeil : Option UInt64 := none
  extraData : Option Bytes := none
  recommit : Option UInt64 := none
  maxTransactionSize : Option UInt64 := none
  maxBlockSize : Option UInt64 := none
  pendingFeeRecipient : Option Address := none
  computePendingBlock : Bool := false
  metrics : Bool := false
  metricsAddress : Option IpAddress := none
  metricsPort : Option UInt16 := none
  haltLevel : Option HaltLevel := none
  features : List Feature := []
  alwaysWriteStyle : Bool := false
deriving DecidableEq

namespace Arguments

/-! ### Values -/

/-- One or more decimal digits. -/
def digits? (chars : List Char) : Option Nat :=
  if chars.isEmpty || !chars.all Char.isDigit then none
  else some (chars.foldl (fun n c => 10 * n + (c.toNat - '0'.toNat)) 0)

/-- A number that is not negative. A plus sign may stand in front of it. -/
def natural? (chars : List Char) : Option Nat :=
  match chars with
  | '+' :: rest => digits? rest
  | _ => digits? chars

def word? (value : String) : Option UInt64 := do
  let n ← natural? value.toList
  if n < UInt64.size then some (UInt64.ofNat n) else none

/-- A port. Zero may have a minus sign. -/
def port? (value : String) : Option UInt16 := do
  match value.toList with
  | '-' :: digits => if (← digits? digits) = 0 then some 0 else none
  | chars =>
    let n ← natural? chars
    if n < UInt16.size then some (UInt16.ofNat n) else none

/-- An address of an account. The mark may be missing, and blanks are passed over. -/
def account? (value : String) : Option Address := do
  let digits :=
    match value.toList with
    | '0' :: 'x' :: rest => rest
    | chars => chars
  let isBlank (c : Char) : Bool := c = ' ' || c = '\r' || c = '\n' || c = '\t'
  FixedBytes.ofBytes? 20 (← Hex.decodePairs? (digits.filter fun c => !isBlank c))

/-- The bytes of a text that is not too long. -/
def extraData? (value : String) : Option Bytes :=
  let bytes := value.toUTF8.toList
  if bytes.length ≤ maximumExtraDataSize then some bytes else none

/-- The items of a list. -/
def items (value : String) : List String := value.splitOn ","

/-- Reads the value of an option that has none yet; `fault` says what is wrong with a value that
cannot be read. -/
def onceOr {α : Type} (fault : UsageError) (option : ValueOption) (value : String)
    (given : Option α) (read? : String → Option α) : Except UsageError (Option α) :=
  match given, read? value with
  | some _, _ => .error (.repeated option.name)
  | none, some read => .ok (some read)
  | none, none => .error fault

def once {α : Type} (option : ValueOption) (value : String) :
    (given : Option α) → (read? : String → Option α) → Except UsageError (Option α) :=
  onceOr (.malformedValue option value) option value

/-- The name of a file, which is not empty. -/
def path? (value : String) : Option String := if value.isEmpty then none else some value

/-- Gives an option a value. -/
def set (args : Arguments) (option : ValueOption) (value : String) :
    Except UsageError Arguments := do
  match option with
  | .network =>
    return { args with
      network := ←
        onceOr (.unknownChoice option value) option value args.network Network.ofName? }
  | .chainConfig =>
    return { args with
      chainConfig := ← onceOr (.missingValue option) option value args.chainConfig path? }
  | .httpAddress =>
    return { args with httpAddress := ← once option value args.httpAddress IpAddress.ofText? }
  | .httpPort => return { args with httpPort := ← once option value args.httpPort port? }
  | .jwtSecret =>
    return { args with
      jwtSecret := ← onceOr (.missingValue option) option value args.jwtSecret path? }
  | .httpAllowedOrigins => return { args with allowedOrigins := args.allowedOrigins ++ items value }
  | .httpTimeout => return { args with timeout := ← once option value args.timeout word? }
  | .minerGasCeil => return { args with gasCeil := ← once option value args.gasCeil word? }
  | .minerExtraData =>
    return { args with extraData := ← once option value args.extraData extraData? }
  | .minerRecommit => return { args with recommit := ← once option value args.recommit word? }
  | .minerMaxDaTxSize =>
    return { args with
      maxTransactionSize := ← once option value args.maxTransactionSize word? }
  | .minerMaxDaBlockSize =>
    return { args with maxBlockSize := ← once option value args.maxBlockSize word? }
  | .minerPendingFeeRecipient =>
    return { args with
      pendingFeeRecipient := ← once option value args.pendingFeeRecipient account? }
  | .metricsAddress =>
    return { args with metricsAddress := ← once option value args.metricsAddress IpAddress.ofText? }
  | .metricsPort => return { args with metricsPort := ← once option value args.metricsPort port? }
  | .rollupHalt =>
    return { args with haltLevel := ← once option value args.haltLevel HaltLevel.ofName? }
  | .features =>
    match (items value).mapM Feature.ofName? with
    | some features => return { args with features := args.features ++ features }
    | none => throw (.malformedValue option value)

/-- Turns on what is off. -/
def turnOn (switch : Switch) (given : Bool) : Except UsageError Bool :=
  if given then .error (.repeated switch.name) else .ok true

/-- Sets an option without a value. -/
def enable (args : Arguments) (switch : Switch) : Except UsageError Arguments := do
  match switch with
  | .rollupComputePendingBlock =>
    return { args with computePendingBlock := ← turnOn switch args.computePendingBlock }
  | .metrics => return { args with metrics := ← turnOn switch args.metrics }
  | .alwaysWriteStyle =>
    return { args with alwaysWriteStyle := ← turnOn switch args.alwaysWriteStyle }
  | .help => throw .help
  | .version => throw .version

end Arguments

end EngineNode
