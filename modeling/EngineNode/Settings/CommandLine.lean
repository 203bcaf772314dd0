import EngineNode.Settings.Arguments

/-!
# Reading the command line

Options start with two hyphens; a value stands behind them or behind a sign of equality. What a
value means is looked at when the next option or the end is reached, so an argument that is not
known is reported before a value that stands in front of it.
-/

namespace EngineNode

/-- An option whose value is not read yet. -/
inductive Pending where
  | none
  /-- The value has not been given. -/
  | waiting (option : ValueOption)
  | given (option : ValueOption) (value : String)
deriving DecidableEq, Repr

/-- The arguments so far. -/
structure ArgumentReader where
  arguments : Arguments := {}
  pending : Pending := .none
  /-- No options follow. -/
  ended : Bool := false
deriving DecidableEq

namespace ArgumentReader

/-- The arguments together with the option that is not read yet. -/
def settle (reader : ArgumentReader) : Except UsageError Arguments :=
  match reader.pending with
  | .none => .ok reader.arguments
  | .waiting option => .error (.missingValue option)
  | .given option value => reader.arguments.set option value

/-- An option by its name and the value behind a sign of equality. -/
def long (reader : ArgumentReader) (argument name : String) (value : Option String) :
    Except UsageError ArgumentReader := do
  match ValueOption.all.find? (·.name = name), Switch.all.find? (·.name = name), value with
  | some option, _, some value => return { arguments := ← (← reader.settle).set option value }
  | some option, _, none => return { arguments := ← reader.settle, pending := .waiting option }
  | none, some switch, none => return { arguments := ← (← reader.settle).enable switch }
  | none, some switch, some _ => throw (.unexpectedValue switch)
  | none, none, _ => throw (.unknownArgument argument)

/-- An option by its letter; letters behind the first one are not reached, because it stops the
reading. -/
def short (reader : ArgumentReader) (argument : String) (letter : Char) :
    Except UsageError ArgumentReader := do
  match Switch.ofLetter? letter with
  | some switch => return { arguments := ← (← reader.settle).enable switch }
  | none => throw (.unknownArgument argument)

/-- A value, which must be waited for. -/
def plain (reader : ArgumentReader) (argument : String) : Except UsageError ArgumentReader :=
  match reader.pending with
  | .waiting option => .ok { reader with pending := .given option argument }
  | _ => .error (.unknownArgument argument)

/-- Reads one argument. -/
def step (reader : ArgumentReader) (argument : String) : Except UsageError ArgumentReader :=
  if reader.ended then .error (.unknownArgument argument)
  else
    match argument.toList with
    | ['-', '-'] => .ok { reader with ended := true }
    | '-' :: '-' :: chars =>
      let name := String.ofList (chars.takeWhile (· ≠ '='))
      match chars.dropWhile (· ≠ '=') with
      | [] => reader.long argument name none
      | _ :: value => reader.long argument name (some (String.ofList value))
    | '-' :: letter :: _ => reader.short argument letter
    | _ => reader.plain argument

end ArgumentReader

/-- The arguments of a command line. -/
def Arguments.parse (arguments : List String) : Except UsageError Arguments := do
  (← arguments.foldlM ArgumentReader.step {}).settle

end EngineNode
