import DatasetCatalog.Cli.Arguments

/-! # Commands

  The commands of the program with their options, and how an argument list names one.
-/

namespace DatasetCatalog.Cli

/-- A command with its options. -/
inductive Command where
  | tags
  | list (tag filter : Option String) (limit : Option Int)
  | describe (dataset : Int) (attributes : Bool)
  | load (dataset : Int) (auto : Bool) (output : Option String) (lenient : Bool)
  | cacheInfo
  | cachePrune (maxBytes : Int)
  | cacheClear
  deriving DecidableEq

/-- A command with the general options. -/
structure Invocation where
  /-- Only warnings and errors are told. -/
  warningsOnly : Bool
  /-- Only errors are told. -/
  errorsOnly : Bool
  /-- The path of a settings file. -/
  settings : Option String
  /-- The command. -/
  command : Command
  deriving DecidableEq

/-- A text that is not empty. -/
def nonEmpty? : Option String → Option String
  | some "" => none
  | text => text

/-- The options in front of the command. -/
def generalOptions : List OptionSpec :=
  [helpOption, { long := "--verbose", short := some 'v' }, { long := "--warnings-only" },
   { long := "--errors-only" }, { long := "--settings", takesValue := true }]

/-- Reads a command without an operand. -/
def readPlain (specs : List OptionSpec) (args : List String) : Except ArgumentError Given := do
  return (← readOperand (helpOption :: specs) none (.closed none) [] args).1

/-- Reads a command whose operand is a data set. -/
def readDataset (specs : List OptionSpec) (args : List String) :
    Except ArgumentError (Given × Int) := do
  let (given, operand) ← readOperand (helpOption :: specs) none .due [] args
  return (given, ← integerArgument (operand.getD ""))

/-- Reads a command on the cache. -/
def readCache (args : List String) : Except ArgumentError Command := do
  let call ← readCommand [helpOption] none [] args
  match call.command with
  | "info" =>
    let _ ← readPlain [] call.arguments
    return .cacheInfo
  | "prune" =>
    let given ← readPlain [{ long := "--max-bytes", takesValue := true }] call.arguments
    match ← integerOption given "--max-bytes" with
    | some n => return .cachePrune n
    | none => throw .usage
  | "clear" =>
    let _ ← readPlain [] call.arguments
    return .cacheClear
  | _ => throw .usage

/-- Reads the arguments behind a command. -/
def Command.ofArguments (name : String) (args : List String) : Except ArgumentError Command := do
  match name with
  | "tags" =>
    let _ ← readPlain [] args
    return .tags
  | "list" =>
    let given ← readPlain [{ long := "--tag", takesValue := true },
      { long := "--filter", takesValue := true }, { long := "--limit", takesValue := true }] args
    return .list (given.value? "--tag") (given.value? "--filter")
      (← integerOption given "--limit")
  | "describe" =>
    let (given, id) ← readDataset [{ long := "--attributes" }] args
    return .describe id (given.has "--attributes")
  | "load" =>
    let (given, id) ← readDataset [{ long := "--auto" },
      { long := "--output", takesValue := true }, { long := "--lenient" }] args
    return .load id (given.has "--auto") (nonEmpty? (given.value? "--output"))
      (given.has "--lenient")
  | "cache" => readCache args
  | _ => throw .usage

/-- Reads an argument list. -/
def Invocation.ofArguments (args : List String) : Except ArgumentError Invocation := do
  let call ← readCommand generalOptions none [] args
  let command ← Command.ofArguments call.command call.arguments
  return {
    warningsOnly := call.given.has "--warnings-only", errorsOnly := call.given.has "--errors-only"
    settings := nonEmpty? (call.given.value? "--settings"), command }

/-- The usage of the program. -/
def usage : String :=
  "usage: [-v] [--warnings-only] [--errors-only] [--settings FILE] COMMAND\n" ++
  "  tags\n" ++
  "  list [--tag TAG] [--filter PATH] [--limit N]\n" ++
  "  describe DATASET [--attributes]\n" ++
  "  load DATASET [--auto] [--output FILE] [--lenient]\n" ++
  "  cache info | cache prune --max-bytes N | cache clear\n"

end DatasetCatalog.Cli
