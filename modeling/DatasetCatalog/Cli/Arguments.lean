import DatasetCatalog.Number.Basic

/-! # Arguments

  An argument list is read level by level: general options, a command, the options of the command,
  and its operands. A long option may be cut short as long as it is the only one that begins so,
  and may carry its value behind an equals sign; short options may share one dash. A number may be
  negative without being taken for an option, and behind two dashes nothing is an option.
-/

namespace DatasetCatalog.Cli

/-- An option of a level. -/
structure OptionSpec where
  /-- The long form, with its dashes. -/
  long : String
  /-- The letter of the short form. -/
  short : Option Char := none
  /-- A value follows. -/
  takesValue : Bool := false
  deriving DecidableEq

/-- Why an argument list is refused. -/
inductive ArgumentError where
  /-- The user asks for help. -/
  | help
  /-- The list does not fit the usage. -/
  | usage
  deriving DecidableEq

/-- The option that asks for help, which every level has. -/
def helpOption : OptionSpec := { long := "--help", short := some 'h' }

/-! ### One argument -/

/-- What an argument is to a level. -/
inductive Token where
  /-- An operand, a command or a value. -/
  | plain
  /-- The two dashes that end the options. -/
  | separator
  /-- A long option, with its value behind an equals sign. -/
  | long (spec : OptionSpec) (value : Option (List Char))
  /-- A short option, with what follows its letter. -/
  | short (spec : OptionSpec) (rest : List Char)
  /-- An option that the level does not have, or cannot tell from another one. -/
  | unknown
  deriving DecidableEq

/-- A text up to an equals sign, and the text behind it. -/
def cutAtEquals (s : List Char) : List Char × Option (List Char) :=
  (s.takeWhile (· != '='), match s.dropWhile (· != '=') with
    | [] => none
    | _ :: value => some value)

/-- Digits of any script, with a point in front of the last ones or not. -/
def isUnsigned (s : List Char) : Bool :=
  let isDigit c := (Text.digitValue? c).isSome
  match s.dropWhile isDigit with
  | [] => !s.isEmpty
  | '.' :: rest => !rest.isEmpty && rest.all isDigit
  | _ => false

/-- The long option that a text names: exactly, or as the only one that begins with it. -/
def longOption (specs : List OptionSpec) (s : List Char) : Option OptionSpec :=
  match specs.find? fun o => o.long.toList == s with
  | some o => some o
  | none => match specs.filter fun o => s.isPrefixOf o.long.toList with
    | [o] => some o
    | _ => none

/-- What a text that begins with a dash and is no known option is. -/
def undashed (s : List Char) : Token :=
  if isUnsigned (s.drop 1) || s.contains ' ' then .plain else .unknown

/-- Tells what an argument is. -/
def token (specs : List OptionSpec) (arg : String) : Token :=
  match arg.toList with
  | ['-', '-'] => .separator
  | '-' :: '-' :: name =>
    let (front, value) := cutAtEquals ('-' :: '-' :: name)
    match longOption specs front with
    | some o => .long o value
    | none => if specs.any fun o => front.isPrefixOf o.long.toList then .unknown
      else undashed arg.toList
  | '-' :: letter :: rest => match specs.find? fun o => o.short == some letter with
    | some o => .short o rest
    | none => undashed arg.toList
  | _ => .plain

/-! ### Levels -/

/-- Given options in order, with the values of those that take one. -/
abbrev Given := List (String × String)

/-- The options of short letters in a row. None of them takes a value. -/
def letters (specs : List OptionSpec) : List Char → Except ArgumentError Given
  | [] => .ok []
  | letter :: rest => match specs.find? fun o => o.short == some letter with
    | none => .error .usage
    | some o =>
      if o = helpOption then (letters specs rest).bind fun _ => .error .help
      else do return (o.long, "") :: (← letters specs rest)

/-- What an option in front of the rest of the arguments comes to: a given option, or one that
    waits for its value. -/
def takeOption (specs : List OptionSpec) : Token → Except ArgumentError (Given × Option String)
  | .long o none =>
    if o = helpOption then .error .help
    else if o.takesValue then .ok ([], some o.long) else .ok ([(o.long, "")], none)
  | .long o (some value) =>
    if o.takesValue then .ok ([(o.long, String.ofList value)], none) else .error .usage
  -- behind a short option an equals sign is passed over, but something has to follow it
  | .short _ ['='] => .error .usage
  | .short o ('=' :: rest) | .short o rest =>
    (letters specs (o.short.toList ++ rest)).map fun given => (given, none)
  | _ => .error .usage

/-- What is found at a level that ends in a command. -/
structure CommandCall where
  /-- The options in front of the command. -/
  given : Given
  /-- The command. -/
  command : String
  /-- The arguments behind the command. -/
  arguments : List String

/-- Reads options up to a command; `waiting` names an option whose value comes next. -/
def readCommand (specs : List OptionSpec) (waiting : Option String) (given : Given) :
    List String → Except ArgumentError CommandCall
  | [] => .error .usage
  | arg :: rest => match token specs arg, waiting with
    | .plain, some name => readCommand specs none (given ++ [(name, arg)]) rest
    | .plain, none => .ok ⟨given, arg, rest⟩
    | _, some _ => .error .usage
    | t, none => do
      let (more, next) ← takeOption specs t
      readCommand specs next (given ++ more) rest

/-- Where a level stands with its one operand. -/
inductive Operand where
  /-- The level has none, or options have followed it. -/
  | closed (text : Option String)
  | due
  /-- It was the last argument. -/
  | taken (text : String)
  deriving DecidableEq

namespace Operand

/-- The operand when the arguments end. -/
def final : Operand → Except ArgumentError (Option String)
  | closed text => .ok text
  | due => .error .usage
  | taken text => .ok (some text)

/-- The operand when an option follows. -/
def behindOption : Operand → Operand
  | taken text => closed (some text)
  | o => o

/-- The operand when two dashes and then the given arguments follow. -/
def behindSeparator : Operand → List String → Except ArgumentError (Option String)
  | due, [text] => .ok (some text)
  | taken text, [] => .ok (some text)
  | _, _ => .error .usage

end Operand

/-- Reads the options and the operand of a command. -/
def readOperand (specs : List OptionSpec) (waiting : Option String) (operand : Operand)
    (given : Given) : List String → Except ArgumentError (Given × Option String)
  | [] => if waiting.isSome then .error .usage else do return (given, ← operand.final)
  | arg :: rest => match token specs arg, waiting with
    | .plain, some name => readOperand specs none operand (given ++ [(name, arg)]) rest
    | _, some _ => .error .usage
    | .plain, none => match operand with
      | .due => readOperand specs none (.taken arg) given rest
      | _ => .error .usage
    | .separator, none => do return (given, ← operand.behindSeparator rest)
    | t, none => do
      let (more, next) ← takeOption specs t
      readOperand specs next operand.behindOption (given ++ more) rest

/-! ### Values -/

/-- The value of an option: the last one that is given. -/
def Given.value? (given : Given) (name : String) : Option String := given.reverse.lookup name

/-- The option is given. -/
def Given.has (given : Given) (name : String) : Bool := (given.value? name).isSome

/-- An argument as an integer. -/
def integerArgument (s : String) : Except ArgumentError Int :=
  match Numeral.integer s.toList with
  | .ok n => .ok n
  | .error _ => .error .usage

/-- The values of an option as integers, of which the last one counts. -/
def integerOption (given : Given) (name : String) : Except ArgumentError (Option Int) := do
  let values ← (given.filter (·.1 == name)).mapM fun (_, value) => integerArgument value
  return values.getLast?

end DatasetCatalog.Cli
