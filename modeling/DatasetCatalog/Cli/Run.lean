import DatasetCatalog.Cli.Command
import DatasetCatalog.Report

/-! # Running commands

  A command resolves the settings, works over a connection that is closed when it ends, and prints
  its result. Errors that have a report are told and become an exit code: two, or three when the
  settings are at fault. Every other error ends the program.
-/

namespace DatasetCatalog.Cli

open Catalog

/-- What a command finds around it. -/
structure Surroundings where
  /-- The home directories that are known. -/
  homes : Path.Homes
  /-- The variables of the environment. -/
  environment : Environment
  /-- The network. -/
  transport : Transport
  /-- The reader of settings files. -/
  yaml : String → YamlReading
  /-- The libraries of data frames. -/
  libraries : FrameLibraries

/-- An error of a command. -/
inductive Failure where
  | settings (e : SettingsError)
  | client (e : ClientError)
  | load (e : LoadError)
  | cache (e : Cache.CacheError)
  /-- A file of the user cannot be written. -/
  | file (fault : FileFault)
  /-- A library of data frames has failed. -/
  | foreign (e : ForeignError)
  deriving DecidableEq

/-- The report of an error. -/
def Failure.report? : Failure → Option Report
  | settings e => Report.ofSettings? e
  | client e => Report.ofClient? e
  | load e => Report.ofLoad? e
  | cache e => Report.ofCache? e
  | _ => none

/-! ### Around a command -/

/-- Tells the user something. -/
def tell (severity : Severity) (text : String) : Action Failure Unit :=
  Action.note (.told severity text)

/-- What stands in a settings file. -/
def readSettings (s : Surroundings) (path : Path) : Action Failure SettingsFile := do
  if ← (Action.present path).mapError .file then
    match ← (Action.readBytes path).attempt with
    | .error _ => return .unreadable
    | .ok bytes => match String.fromUTF8? bytes with
      | some text => return .text (s.yaml text)
      | none => return .unreadable
  else return .missing

/-- The settings of an invocation. -/
def settingsOf (s : Surroundings) (inv : Invocation) : Action Failure Settings := do
  let file ← match inv.settings with
    | some text => do
      let path := Path.ofText text
      pure (some (path, ← readSettings s path))
    | none => pure none
  match Settings.resolve s.homes file s.environment with
  | .ok settings => return settings
  | .error e => throw (.settings e)

/-- Runs a body and turns an error that has a report into an exit code. -/
def reporting (code : Nat) (say : Report → String) (body : Action Failure Nat) :
    Action Failure Nat := do
  match ← body.attempt with
  | .ok n => return n
  | .error e => match e.report? with
    | some r =>
      tell .error (say r)
      return code
    | none => throw e

/-- Resolves the settings and goes on with them. -/
def withSettings (s : Surroundings) (inv : Invocation) (body : Settings → Action Failure Nat) :
    Action Failure Nat := do
  match ← (settingsOf s inv).attempt with
  | .ok settings => body settings
  | .error e => reporting 3 (fun r => "Invalid settings: " ++ r.text) (throw e)

/-- Resolves the settings and runs a body with a client over a connection. -/
def withClient (s : Surroundings) (inv : Invocation) (body : Client → Action Failure Unit) :
    Action Failure Nat :=
  withSettings s inv fun settings =>
    Action.connected settings.timeout settings.showProgress <| reporting 2 Report.line do
      body ⟨settings, s.transport⟩
      return 0

/-- Asks the catalog. -/
def ask {α : Type} (x : Exchange α) : Action Failure α := (Load.exchange x).mapError .client

/-! ### Commands of the catalog -/

/-- Prints the tags. -/
def printTags (client : Client) : Action Failure Unit := do
  let tags ← ask client.listTags
  tags.forM Action.print
  tell .info (integerText tags.length ++ " tags")

/-- The qualities that a listing shows. -/
def shownQualities : List String := ["number_instances", "number_features", "number_classes"]

/-- Cells between tabs. -/
def tabbed (cells : List String) : String := "\t".intercalate cells

/-- The line of a summary. -/
def summaryLine (s : Summary) : String :=
  tabbed ([integerText s.id, s.name, integerText s.version, s.status] ++
    shownQualities.map fun q => ((s.qualities.lookup q).getD (.str "")).asText)

/-- Prints a listing, or the beginning of one. -/
def printListing (client : Client) (tag filter : Option String) (limit : Option Nat) :
    Action Failure Unit := do
  let found ← ask (client.listDatasets tag (match filter with
    | some text => .path text
    | none => .none))
  let shown := match limit with
    | some n => found.take n
    | none => found
  Action.print (tabbed (["id", "name", "version", "status"] ++ shownQualities))
  shown.forM fun s => Action.print (summaryLine s)
  tell .info (integerText shown.length ++ " datasets")

/-- A line for a text that is there and not empty. -/
def labelled (label : String) : Option String → List String
  | none | some "" => []
  | some text => [label ++ ": " ++ text]

/-- The line of a declared attribute. -/
def attributeLine (a : DeclaredAttribute) : String :=
  tabbed [integerText a.index, a.name, a.kind.name] ++
    if a.levels.isEmpty then "" else " \x7b" ++ ", ".intercalate a.levels ++ "\x7d"

/-- The lines of a description. -/
def descriptionLines (d : Description) (attributes : Bool) : List String :=
  [d.name ++ " (id " ++ integerText d.id ++ ", version " ++ integerText d.version ++ ", " ++
    d.format ++ ")"] ++
  labelled "Target" d.defaultTarget ++
  (if d.citation.creators.isEmpty then []
    else ["Creator: " ++ ", ".intercalate d.citation.creators]) ++
  labelled "Licence" d.citation.licence ++ ["", d.text] ++
  if attributes && !d.attributes.isEmpty then "" :: d.attributes.map attributeLine else []

/-- Prints the description of a data set. -/
def printDescription (client : Client) (id : Int) (attributes : Bool) : Action Failure Unit := do
  (descriptionLines (← ask (client.describe id)) attributes).forM Action.print

/-! ### Loading -/

/-- The format of an output file. -/
inductive OutputFormat where
  | csv
  | parquet
  deriving DecidableEq

/-- The format that the end of a path tells. -/
def OutputFormat.ofPath? (path : Path) : Option OutputFormat :=
  let suffix := String.ofList (Text.lower path.suffix.toList)
  if suffix = ".csv" then some .csv else if suffix = ".parquet" then some .parquet else none

/-- The bytes of a table in a format. -/
def OutputFormat.encode (libraries : FrameLibraries) (t : Table) :
    OutputFormat → Except ForeignError ByteArray
  | .csv => do libraries.pandas.csv (← t.toPandas libraries.pandas)
  | .parquet => do libraries.polars.parquet (← t.toPolars libraries.polars)

/-- Writes a table to a file, in a directory that is made when it is not there. -/
def writeTable (libraries : FrameLibraries) (path : Path) (format : OutputFormat) (t : Table) :
    Action Failure Unit := do
  (Action.makeDirectories path.parent).mapError .file
  let bytes ← (Action.ofExcept (format.encode libraries t)).mapError .foreign
  (Action.writeBytes path bytes).mapError .file
  tell .info ("Wrote " ++ path.text)

/-- The options of loading for the command line. -/
def loadOptions {α : Type} (auto lenient : Bool) : LoadOptions α :=
  { parser := if auto then "auto" else "arff", strict := !lenient
    badRow := if lenient then "skip" else "raise" }

/-- Loads a data set, prints its schema and writes it to a file when one is named. -/
def loadAndPrint (libraries : FrameLibraries) (client : Client) (id : Int)
    (options : LoadOptions libraries.Frame) (output : Option (Path × OutputFormat)) :
    Action Failure Unit := do
  let cache : Cache := { root := client.settings.cacheRoot }
  match ← (load libraries client cache (.ofInt id) options).mapError .load with
  | .frame _ => return
  | .table t =>
    t.schema.forM fun (name, type) => Action.print (tabbed [name, type.name])
    tell .info ("Loaded dataset " ++ integerText id ++ ": " ++ integerText t.rowCount ++ " rows")
    match output with
    | some (path, format) => writeTable libraries path format t
    | none => return

/-! ### Commands on the cache -/

/-- Something that is done to the cache of the settings. -/
def onCache (s : Surroundings) (inv : Invocation) (body : Cache → Action Failure Unit) :
    Action Failure Nat :=
  withSettings s inv fun settings => reporting 2 Report.line do
    body { root := settings.cacheRoot }
    return 0

/-- Prints the entries of a cache. -/
def printEntries (c : Cache) : Action Failure Unit := do
  let entries ← c.entries.mapError .cache
  entries.forM fun e =>
    Action.print (tabbed [integerText e.dataset, integerText e.size, e.storedAt])
  Action.print (integerText entries.length ++ " entries, " ++
    integerText (Cache.sizeOf entries) ++ " bytes in " ++ c.root.text)

/-- Integers between brackets. -/
def integerList (ns : List Int) : String := "[" ++ ", ".intercalate (ns.map integerText) ++ "]"

/-- Evicts the oldest entries of a cache. -/
def pruneCache (limit : Int) (c : Cache) : Action Failure Unit := do
  let evicted ← (c.prune limit).mapError .cache
  tell .info ("Evicted " ++ integerText evicted.length ++ " entries: " ++ integerList evicted)

/-- Empties a cache. -/
def clearCache (c : Cache) : Action Failure Unit := do
  let count ← c.clear.mapError .cache
  tell .info ("Removed " ++ integerText count ++ " entries from " ++ c.root.text)

/-! ### Whole runs -/

/-- Refuses a command. -/
def refuse (text : String) : Action Failure Nat := do
  tell .error text
  return 2

/-- Runs the command of an invocation. -/
def runCommand (s : Surroundings) (inv : Invocation) : Action Failure Nat :=
  match inv.command with
  | .tags => withClient s inv printTags
  | .list tag filter limit =>
    if (limit.getD 0) < 0 then refuse "--limit must be >= 0"
    else withClient s inv fun client => printListing client tag filter (limit.map Int.toNat)
  | .describe id attributes => withClient s inv fun client => printDescription client id attributes
  | .load id auto none lenient =>
    withClient s inv fun client =>
      loadAndPrint s.libraries client id (loadOptions auto lenient) none
  | .load id auto (some text) lenient =>
    let path := Path.ofText text
    match OutputFormat.ofPath? path with
    | none => refuse ("--output must end in .csv or .parquet: " ++ path.text)
    | some format => withClient s inv fun client =>
      loadAndPrint s.libraries client id (loadOptions auto lenient) (some (path, format))
  | .cacheInfo => onCache s inv printEntries
  | .cachePrune limit =>
    withSettings s inv fun settings =>
      if limit < 0 then refuse "--max-bytes must be >= 0"
      else reporting 2 Report.line do
        pruneCache limit { root := settings.cacheRoot }
        return 0
  | .cacheClear => onCache s inv clearCache

/-- Runs an argument list; the result is the exit code. -/
def run (s : Surroundings) (args : List String) : Action Failure Nat :=
  match Invocation.ofArguments args with
  | .error .usage => return 2
  | .error .help => do
    Action.print usage
    return 0
  | .ok inv => runCommand s inv

/-- The user of an invocation wants to be told notices of a severity. -/
def Invocation.tells (inv : Invocation) : Severity → Bool
  | .info => !inv.warningsOnly && !inv.errorsOnly
  | .warning => !inv.errorsOnly
  | .error => true

/-- The notices that an argument list lets through. -/
def toldNotices (args : List String) (notices : List Notice) : List Notice :=
  match Invocation.ofArguments args with
  | .ok inv => notices.filter fun n => inv.tells n.severity
  | .error _ => []

end DatasetCatalog.Cli
