import DatasetCatalog.Arff.Reader
import DatasetCatalog.Cache.Basic
import DatasetCatalog.Catalog.Client
import DatasetCatalog.Coercion.Basic
import DatasetCatalog.Table.Frame

/-! # Loading data sets

  A data set is loaded from its artifact: it is taken from the cache, or described, downloaded,
  checked and stored; then it is read, its columns are given types, and the table is put into a
  container. Only an artifact in the supported formats is downloaded.
-/

namespace DatasetCatalog

open Catalog

/-- Why the artifact of a data set cannot be brought from the catalog. -/
inductive SourceError where
  | client (e : ClientError)
  /-- It is stored in another format. -/
  | format (e : Arff.FormatError)
  deriving DecidableEq

/-- Why a data set cannot be loaded. -/
inductive LoadError where
  /-- There is no parser of the name. -/
  | parser (name : String)
  | get (e : Cache.GetError SourceError)
  /-- There is no rule for malformed rows of the name. -/
  | badRow (name : String)
  | format (e : Arff.FormatError)
  /-- There is no scientific type of the name. -/
  | scitype (name : String)
  | coerce (e : Coercion.CoerceError)
  | container (e : ContainerError)
  deriving DecidableEq

/-- How a data set is loaded. -/
structure LoadOptions (α : Type) where
  /-- How types are chosen. -/
  parser : String := "arff"
  /-- What the table is put into. -/
  container : ContainerChoice α := .table
  /-- The names of the types that are forced on columns. -/
  forced : List (String × String) := []
  /-- Values outside the declared levels are refused. -/
  strict : Bool := true
  /-- What happens to malformed rows. -/
  badRow : String := "raise"

namespace Load

/-! ### Fetching -/

/-- An exchange as an action. -/
def exchange {α : Type} (x : Exchange α) : Action ClientError α :=
  Action.of fun w =>
    let (r, trace) := Client.run x w.trace
    (some r, { w with trace })

/-- The formats of artifacts that can be read. -/
def supportedFormats : List String := ["arff", "sparse_arff"]

/-- A format is supported in any case. -/
def isSupported (format : String) : Bool :=
  decide (String.ofList (Text.lower format.toList) ∈ supportedFormats)

/-- Checks the bytes of an artifact against the digest of its description. -/
def verified {ε : Type} (name : DatasetName) (d : Description) (data : ByteArray) :
    Action ε (Cache.Fetched SourceError) := do
  match d.checksum with
  | none | some "" => return .bytes data
  | some expected => match Cache.verify name.shown data expected with
    | .ok () => return .bytes data
    | .error e =>
      Action.note (.checksumMismatch e.dataset e.expected e.actual)
      return .fetchError (.checksum e)

/-- Brings the artifact of a data set from the catalog. -/
def bring (client : Client) (name : DatasetName) : Action Empty (Cache.Fetched SourceError) := do
  match ← (exchange (client.describe name.id)).attempt with
  | .error e => return .failure (.client e)
  | .ok d =>
    if isSupported d.format then
      match ← (exchange (client.download d)).attempt with
      | .error e => return .failure (.client e)
      | .ok data => verified name d data
    else return .failure (.format ⟨0, .otherFormat name.shown d.format⟩)

/-- The artifact of a data set, which is brought from the catalog when it is not in the cache. -/
def fetchArtifact (client : Client) (cache : Cache) (name : DatasetName) :
    Action (Cache.GetError SourceError) Cache.Artifact :=
  cache.getOrFetch name.id none none (bring client name)

/-! ### Reading and typing -/

/-- The mode of a parser. -/
def modeOf? (parser : String) : Option Coercion.Mode :=
  if parser = "arff" then some .strict else if parser = "auto" then some .auto else none

/-- The wording for a name without a parser. -/
def unknownParserMessage (name : String) : String :=
  "parser must be one of ['arff', 'auto'], got " ++ Text.cite name

/-- The types of names. -/
def forcedTypes : List (String × String) → Except LoadError (List (String × Scitype))
  | [] => .ok []
  | (column, name) :: rest => match Scitype.ofName? name with
    | none => .error (.scitype name)
    | some type => do return (column, type) :: (← forcedTypes rest)

section

variable {α : Type}

/-- Reads the bytes of an artifact. -/
def parse (options : LoadOptions α) (data : ByteArray) : Except LoadError Arff.ParsedTable :=
  match Arff.BadRow.ofName? options.badRow with
  | none => .error (.badRow options.badRow)
  | some badRow => match Arff.readBytes { strict := options.strict, badRow } data with
    | .ok table => .ok table
    | .error e => .error (.format e)

/-- Gives the columns of a table types. -/
def type (options : LoadOptions α) (mode : Coercion.Mode) (table : Arff.ParsedTable) :
    Except LoadError Table := do
  let forced ← forcedTypes options.forced
  match Coercion.coerce { mode, forced } table with
  | .ok t => .ok t
  | .error e => .error (.coerce e)

end

/-- Puts a table into the container. -/
def contain (libraries : FrameLibraries) (options : LoadOptions libraries.Frame) (t : Table) :
    Except LoadError (Container libraries.Frame) :=
  match Container.ofColumns libraries t.columns options.container with
  | .ok c => .ok c
  | .error e => .error (.container e)

/-- What becomes of the bytes of an artifact. -/
def ofBytes (libraries : FrameLibraries) (options : LoadOptions libraries.Frame)
    (mode : Coercion.Mode) (data : ByteArray) :
    Except LoadError (Container libraries.Frame) := do
  contain libraries options (← type options mode (← parse options data))

/-! ### Notices -/

/-- Rows that were left out are worth a notice. -/
def skipNotices (table : Arff.ParsedTable) : List Notice :=
  if table.skipped = 0 then [] else [.rowsSkipped table.skipped (table.rows.length + table.skipped)]

/-- The counts up to the column at which typing failed. -/
def countsUntil (failed : Option String) : List (String × Nat) → List (String × Nat)
  | [] => []
  | (name, n) :: rest => (name, n) :: if failed = some name then [] else countsUntil failed rest

/-- The column at which typing failed before any column was typed, or while one was. -/
inductive TypingEnd where
  /-- No column was looked at. -/
  | before
  /-- The columns up to one were looked at. -/
  | upTo (column : Option String)

/-- Where typing ended. -/
def typingEnd : Except LoadError Table → TypingEnd
  | .ok _ => .upTo none
  | .error (.coerce (.coercion ⟨column, some _, _⟩)) => .upTo (some column)
  | .error (.coerce (.table _)) => .upTo none
  | .error _ => .before

/-- Cells that were treated as missing are worth a notice. -/
def levelNotices (table : Arff.ParsedTable) (typed : Except LoadError Table) : List Notice :=
  match typingEnd typed with
  | .before => []
  | .upTo failed =>
    ((countsUntil failed (Coercion.unknownCounts table)).filter (·.2 ≠ 0)).map fun (name, n) =>
      .levelsUndeclared name n

/-- The notices about an artifact. -/
def notices {α : Type} (options : LoadOptions α) (mode : Coercion.Mode) (data : ByteArray) :
    List Notice :=
  match parse options data with
  | .error _ => []
  | .ok table => skipNotices table ++ levelNotices table (type options mode table)

end Load

/-- Loads a data set. -/
def load (libraries : FrameLibraries) (client : Client) (cache : Cache) (name : DatasetName)
    (options : LoadOptions libraries.Frame) : Action LoadError (Container libraries.Frame) := do
  match Load.modeOf? options.parser with
  | none => throw (.parser options.parser)
  | some mode =>
    let artifact ← (Load.fetchArtifact client cache name).mapError .get
    for notice in Load.notices options mode artifact.data do
      Action.note notice
    Action.ofExcept (Load.ofBytes libraries options mode artifact.data)

end DatasetCatalog
