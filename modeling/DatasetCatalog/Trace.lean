import DatasetCatalog.Path.Basic
import DatasetCatalog.Number.Basic

/-! # Traces

  What a run leaves behind besides its result, each in order: the addresses that it requested, the
  notices that it gave, the lines that it printed and the connections that it opened.
-/

namespace DatasetCatalog

/-- How serious a notice is. -/
inductive Severity where
  | info
  | warning
  | error
  deriving DecidableEq

/-- The name of a severity. -/
def Severity.name : Severity → String
  | info => "INFO"
  | warning => "WARNING"
  | error => "ERROR"

/-- Something that a user should hear about although it is no failure of the operation. -/
inductive Notice where
  | markerUnreadable (path : Path)
  | markerMalformed (path : Path)
  /-- There is a data file but no marker. -/
  | markerMissing (path : Path)
  /-- The data file does not have the size that its marker records. -/
  | entryIncomplete (path : Path)
  /-- The data file does not have the digest that its marker records. -/
  | entryCorrupt (path : Path)
  /-- A file that is being written cannot be removed. -/
  | partialStuck (path : Path)
  | checksumMismatch (dataset expected actual : String)
  /-- The service does not have the attributes of a data set yet. -/
  | attributesPending (dataset : Int)
  | rowsSkipped (skipped total : Nat)
  | levelsUndeclared (name : String) (cells : Nat)
  /-- What a command tells its user. -/
  | told (severity : Severity) (text : String)
  deriving DecidableEq

namespace Notice

/-- How serious a notice is. -/
def severity : Notice → Severity
  | checksumMismatch .. => .error
  | told severity _ => severity
  | _ => .warning

/-- The wording of a notice. -/
def message : Notice → String
  | markerUnreadable path => "Unreadable cache marker " ++ path.text
  | markerMalformed path => "Malformed cache marker " ++ path.text
  | markerMissing path => "Cache entry " ++ path.text ++ " has no marker; treating as absent"
  | entryIncomplete path => "Cache entry " ++ path.text ++ " is incomplete; treating as absent"
  | entryCorrupt path => "Cache entry " ++ path.text ++ " is corrupt; treating as absent"
  | partialStuck path => "Cannot remove partial cache file " ++ path.text
  | checksumMismatch dataset expected actual =>
    "Checksum mismatch for dataset " ++ dataset ++ ": expected=" ++ expected ++
      " actual=" ++ actual
  | attributesPending dataset =>
    "Attributes of dataset " ++ integerText dataset ++ " are not available yet"
  | rowsSkipped skipped total =>
    "Skipped " ++ integerText skipped ++ " malformed data rows out of " ++ integerText total
  | levelsUndeclared name cells =>
    "Attribute '" ++ name ++ "': " ++ integerText cells ++
      " cells with undeclared levels treated as missing"
  | told _ text => text

end Notice

/-- A connection to the network. -/
structure Connection where
  /-- The seconds that a request may take. -/
  timeout : Number
  /-- The progress of downloads is shown. -/
  showProgress : Bool
  /-- It has not been closed. -/
  isOpen : Bool
  deriving DecidableEq

/-- What has happened so far. -/
structure Trace where
  /-- The requested addresses in order. -/
  requests : List String := []
  /-- The notices in order. -/
  notices : List Notice := []
  /-- The printed lines in order. -/
  lines : List String := []
  /-- The connections in order. -/
  connections : List Connection := []
  deriving DecidableEq

namespace Trace

/-- Adds a requested address. -/
def request (t : Trace) (url : String) : Trace := { t with requests := t.requests ++ [url] }

/-- Adds a notice. -/
def note (t : Trace) (n : Notice) : Trace := { t with notices := t.notices ++ [n] }

/-- Adds a printed line. -/
def print (t : Trace) (line : String) : Trace := { t with lines := t.lines ++ [line] }

/-- Opens a connection. -/
def connect (t : Trace) (timeout : Number) (showProgress : Bool) : Trace :=
  { t with connections := t.connections ++ [⟨timeout, showProgress, true⟩] }

/-- Closes the connection that was opened last. -/
def disconnect (t : Trace) : Trace :=
  { t with connections := match t.connections.getLast? with
      | some c => t.connections.dropLast ++ [{ c with isOpen := false }]
      | none => [] }

end Trace

end DatasetCatalog
