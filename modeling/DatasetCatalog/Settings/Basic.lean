import DatasetCatalog.Number.Basic
import DatasetCatalog.Path.Basic
import DatasetCatalog.Text.Quoted

/-! # Settings

  What a client needs to know: where the catalog is, the key to present, where artifacts are kept,
  how long a request may take, how strictly responses are decoded, and whether progress is shown.
-/

namespace DatasetCatalog

/-- Settings of a client. -/
structure Settings where
  /-- The address of the catalog, which paths are appended to. -/
  apiUrl : String := "https://www.openml.org/api/v1/json"
  /-- The key that is sent with every request. -/
  apiKey : Option String := none
  /-- The directory of the artifacts. -/
  cacheRoot : Path := ⟨0, ["~", ".cache", "openml_catalog"]⟩
  /-- The seconds that a request may take. -/
  timeout : Number := .float ((Binary64.ofInt? 60).getD .nan)
  /-- Unknown fields of a response are refused. -/
  strictDecoding : Bool := true
  /-- The progress of downloads is shown. -/
  showProgress : Bool := false
  deriving DecidableEq

/-- What is wrong with settings. -/
inductive ConfigError where
  | emptyUrl
  | timeoutNotPositive (timeout : Number)
  /-- A value, as it is shown, where seconds are expected. -/
  | timeoutNotNumber (shown : String)
  /-- A value, as it is shown, where a truth value is expected. -/
  | notTruth (key shown : String)
  | fileMissing (path : Path)
  | fileMalformed (path : Path)
  | fileNotMapping (path : Path)
  | sectionNotMapping (path : Path)
  | unknownKeys (path : Path) (keys : List String)
  deriving DecidableEq

/-- The key of the section of a settings file that is read. -/
def Settings.section : String := "openml_catalog"

/-- The wording of an error. -/
def ConfigError.message : ConfigError → String
  | emptyUrl => "api_url must not be empty"
  | timeoutNotPositive timeout => "timeout_sec must be positive, got " ++ timeout.write
  | timeoutNotNumber shown => "timeout_sec must be a number, got " ++ shown
  | notTruth key shown => key ++ " must be true or false, got " ++ shown
  | fileMissing path => "Settings file not found: " ++ path.text
  | fileMalformed path => "Invalid YAML in " ++ path.text
  | fileNotMapping path => "Settings file " ++ path.text ++ " must contain a mapping"
  | sectionNotMapping path =>
    "'" ++ Settings.section ++ "' in " ++ path.text ++ " must be a mapping"
  | unknownKeys path keys =>
    "Unknown settings in " ++ path.text ++ ": " ++ ", ".intercalate keys

namespace Settings

/-- The settings, unless the address is empty or the timeout is not above zero. -/
def checked (s : Settings) : Except ConfigError Settings :=
  if s.apiUrl = "" then .error .emptyUrl
  else if s.timeout.le (.int 0) then .error (.timeoutNotPositive s.timeout)
  else .ok s

end Settings

end DatasetCatalog
