import DatasetCatalog.Load
import DatasetCatalog.Settings.Resolve

/-! # Reports

  How an error of the library is reported: the name of its kind and its wording. Errors that the
  library does not expect have no report; they end a program.
-/

namespace DatasetCatalog

open Catalog

/-- The name of the kind of an error and its wording. -/
structure Report where
  /-- The name of the kind. -/
  kind : String
  /-- The wording. -/
  text : String
  deriving DecidableEq

namespace Report

/-- The report of settings that cannot be resolved. -/
def ofSettings? : SettingsError → Option Report
  | .config e => some ⟨"ConfigError", e.message⟩
  | _ => none

/-- The wording of a text at which the reader of integers gives up. -/
def integerWords (text : String) : Numeral.IntegerFault → String
  | .malformed => "invalid literal for int() with base 10: " ++ Text.cite text
  | .tooLong digits =>
    "Exceeds the limit (" ++ integerText Numeral.digitLimit ++
      " digits) for integer string conversion: value has " ++ integerText digits ++
      " digits; use sys.set_int_max_str_digits() to increase the limit"

/-- The wording of a decoding error. -/
def decodeWords : DecodeError → String
  | .at path fault => path ++ ": " ++ fault.message
  | .integer text fault => integerWords (String.ofList (Text.strip text.toList)) fault
  | .tooLarge => "int too large to convert to float"
  | .unknownShape name => "Unknown field shape: " ++ name

/-- The wording of an error of the client. -/
def clientWords : ClientError → String
  | .filter e => e.message
  | .network e => e.message
  | .decode e => decodeWords e
  | .notFound dataset _ => notFoundMessage dataset

/-- The report of an error of the client. -/
def ofClient? (e : ClientError) : Option Report :=
  match e with
  | .filter _ => some ⟨"InvalidFilter", clientWords e⟩
  | .network _ => some ⟨"NetworkError", clientWords e⟩
  | .decode (.at ..) => some ⟨"DecodeError", clientWords e⟩
  | .decode _ => none
  | .notFound .. => some ⟨"NotFound", clientWords e⟩

/-- The wording of an error of a source. -/
def sourceWords : SourceError → String
  | .client e => clientWords e
  | .format e => e.message

/-- The report of an error of fetching, with words for its cause. -/
def ofFetch {ε : Type} (words : ε → String) (e : Cache.FetchError ε) : Report :=
  ⟨match e with
    | .gaveUp .. => "FetchTimeout"
    | _ => "FetchError", e.message words⟩

/-- The report of an error of the cache files. -/
def ofStorage (e : Cache.StorageError) : Report := ⟨"StorageError", e.message⟩

/-- The report of an error of getting an artifact, with words for its cause. -/
def ofGet? {ε : Type} (words : ε → String) : Cache.GetError ε → Option Report
  | .fetch e => some (ofFetch words e)
  | .storage e => some (ofStorage e)
  | .interrupted _ | .waitTooLong => none

/-- The report of an error of inspecting or changing the cache. -/
def ofCache? : Cache.CacheError → Option Report
  | .storage e => some (ofStorage e)
  | _ => none

/-- The report of an error of giving columns types. -/
def ofCoerce? : Coercion.CoerceError → Option Report
  | .coercion e => some ⟨"CoercionError", e.message⟩
  | .table e => some ⟨"TableError", e.message⟩
  | .shortRow => none

/-- The report of an error of loading. -/
def ofLoad? : LoadError → Option Report
  | .get e => ofGet? sourceWords e
  | .format e => some ⟨"FormatError", e.message⟩
  | .coerce e => ofCoerce? e
  | .container (.table e) => some ⟨"TableError", e.message⟩
  | _ => none

/-- The line that a user is told. -/
def line (r : Report) : String := r.kind ++ ": " ++ r.text

end Report

end DatasetCatalog
