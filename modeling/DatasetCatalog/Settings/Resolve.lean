import DatasetCatalog.Foreign
import DatasetCatalog.Settings.Basic

/-! # Resolving settings

  A setting comes from its environment variable when that is not empty, else from the settings
  file, else from the defaults. A settings file holds a mapping whose section for this library is
  a mapping from the names of settings to values.
-/

namespace DatasetCatalog

/-- What stands behind the path of a settings file. -/
inductive SettingsFile where
  | missing
  /-- Something that is no file of text. -/
  | unreadable
  /-- A text, as the reader of YAML takes it. -/
  | text (reading : YamlReading)

/-- Why settings cannot be resolved. -/
inductive SettingsError where
  /-- A file or a value is at fault. -/
  | config (e : ConfigError)
  /-- The cache lies in a home directory that is not known. -/
  | unknownUser (name : String)
  /-- The timeout is an integer beyond the doubles. -/
  | timeoutTooLarge
  /-- A value would have to be written that holds an integer of too many digits. -/
  | tooManyDigits
  /-- The settings file is no file of text. -/
  | unreadable (path : Path)
  /-- The reader of YAML has failed. -/
  | foreign (e : ForeignError)
  deriving DecidableEq

/-- Variables of the environment. -/
abbrev Environment := List (String × String)

namespace Settings

/-! ### The file -/

/-- A value that says nothing: null, false, zero, or something empty. -/
def saysNothing : Json → Bool
  | .null => true
  | .bool b => !b
  | .number n => n.same (.int 0)
  | .str s => s == ""
  | .arr xs => xs.isEmpty
  | .obj fs => fs.isEmpty

/-- The fields of a mapping, where a value that says nothing is an empty one. -/
def mapping? (v : Json) : Option (List (String × Json)) :=
  if saysNothing v then some []
  else match v with
    | .obj fields => some fields
    | _ => none

/-- The names of all settings. -/
def keys : List String :=
  ["api_url", "api_key", "cache_root", "timeout_sec", "strict_decoding", "show_progress"]

/-- The section of a settings file. -/
def sectionOf (path : Path) (v : Json) : Except ConfigError (List (String × Json)) :=
  match mapping? v with
  | none => .error (.fileNotMapping path)
  | some fields => match mapping? ((fields.lookup Settings.section).getD .null) with
    | none => .error (.sectionNotMapping path)
    | some given =>
      match ((given.map (·.1)).filter (· ∉ keys)).mergeSort fun a b => decide (a ≤ b) with
      | [] => .ok given
      | unknown => .error (.unknownKeys path unknown)

/-- The settings that a file gives. -/
def givenBy (path : Path) : SettingsFile → Except SettingsError (List (String × Json))
  | .missing => .error (.config (.fileMissing path))
  | .unreadable => .error (.unreadable path)
  | .text .malformed => .error (.config (.fileMalformed path))
  | .text (.failed e) => .error (.foreign e)
  | .text (.value v) => match sectionOf path v with
    | .ok given => .ok given
    | .error e => .error (.config e)

/-! ### The environment -/

/-- The variables and the settings that they replace. -/
def replacements : List (String × String) :=
  [("OPENML_API_URL", "api_url"), ("OPENML_API_KEY", "api_key"),
   ("OPENML_CACHE_DIR", "cache_root")]

/-- A variable, unless it is empty. -/
def givenVariable (env : Environment) (name : String) : Option String :=
  match env.lookup name with
  | some "" => none
  | v => v

/-- Given settings with those of the environment in their place. -/
def withEnvironment (env : Environment) (given : List (String × Json)) : List (String × Json) :=
  replacements.foldl (fun fields (name, key) => match givenVariable env name with
    | some v => Json.setField fields key (.str v)
    | none => fields) given

/-! ### Values -/

/-- A value that is to be written. -/
def written (v : Json) : Except SettingsError Json :=
  if v.isWritable then .ok v else .error .tooManyDigits

/-- A value as seconds. -/
def secondsOf : Json → Except SettingsError Number
  | .bool b => .ok (.float ((Binary64.ofInt? (if b then 1 else 0)).getD .nan))
  | .number (.float x) => .ok (.float x)
  | .number (.int n) => match Binary64.ofInt? n with
    | some x => .ok (.float x)
    | none => .error .timeoutTooLarge
  | .str s => match Binary64.ofText? s.toList with
    | some x => .ok (.float x)
    | none => .error (.config (.timeoutNotNumber (Text.cite s)))
  | v => do throw (.config (.timeoutNotNumber (← written v).display))

/-- A value as a truth value. -/
def truthOf (key : String) : Json → Except SettingsError Bool
  | .bool b => .ok b
  | v => do throw (.config (.notTruth key (← written v).display))

/-- A path without a tilde in front. -/
def expand (homes : Path.Homes) (p : Path) : Except SettingsError Path :=
  match Path.expandHome homes p with
  | .ok q => .ok q
  | .error e => .error (.unknownUser e.name)

/-- An address without slashes at its end. -/
def trimUrl (s : String) : String := String.ofList (Text.dropEndWhile (· == '/') s.toList)

/-- A value as a key; null and the empty text are none. -/
def keyOf : Json → Option String
  | .null => none
  | .str s => if s = "" then none else some s
  | v => some v.display

/-- Settings with one of them replaced by a given value. -/
def set (homes : Path.Homes) (s : Settings) (key : String) (v : Json) :
    Except SettingsError Settings :=
  if key = "api_url" then do return { s with apiUrl := trimUrl (← written v).asText }
  else if key = "api_key" then do return { s with apiKey := keyOf (← written v) }
  else if key = "cache_root" then do
    return { s with cacheRoot := ← expand homes (.ofText (← written v).asText) }
  else if key = "timeout_sec" then do return { s with timeout := ← secondsOf v }
  else if key = "strict_decoding" then do return { s with strictDecoding := ← truthOf key v }
  else if key = "show_progress" then do return { s with showProgress := ← truthOf key v }
  else .ok s

/-- Settings with given values in their place, one after the other. -/
def setAll (homes : Path.Homes) :
    List (String × Json) → Settings → Except SettingsError Settings
  | [], s => .ok s
  | (key, v) :: rest, s => do
    let next ← set homes s key v
    setAll homes rest next

/-- The settings of a file, when one is named, and of an environment. -/
def resolve (homes : Path.Homes) (file : Option (Path × SettingsFile)) (env : Environment) :
    Except SettingsError Settings := do
  let given ← match file with
    | some (path, content) => givenBy path content
    | none => .ok []
  -- values are read before the settings as a whole are checked
  let replaced ← setAll homes (withEnvironment env given) {}
  match replaced.checked with
  | .error e => throw (.config e)
  | .ok s => do return { s with cacheRoot := ← expand homes s.cacheRoot }

end Settings

end DatasetCatalog
