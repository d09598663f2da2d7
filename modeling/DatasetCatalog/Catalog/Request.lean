import DatasetCatalog.Filter.Basic
import DatasetCatalog.Settings.Basic
import DatasetCatalog.Text.Percent

/-! # Requests

  The paths of the service and the addresses that are requested. A listing is restricted by a tag
  and a filter, which are segments of its path; the key of the caller is the last parameter of the
  query.
-/

namespace DatasetCatalog.Catalog

open Text

/-- A filter as a caller gives it. -/
inductive FilterChoice where
  | none
  /-- The path of a filter. -/
  | path (text : String)
  /-- Constraints by the names of qualities. -/
  | constraints (pairs : List (String × Constraint))

namespace Request

/-- An address with the key of the caller, when there is one. -/
def withKey (settings : Settings) (url : String) : String :=
  match settings.apiKey with
  | none | some "" => url
  | some key =>
    url ++ (if '?' ∈ url.toList then "&" else "?") ++ "api_key=" ++ Percent.encodeQuery key

/-- The address of a path of the service. -/
def address (settings : Settings) (path : String) : String :=
  withKey settings (settings.apiUrl ++ path)

/-- The path of the tags. -/
def tags : String := "/data/tag/list"

/-- The path of the description of a data set. -/
def description (id : Int) : String := "/data/" ++ integerText id

/-- The path of the features of a data set. -/
def features (id : Int) : String := "/data/features/" ++ integerText id

/-- The segments of a tag, which must not be blank or hold a slash. -/
def tagSegments (tag : String) : Except FilterError String :=
  let s := strip tag.toList
  let text := String.ofList s
  if s = [] ∨ '/' ∈ s then .error (.badTag text)
  else .ok ("/tag/" ++ Percent.encode text)

/-- The segments of a filter; one that restricts nothing has none. -/
def filterSegments : FilterChoice → Except FilterError String
  | .none | .path "" | .constraints [] => .ok ""
  | .constraints pairs => do return under (← Filter.compile pairs)
  | .path text => do
    let _ ← Filter.ofPath text
    return under (String.ofList (Filter.trimPath text.toList))
where
  /-- A text behind a slash, unless it is empty. -/
  under (text : String) : String := if text = "" then "" else "/" ++ text

/-- The path of a listing. -/
def listing (tag : Option String) (filter : FilterChoice) : Except FilterError String := do
  let tagged ← match tag with
    | some tag => tagSegments tag
    | none => .ok ""
  let filtered ← filterSegments filter
  return "/data/list" ++ tagged ++ filtered

end Request

end DatasetCatalog.Catalog
