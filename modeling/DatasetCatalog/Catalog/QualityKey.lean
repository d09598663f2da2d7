import DatasetCatalog.Text.Blank
import DatasetCatalog.Text.LowerCase

/-! # Quality keys

  Listings name qualities in camel case; records use lower-case words with underscores. The four
  headline qualities have short keys of their own, which are also the names used in filters.
-/

namespace DatasetCatalog.Catalog

open Text

/-- A letter or digit behind which a capital begins a new word. -/
def endsWord (c : Char) : Bool :=
  (decide ('a' ≤ c) && decide (c ≤ 'z')) || (decide ('0' ≤ c) && decide (c ≤ '9'))

/-- An ASCII capital. -/
def isCapital (c : Char) : Bool := decide ('A' ≤ c) && decide (c ≤ 'Z')

/-- Puts an underscore between a lower-case letter or digit and a capital. -/
def splitWords : List Char → List Char
  | a :: b :: rest =>
    if endsWord a && isCapital b then a :: '_' :: splitWords (b :: rest)
    else a :: splitWords (b :: rest)
  | s => s

/-- A name in camel case as lower-case words joined by underscores. -/
def snakeCase (s : List Char) : List Char :=
  lower ((splitWords (strip s)).map fun c => if c = '-' then '_' else c)

/-- The qualities with short keys. -/
def qualityAliases : List (String × String) :=
  [("NumberOfInstances", "number_instances"), ("NumberOfFeatures", "number_features"),
   ("NumberOfClasses", "number_classes"), ("NumberOfMissingValues", "number_missing_values")]

/-- The key of a quality. -/
def qualityKey (name : String) : String :=
  (qualityAliases.lookup name).getD (String.ofList (snakeCase name.toList))

end DatasetCatalog.Catalog
