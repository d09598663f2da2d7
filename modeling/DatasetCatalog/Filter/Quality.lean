/-! # Qualities

  The names under which a listing can be restricted. Some of them are numeric: their values are
  numbers, and they alone can be restricted to a range.
-/

namespace DatasetCatalog

/-- A quality that a listing can be restricted by. -/
inductive Quality where
  | tag
  | status
  | limit
  | offset
  | dataId
  | dataName
  | dataVersion
  | uploader
  | instances
  | features
  | classes
  | missingValues
  deriving DecidableEq

namespace Quality

/-- The name of a quality in a request. -/
def name : Quality → String
  | tag => "tag"
  | status => "status"
  | limit => "limit"
  | offset => "offset"
  | dataId => "data_id"
  | dataName => "data_name"
  | dataVersion => "data_version"
  | uploader => "uploader"
  | instances => "number_instances"
  | features => "number_features"
  | classes => "number_classes"
  | missingValues => "number_missing_values"

/-- All qualities. -/
def all : List Quality :=
  [tag, status, limit, offset, dataId, dataName, dataVersion, uploader, instances, features,
   classes, missingValues]

/-- The quality of a name. -/
def ofName? (s : String) : Option Quality := all.find? fun q => q.name == s

/-- The values of the quality are numbers. -/
def isNumeric : Quality → Bool
  | tag | status | dataName | uploader => false
  | _ => true

end Quality

end DatasetCatalog
