import DatasetCatalog.Json.Basic

/-! # Schemas

  A schema lists the fields of a record of the catalog with their shapes. The service quotes most
  numbers and gives a list of one element as the bare element, so shapes accept both spellings.
  Decoding checks every field; an unknown field is an error when decoding is strict and is dropped
  otherwise.
-/

namespace DatasetCatalog.Catalog

open Text

/-- The shape of a field. -/
inductive Shape where
  /-- A text; numbers become texts. -/
  | text
  /-- An integer, or a text that holds one. -/
  | integer
  /-- A truth value, or its word. -/
  | truth
  /-- A text or a list of texts. -/
  | texts
  /-- An object or a list of objects. -/
  | records
  /-- Any value. -/
  | any
  /-- A shape of no meaning. -/
  | other (name : String)
  deriving DecidableEq

/-- The shape of a name. -/
def Shape.ofName (s : String) : Shape :=
  if s = "str" then .text
  else if s = "int" then .integer
  else if s = "bool" then .truth
  else if s = "str_list" then .texts
  else if s = "records" then .records
  else if s = "any" then .any
  else .other s

/-- A field of a record. -/
structure FieldSpec where
  /-- The name of the field. -/
  name : String
  /-- The shape of its value. -/
  shape : Shape
  /-- The field has to be there. -/
  required : Bool
  deriving DecidableEq

/-- The fields of a kind of record. -/
structure Schema where
  /-- The name of the kind. -/
  kind : String
  /-- The fields in order. -/
  fields : List FieldSpec
  deriving DecidableEq

namespace Schema

/-- A field that has to be there. -/
def must (name : String) (shape : Shape) : FieldSpec := ⟨name, shape, true⟩

/-- A field that may be absent. -/
def may (name : String) (shape : Shape) : FieldSpec := ⟨name, shape, false⟩

/-! ### The schemas of the service -/

/-- The list of tags. -/
def tagList : Schema := ⟨"data_tag_list", [must "tag" .texts]⟩

/-- A listing of data sets. -/
def datasetList : Schema := ⟨"data", [must "dataset" .records]⟩

/-- An entry of a listing. -/
def datasetEntry : Schema := ⟨"dataset",
  [must "did" .integer, must "name" .text, must "version" .integer, must "status" .text,
   may "format" .text, may "md5_checksum" .text, may "file_id" .integer, may "upload_date" .text,
   may "quality" .records]⟩

/-- A quality of an entry. -/
def quality : Schema := ⟨"quality", [must "name" .text, may "value" .any]⟩

/-- The description of a data set. -/
def description : Schema := ⟨"data_set_description",
  [must "id" .integer, must "name" .text, must "version" .integer, must "format" .text,
   must "url" .text, may "description" .text, may "description_version" .integer,
   may "creator" .texts, may "contributor" .texts, may "collection_date" .text,
   may "upload_date" .text, may "update_comment" .text, may "language" .text,
   may "licence" .text, may "parquet_url" .text, may "minio_url" .text, may "file_id" .integer,
   may "default_target_attribute" .text, may "row_id_attribute" .text,
   may "ignore_attribute" .texts, may "version_label" .text, may "citation" .text,
   may "original_data_url" .text, may "paper_url" .text, may "tag" .texts,
   may "visibility" .text, may "status" .text, may "processing_date" .text,
   may "md5_checksum" .text]⟩

/-- The features of a data set. -/
def featureList : Schema := ⟨"data_features", [must "feature" .records]⟩

/-- A feature. -/
def feature : Schema := ⟨"feature",
  [must "index" .integer, must "name" .text, must "data_type" .text, may "nominal_value" .texts,
   may "is_target" .truth, may "is_ignore" .truth, may "is_row_identifier" .truth,
   may "number_of_missing_values" .integer, may "ontology" .texts]⟩

/-- An error of the service. -/
def error : Schema := ⟨"error",
  [must "code" .integer, may "message" .text, may "additional_information" .text]⟩

/-- All schemas of the service. -/
def all : List Schema :=
  [tagList, datasetList, datasetEntry, quality, description, featureList, feature, error]

/-- The version of the responses that the schemas describe. -/
def version : String := "v1"

/-- The schema of a kind for a version of the responses. -/
def find? (kind version : String) : Option Schema :=
  if version = Schema.version then all.find? fun s => s.kind == kind else none

/-- The wording for a kind or a version without a schema. -/
def unknownMessage (kind version : String) : String :=
  "No schema '" ++ kind ++ "' for version '" ++ version ++ "'"

end Schema

end DatasetCatalog.Catalog
