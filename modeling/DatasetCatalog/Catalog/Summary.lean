import DatasetCatalog.Json.Basic

/-! # Summaries

  An entry of a listing. As a record it is flat: the fields of the entry come first and the
  qualities follow, where a quality of the name of a field takes the place of its value.
-/

namespace DatasetCatalog.Catalog

/-- An entry of a listing. -/
structure Summary where
  /-- The identifier of the data set. -/
  id : Nat
  /-- Its name. -/
  name : String
  /-- Its version. -/
  version : Int
  /-- Its state of life. -/
  status : String
  /-- The format of the artifact; empty when it is not listed. -/
  format : String := ""
  /-- The MD5 digest of the artifact, when it is listed. -/
  checksum : Option String := none
  /-- The identifier of the stored file, when it is listed. -/
  file : Option Int := none
  /-- The qualities by their keys. -/
  qualities : List (String × Json) := []

/-- Identifiers are not negative. -/
structure NegativeId where
  /-- The refused identifier. -/
  id : Int
  deriving DecidableEq

/-- The wording of the error. -/
def NegativeId.message (e : NegativeId) : String := "dataset_id must be >= 0, got " ++ integerText e.id

/-- An identifier that is not negative. -/
def checkId (id : Int) : Except NegativeId Nat := if id < 0 then .error ⟨id⟩ else .ok id.toNat

namespace Summary

/-- A value that may be absent. -/
def orNull {α : Type} (f : α → Json) : Option α → Json
  | some a => f a
  | none => .null

/-- The fields of an entry without the qualities. -/
def fields (s : Summary) : List (String × Json) :=
  [("dataset_id", .int s.id), ("name", .str s.name), ("version", .int s.version),
   ("status", .str s.status), ("format", .str s.format),
   ("md5_checksum", orNull .str s.checksum), ("file_id", orNull .int s.file)]

/-- The flat record of an entry. -/
def record (s : Summary) : List (String × Json) :=
  s.qualities.foldl (fun fields (key, v) => Json.setField fields key v) s.fields

end Summary

end DatasetCatalog.Catalog
