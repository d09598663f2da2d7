import DatasetCatalog.Json.Basic
import DatasetCatalog.Table.Column

/-! # Foreign code

  Three libraries are called that are not part of this one: a reader of YAML and the two libraries
  of data frames. Here stands of each what is handed to it and what is got from it. What they make
  of it is theirs, and every call can fail with an error of their own.
-/

namespace DatasetCatalog

/-- An error that foreign code raises. -/
structure ForeignError where
  /-- The name of its kind. -/
  kind : String
  /-- Its wording. -/
  text : String
  deriving DecidableEq

/-! ### YAML -/

/-- What the reader of YAML makes of a text. A value of a kind that JSON does not have counts as
    its text. -/
inductive YamlReading where
  | value (v : Json)
  /-- The text is no YAML. -/
  | malformed
  /-- The reader fails in a way that nobody expects. -/
  | failed (e : ForeignError)

/-! ### Data frames -/

/-- What a series of pandas is made of. -/
inductive PandasData where
  /-- Doubles; one that is not a number is null. -/
  | floats (xs : List Binary64)
  /-- Integers, and which of them are null. -/
  | integers (ns : List Int) (null : List Bool)
  /-- Positions in a list of categories, with or without an order; below zero is null. -/
  | categories (codes : List Int) (categories : List String) (ordered : Bool)
  /-- Texts and nulls. -/
  | strings (cells : List (Option Value))
  deriving DecidableEq

/-- The type of a series of polars. -/
inductive PolarsType where
  | float64
  | int64
  | utf8
  | enum (categories : List String)
  deriving DecidableEq

/-- What is called of pandas. -/
structure Pandas (Frame : Type) where
  Series : Type
  /-- Makes a series with a name. -/
  series : String → PandasData → Except ForeignError Series
  /-- Puts series under names together to a frame with a number of rows. -/
  frame : List (String × Series) → Nat → Except ForeignError Frame
  /-- Makes a frame of records. -/
  frameOfRecords : List (List (String × Json)) → Except ForeignError Frame
  /-- The bytes of a frame as CSV. -/
  csv : Frame → Except ForeignError ByteArray

/-- What is called of polars. -/
structure Polars (Frame : Type) where
  Series : Type
  /-- Makes a series with a name, of values and nulls, in a type. -/
  series : String → List (Option Value) → PolarsType → Except ForeignError Series
  /-- The series with labels in the place of its texts. -/
  categorical : Series → Except ForeignError Series
  /-- Puts series together to a frame. -/
  frame : List Series → Except ForeignError Frame
  /-- Makes a frame of records. -/
  frameOfRecords : List (List (String × Json)) → Except ForeignError Frame
  /-- The bytes of a frame as Parquet. -/
  parquet : Frame → Except ForeignError ByteArray

/-- The name of series number `i` in a frame of polars: one without a name is named after its
    position. -/
def Polars.columnName (name : String) (i : Nat) : String :=
  if name = "" then "column_" ++ integerText i else name

/-- The libraries of data frames. -/
structure FrameLibraries where
  /-- Their frames, and whatever else callers put tables into. -/
  Frame : Type
  pandas : Pandas Frame
  polars : Polars Frame

end DatasetCatalog
