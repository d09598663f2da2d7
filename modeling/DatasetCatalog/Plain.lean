import DatasetCatalog.Json.Reader
import DatasetCatalog.Table.Entry
import DatasetCatalog.Table.Frame

/-! # Plain substitutes

  With these the program runs where there is no foreign code. Settings files are read when they hold
  JSON. Frames are plain data: columns with a name, a storage type and cells, where a missing cell
  is null. They keep what they are given in the way that the libraries do, and are written as CSV,
  but not as Parquet; the columns of records have types that are found by looking at the values.
-/

namespace DatasetCatalog

/-! ### YAML -/

/-- The line holds nothing, or a comment. -/
def YamlReading.isSilent (line : List Char) : Bool :=
  match line.dropWhile Text.isFill with
  | [] => true
  | c :: _ => c == '#'

/-- Reads a text that holds a JSON value, or nothing but comments. -/
def YamlReading.plain (s : String) : YamlReading :=
  if (Text.splitOn '\n' s.toList).all isSilent then .value .null
  else match Json.parse? s.toList with
    | some v => .value v
    | none => .malformed

/-! ### Frames -/

/-- The storage type of a frame column. -/
inductive FrameType where
  | real
  | integer
  /-- Integers without a sign. -/
  | unsigned
  /-- Integers with a null of their own. -/
  | nullableInteger
  /-- Labels out of a list of categories. -/
  | category (levels : List String) (ordered : Bool)
  /-- Labels without a list. -/
  | labels
  | string
  /-- Texts of a column whose type was found by looking at it. -/
  | foundText
  /-- Values of several kinds. -/
  | mixed
  /-- No value at all. -/
  | empty
  deriving DecidableEq

/-- The name of a storage type. -/
def FrameType.name (library : FrameLibrary) (type : FrameType) : String :=
  match library, type with
  | .pandas, .real => "float64"
  | .pandas, .integer => "int64"
  | .pandas, .unsigned => "uint64"
  | .pandas, .nullableInteger => "Int64"
  | .pandas, .category .. => "category"
  | .pandas, .labels => "category"
  | .pandas, .string => "string"
  | .pandas, .foundText => "str"
  | .pandas, .mixed => "object"
  | .pandas, .empty => "object"
  | .polars, .real => "Float64"
  | .polars, .integer => "Int64"
  | .polars, .unsigned => "UInt64"
  | .polars, .nullableInteger => "Int64"
  | .polars, .category .. => "Enum"
  | .polars, .labels => "Categorical"
  | .polars, .string => "String"
  | .polars, .foundText => "String"
  | .polars, .mixed => "Object"
  | .polars, .empty => "Null"

/-- A column of a frame. -/
structure FrameColumn where
  /-- The name of the column. -/
  name : String
  /-- Its storage type. -/
  type : FrameType
  /-- The cells; nothing for null. -/
  cells : List (Option Value)
  deriving DecidableEq

/-- A frame as plain data. -/
structure PlainFrame where
  /-- The library in whose way it is kept. -/
  library : FrameLibrary
  /-- The number of rows. -/
  rowCount : Nat
  /-- The columns in order. -/
  columns : List FrameColumn
  deriving DecidableEq

namespace PlainFrame

/-! ### Series -/

/-- A value that is not a number is null in a frame that has no other null. -/
def nanAsNull : Option Value → Option Value
  | some (.number (.float .nan)) => none
  | cell => cell

/-- The cell of a code: its category, or null. -/
def categoryCell (categories : List String) (code : Int) : Option Value :=
  if code < 0 then none else categories[code.toNat]?.map .text

/-- Categories must differ. -/
def duplicateCategories : ForeignError := ⟨"ValueError", "Categories must be unique"⟩

/-- A series in the way of pandas. -/
def pandasSeries (name : String) : PandasData → Except ForeignError FrameColumn
  | .floats xs => .ok ⟨name, .real, xs.map fun x => nanAsNull (some (.number (.float x)))⟩
  | .integers ns null =>
    .ok ⟨name, .nullableInteger, Column.hide null (ns.map fun n => .number (.int n))⟩
  | .categories codes categories ordered =>
    if categories.Nodup then
      .ok ⟨name, .category categories ordered, codes.map (categoryCell categories)⟩
    else .error duplicateCategories
  | .strings cells => .ok ⟨name, .string, cells⟩

/-- A series in the way of polars. -/
def polarsSeries (name : String) (cells : List (Option Value)) :
    PolarsType → Except ForeignError FrameColumn
  | .float64 => .ok ⟨name, .real, cells⟩
  | .int64 => .ok ⟨name, .nullableInteger, cells⟩
  | .utf8 => .ok ⟨name, .string, cells⟩
  | .enum categories =>
    if categories.Nodup then .ok ⟨name, .category categories true, cells⟩
    else .error duplicateCategories

/-! ### Whole frames -/

/-- Names must differ. -/
def duplicateNames : ForeignError := ⟨"DuplicateError", "the names of columns must be unique"⟩

/-- Series with names in the way of polars. -/
def positioned (series : List FrameColumn) : List FrameColumn :=
  series.zipIdx.map fun (c, i) => { c with name := Polars.columnName c.name i }

/-- A frame in the way of polars. -/
def polarsFrame (series : List FrameColumn) : Except ForeignError PlainFrame :=
  let columns := positioned series
  if (columns.map (·.name)).Nodup then
    .ok ⟨.polars, (columns.head?.map (·.cells.length)).getD 0, columns⟩
  else .error duplicateNames

/-! ### CSV -/

/-- A field has to be quoted: it holds a comma, a quote or a line feed. -/
def needsQuotes (s : List Char) : Bool := s.any fun c => c == ',' || c == '"' || c == '\n'

/-- A field between quotes. -/
def quoted (s : List Char) : List Char :=
  '"' :: s.flatMap (fun c => if c = '"' then ['"', '"'] else [c]) ++ ['"']

/-- A field. -/
def field (s : String) : List Char :=
  if needsQuotes s.toList then quoted s.toList else s.toList

/-- A line without its end. One empty field is quoted, so that it is no empty line. -/
def line : List String → List Char
  | [""] => ['"', '"']
  | fields => Text.joinWith [','] (fields.map field)

/-- The text of a cell. -/
def cellText : Option Value → String
  | none => ""
  | some (.number n) => n.write
  | some (.text s) => s

/-- The fields of row number `i`. -/
def row (f : PlainFrame) (i : Nat) : List String :=
  f.columns.map fun c => cellText (c.cells.getD i none)

/-- The text of a frame: a header and one line per row. -/
def csv (f : PlainFrame) : String :=
  let lines := line (f.columns.map (·.name)) :: (List.range f.rowCount).map fun i => line (row f i)
  String.ofList (lines.flatMap fun l => l ++ ['\n'])

/-! ### Frames of records -/

/-- The keys of records in the order in which they first appear. -/
def keys (records : List (List (String × Json))) : List String :=
  ((records.flatMap fun r => r.map (·.1)).eraseDups)

/-- The value says that there is none. -/
def isNull : Json → Bool
  | .null => true
  | .number n => n.isNaN
  | _ => false

/-- The value is a text. -/
def isText : Json → Bool
  | .str _ => true
  | _ => false

/-- The value is a number. -/
def isNumber : Json → Bool
  | .number _ => true
  | _ => false

/-- The integer that a value is. -/
def integer? : Json → Option Int
  | .number (.int n) => some n
  | _ => none

/-- A value in a cell. -/
def cell : Json → Option Value
  | .null => none
  | .number n => some (.number n)
  | v => some (.text v.asText)

/-- A number as a double. -/
def realCell : Json → Option Value
  | .number (.int n) => some (.number (.float ((Binary64.ofInt? n).getD .nan)))
  | v => cell v

/-- A value as a text; numbers are written without an exponent. -/
def textCell : Json → Option Value
  | .null => none
  | .number n => some (.text n.positional)
  | v => some (.text v.asText)

/-- The integer fits into 64 bits only without a sign. -/
def isUnsigned (n : Int) : Bool :=
  !fitsInt64 n && decide (0 < n) && decide (n < 18446744073709551616)

/-- The integers that pandas looks at: a null ends the look, a record without the key does not. -/
def examined (values : List (Option Json)) : List Int :=
  (values.takeWhile fun v => !(v matches some .null)).filterMap fun v => v.bind integer?

/-- The integers have no common storage type of 64 bits. -/
def overflows (ns : List Int) : Bool :=
  ns.any (fun n => !fitsInt64 n && !isUnsigned n) || (ns.any (· < 0) && ns.any isUnsigned)

/-- The storage type that pandas finds. -/
def pandasType (values : List (Option Json)) : FrameType :=
  let present := (values.filterMap id).filter fun v => !isNull v
  if values.all (· matches some .null) then .empty
  else if !present.isEmpty && present.all isText then .foundText
  -- one integer too many makes objects of all values, doubles among them
  else if !present.all isNumber || overflows (examined values) then .mixed
  else if present.length < values.length then .real
  else match present.mapM integer? with
    | some ns => if ns.any isUnsigned then .unsigned else .integer
    | none => .real

/-- The storage type that polars finds: a text in a column makes texts of all its values. -/
def polarsType (values : List (Option Json)) : FrameType :=
  let present := (values.filterMap id).filter fun v => !(v matches .null)
  if present.isEmpty then .empty
  else if present.any isText then .foundText
  else match present.mapM integer? with
    | some ns =>
      if ns.all fitsInt64 then .integer else if ns.all isUnsigned then .unsigned else .real
    | none => if present.all isNumber then .real else .mixed

/-- The column of a key. -/
def column (library : FrameLibrary) (records : List (List (String × Json))) (key : String) :
    FrameColumn :=
  let values := records.map fun r => r.lookup key
  let shown := values.map fun v => v.getD .null
  match library with
  | .pandas =>
    let type := pandasType values
    ⟨key, type, (shown.map (if type = .real then realCell else cell)).map nanAsNull⟩
  | .polars =>
    let type := polarsType values
    ⟨key, type, shown.map (match type with
      | .real => realCell
      | .foundText => textCell
      | _ => cell)⟩

/-- The frame of records. -/
def ofRecords (library : FrameLibrary) (records : List (List (String × Json))) : PlainFrame :=
  ⟨library, records.length, (keys records).map (column library records)⟩

end PlainFrame

/-- Plain frames in the place of both libraries. -/
def FrameLibraries.plain : FrameLibraries where
  Frame := PlainFrame
  pandas :=
    { Series := FrameColumn, series := PlainFrame.pandasSeries
      frame := fun columns n =>
        .ok ⟨.pandas, n, columns.map fun (name, c) => { c with name }⟩
      frameOfRecords := fun records => .ok (PlainFrame.ofRecords .pandas records)
      csv := fun f => .ok f.csv.toUTF8 }
  polars :=
    { Series := FrameColumn, series := PlainFrame.polarsSeries
      categorical := fun c => .ok { c with type := .labels }
      frame := PlainFrame.polarsFrame
      frameOfRecords := fun records => .ok (PlainFrame.ofRecords .polars records)
      parquet := fun _ => .error ⟨"ComputeError", "there is no encoder of Parquet files"⟩ }

instance : DecidableEq FrameLibraries.plain.Frame := inferInstanceAs (DecidableEq PlainFrame)

end DatasetCatalog
