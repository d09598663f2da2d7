/-! # Parsed tables

  What an ARFF document declares and holds: attributes, and rows of cells that are still text. A
  cell may be missing, or hold a value outside the declared levels whose text is not kept.
-/

namespace DatasetCatalog.Arff

/-- The declared kind of an attribute. -/
inductive Kind where
  | numeric
  | nominal
  | string
  | date
  deriving DecidableEq

namespace Kind

/-- The name of a kind. -/
def name : Kind → String
  | numeric => "numeric"
  | nominal => "nominal"
  | string => "string"
  | date => "date"

/-- All kinds. -/
def all : List Kind := [numeric, nominal, string, date]

/-- The kind of a name. -/
def ofName? (s : String) : Option Kind := all.find? fun k => k.name == s

end Kind

/-- A declared attribute. -/
structure Attribute where
  /-- The name of the attribute. -/
  name : String
  /-- The declared kind. -/
  kind : Kind
  /-- The declared levels of a nominal attribute, in order. -/
  levels : List String := []
  /-- The format of a date attribute, when one is given. -/
  dateFormat : Option String := none
  /-- The levels carry an order. -/
  ordered : Bool := false
  deriving DecidableEq

/-- A cell of a row. -/
inductive Cell where
  /-- No value. -/
  | missing
  /-- A value outside the declared levels. -/
  | unknownLevel
  /-- The text of a value. -/
  | text (s : String)
  deriving DecidableEq

namespace Cell

/-- The text of a cell that holds a value. -/
def text? : Cell → Option String
  | text s => some s
  | _ => none

end Cell

/-- Declarations and rows of an ARFF document. -/
structure ParsedTable where
  /-- The name of the relation; empty when none is given. -/
  relation : String
  /-- The attributes in declared order. -/
  attributes : List Attribute
  /-- The rows, each a list of cells. -/
  rows : List (List Cell)
  /-- How many malformed rows were left out. -/
  skipped : Nat := 0
  deriving DecidableEq

namespace ParsedTable

/-- The names of the attributes. -/
def names (t : ParsedTable) : List String := t.attributes.map (·.name)

/-- The names of the ordered attributes. -/
def orderedNames (t : ParsedTable) : List String :=
  (t.attributes.filter (·.ordered)).map (·.name)

/-- The cells at one position of every row; `none` when a row is too short. -/
def column? (t : ParsedTable) (i : Nat) : Option (List Cell) := t.rows.mapM (·[i]?)

/-- Equal relations, attributes and rows; skipped rows do not count. -/
def same (a b : ParsedTable) : Bool :=
  a.relation == b.relation && a.attributes == b.attributes && a.rows == b.rows

end ParsedTable

end DatasetCatalog.Arff
