import DatasetCatalog.Table.Column

/-! # Tables

  A table is an ordered collection of columns with distinct names and one row count.
-/

namespace DatasetCatalog

/-- Columns with distinct names and one number of rows. -/
structure Table where
  /-- The columns in order. -/
  columns : List Column
  /-- The number of rows; zero when there is no column. -/
  rowCount : Nat
  deriving DecidableEq

namespace Table

/-- The names of the columns in order. -/
def names (t : Table) : List String := t.columns.map (·.name)

/-- Adds columns one after the other; the first column sets the number of rows. -/
def addAll (rows : Option Nat) (done : List Column) : List Column → Except TableError Table
  | [] => .ok ⟨done, rows.getD 0⟩
  | c :: rest =>
    if done.any (·.name == c.name) then .error (.duplicateName c.name)
    else if rows.getD c.length ≠ c.length then
      .error (.rowCount c.name c.length (rows.getD c.length))
    else addAll (some c.length) (done ++ [c]) rest

/-- Forms a table of columns. -/
def ofColumns (columns : List Column) : Except TableError Table := addAll none [] columns

/-- The column of a name. -/
def column? (t : Table) (name : String) : Option Column := t.columns.find? fun c => c.name == name

/-- The table with the named columns only, in the order of the names. -/
def select (t : Table) (names : List String) : Except TableError Table :=
  match names.filter fun n => (t.column? n).isNone with
  | [] => ofColumns (names.filterMap t.column?)
  | unknown => .error (.unknownColumns unknown)

/-- The scientific type of each column. -/
def schema (t : Table) : List (String × Scitype) := t.columns.map fun c => (c.name, c.scitype)

/-- Same columns in the same order. -/
def same (a b : Table) : Bool := Column.sameBy Column.same a.columns b.columns

/-- A one-line summary: the row count, and name and type of each column. -/
def summary (t : Table) : String :=
  "Table(" ++ integerText t.rowCount ++ " rows; " ++
    ", ".intercalate (t.schema.map fun (name, type) => name ++ ":" ++ type.name) ++ ")"

end Table

end DatasetCatalog
