import DatasetCatalog.Foreign
import DatasetCatalog.Table.Basic

/-! # Frames and containers

  A table is handed out as it is, as a frame of one of the two libraries, or as what a caller makes
  of it. One library is handed the dense values of a column, with their bitmap or with codes, and
  the other one the list of its cells. Only one of them is told a type for every column.
-/

namespace DatasetCatalog

/-- What a table is handed out as. -/
inductive FrameLibrary where
  | pandas
  | polars
  deriving DecidableEq

/-- The name of a library. -/
def FrameLibrary.name : FrameLibrary → String
  | pandas => "pandas"
  | polars => "polars"

/-- The library of a name. -/
def FrameLibrary.ofName? (s : String) : Option FrameLibrary :=
  if s = "pandas" then some .pandas else if s = "polars" then some .polars else none

namespace Column

/-! ### Series -/

/-- Doubles, of which the missing ones are overwritten so that they are no numbers. -/
def overwritten (missing : List Bool) (xs : List Binary64) : List Binary64 :=
  (xs.zip missing).map fun (x, m) => if m then .nan else x

/-- Codes, of which the missing ones are overwritten by one that no category has. -/
def categoryCodes (missing : List Bool) (codes : List Int) : List Int :=
  (codes.zip missing).map fun (code, m) => if m then -1 else code

/-- What pandas is handed of a column. Doubles and codes say themselves where they are missing, and
    integers have the bitmap beside them. -/
def pandasData (c : Column) : PandasData :=
  match c.values with
  | .continuous xs => .floats (overwritten c.missing xs)
  | .count ns => .integers ns c.missing
  | .finite ordered levels codes => .categories (categoryCodes c.missing codes) levels ordered
  | .textual _ => .strings c.toList

/-- A column as a series of polars. Only levels in order become the values of a type. -/
def toPolars {α : Type} (polars : Polars α) (c : Column) : Except ForeignError polars.Series :=
  match c.values with
  | .continuous _ => polars.series c.name c.toList .float64
  | .count _ => polars.series c.name c.toList .int64
  | .finite true levels _ => polars.series c.name c.toList (.enum levels)
  | .finite false _ _ => do polars.categorical (← polars.series c.name c.toList .utf8)
  | .textual _ => polars.series c.name c.toList .utf8

end Column

namespace Table

/-! ### Frames -/

/-- A table as a frame of pandas. -/
def toPandas {α : Type} (pandas : Pandas α) (t : Table) : Except ForeignError α := do
  let columns ← t.columns.mapM fun c => do return (c.name, ← pandas.series c.name c.pandasData)
  pandas.frame columns t.rowCount

/-- A table as a frame of polars. -/
def toPolars {α : Type} (polars : Polars α) (t : Table) : Except ForeignError α := do
  polars.frame (← t.columns.mapM (Column.toPolars polars))

/-- A table as a frame of a library. -/
def toFrame (libraries : FrameLibraries) (t : Table) :
    FrameLibrary → Except ForeignError libraries.Frame
  | .pandas => t.toPandas libraries.pandas
  | .polars => t.toPolars libraries.polars

end Table

/-! ### Containers -/

/-- What a table is to be put into. -/
inductive ContainerChoice (α : Type) where
  /-- It stays a table. -/
  | table
  /-- The frame of the library of a name. -/
  | named (name : String)
  /-- What a caller makes of it. -/
  | made (make : Table → Except ForeignError α)

/-- A table, or what it was put into. -/
inductive Container (α : Type) where
  | table (t : Table)
  | frame (x : α)
  deriving DecidableEq

/-- Why a container cannot be made. -/
inductive ContainerError where
  | table (e : TableError)
  /-- The library or the caller failed. -/
  | foreign (e : ForeignError)
  deriving DecidableEq

/-- What foreign code made of a table, as a container. -/
def Container.ofForeign {α : Type} :
    Except ForeignError α → Except ContainerError (Container α)
  | .ok x => .ok (.frame x)
  | .error e => .error (.foreign e)

/-- Forms a table of columns and puts it into a container. -/
def Container.ofColumns (libraries : FrameLibraries) (columns : List Column)
    (choice : ContainerChoice libraries.Frame) :
    Except ContainerError (Container libraries.Frame) :=
  match Table.ofColumns columns with
  | .error e => .error (.table e)
  | .ok t => match choice with
    | .table => .ok (.table t)
    | .made make => ofForeign (make t)
    | .named name => match FrameLibrary.ofName? name with
      | none => .error (.table (.unknownContainer name))
      | some library => ofForeign (t.toFrame libraries library)

end DatasetCatalog
