import DatasetCatalog.Coercion.Build
import DatasetCatalog.Coercion.Policy

/-! # Coercion

  Coercion turns a parsed table into a typed one, column by column. In strict mode the declared kind
  of an attribute fixes its type; in automatic mode a policy chooses from the profile of the column,
  unless nothing is present. A type that is forced on a column wins over both.

  A typed table can be taken apart again: numbers become numeric attributes, levels nominal ones
  and texts string attributes.
-/

namespace DatasetCatalog.Coercion

open Arff

/-- How types are chosen. -/
inductive Mode where
  /-- From the declared kind. -/
  | strict
  /-- From the data. -/
  | auto
  deriving DecidableEq

/-- The mode of a name. -/
def Mode.ofName? (s : String) : Option Mode :=
  if s = "strict" then some .strict else if s = "auto" then some .auto else none

/-- The type of a declared attribute. -/
def declaredType (attr : Attribute) : Scitype :=
  match attr.kind with
  | .numeric => .continuous
  | .nominal => .finite attr.ordered
  | .string | .date => .textual

/-- How a table is coerced. -/
structure Settings where
  /-- How types are chosen. -/
  mode : Mode := .strict
  /-- The policy of the automatic mode. -/
  policy : Policy := countPolicy defaultMaxLevels
  /-- The types that are forced on columns, by name. -/
  forced : List (String × Scitype) := []

/-- The column of one attribute. -/
def coerceColumn (settings : Settings) (attr : Attribute) (cells : List Cell) :
    Except CoerceError Column :=
  let p := profile attr cells
  match settings.forced.lookup attr.name with
  | some type => build attr cells type (decide (attr.kind ≠ .nominal) && p.allNumeric)
  | none =>
    if settings.mode = .strict ∨ p.present = 0 then build attr cells (declaredType attr) false
    else build attr cells (settings.policy p) p.allNumeric

/-- The columns of the attributes from position `i` on. -/
def coerceColumns (settings : Settings) (table : ParsedTable) :
    Nat → List Attribute → Except CoerceError (List Column)
  | _, [] => .ok []
  | i, attr :: rest =>
    match table.column? i with
    | none => .error .shortRow
    | some cells => do
      let column ← coerceColumn settings attr cells
      let columns ← coerceColumns settings table (i + 1) rest
      return column :: columns

/-- The names of forced columns that the table does not have, in ascending order. -/
def unknownForced (settings : Settings) (table : ParsedTable) : List String :=
  ((settings.forced.map (·.1)).filter (· ∉ table.names)).mergeSort fun a b => decide (a ≤ b)

/-- Coerces a table. -/
def coerce (settings : Settings) (table : ParsedTable) : Except CoerceError Table :=
  match unknownForced settings table with
  | name :: _ => .error (.coercion ⟨name, none, .unknownColumn⟩)
  | [] => match coerceColumns settings table 0 table.attributes with
    | .error e => .error e
    | .ok columns => match Table.ofColumns columns with
      | .error e => .error (.table e)
      | .ok t => .ok t

/-- For each attribute in order its name and the number of its cells with an unknown level. -/
def unknownCounts (table : ParsedTable) : List (String × Nat) :=
  table.attributes.zipIdx.map fun (attr, i) =>
    (attr.name, ((table.column? i).getD []).count .unknownLevel)

/-! ### Taking a table apart -/

/-- The cell of a value. -/
def cellOfValue : Option Value → Cell
  | none => .missing
  | some (.number n) => .text n.write
  | some (.text s) => .text s

/-- The attribute that a column is declared by. -/
def attributeOf (c : Column) : Attribute :=
  match c.values with
  | .continuous _ => { name := c.name, kind := .numeric }
  | .count _ => { name := c.name, kind := .numeric }
  | .finite ordered levels _ => { name := c.name, kind := .nominal, levels, ordered }
  | .textual _ => { name := c.name, kind := .string }

/-- The parsed table that a typed table is made of. -/
def toParsed (table : Table) (relation : String) : ParsedTable :=
  let cells := table.columns.map fun c => c.toList.map cellOfValue
  { relation, attributes := table.columns.map attributeOf
    rows := if table.columns.isEmpty then []
      else (List.range table.rowCount).map fun i => cells.map fun column => column.getD i .missing }

end DatasetCatalog.Coercion
