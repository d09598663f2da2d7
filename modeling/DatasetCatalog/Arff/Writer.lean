import DatasetCatalog.Arff.Basic
import DatasetCatalog.Arff.Token

/-! # Writing a document

  A parsed table is written as a document that reads back to it. That the levels of an attribute
  carry an order has no place in the document; and a cell whose value is unknown cannot be
  written.
-/

namespace DatasetCatalog.Arff

open Text

/-- A row that holds an unknown level cannot be written. -/
structure WriteError where
  /-- The index of the row. -/
  row : Nat
  deriving DecidableEq

/-- The wording of an error. -/
def WriteError.message (e : WriteError) : String :=
  "row " ++ integerText e.row ++ ": cannot write a cell holding an unknown level"

/-- A value of a header line. -/
def headerValue (s : String) : List Char := quoteValue s.toList

/-- The type of an attribute. -/
def writeType (attr : Attribute) : List Char :=
  match attr.kind with
  | .nominal => '{' :: joinWith [','] (attr.levels.map headerValue) ++ ['}']
  | .date => match attr.dateFormat with
    | some format =>
      if format = "" then "date".toList else "date ".toList ++ headerValue format
    | none => "date".toList
  | .string => "string".toList
  | .numeric => "numeric".toList

/-- The line that declares an attribute. -/
def writeAttribute (attr : Attribute) : List Char :=
  "@attribute ".toList ++ headerValue attr.name ++ ' ' :: writeType attr

/-- The text of a cell. A value that looks like the missing marker is quoted. -/
def writeCell (marker : List Char) : Cell → Option (List Char)
  | .missing => some marker
  | .unknownLevel => none
  | .text s =>
    let value := s.toList
    let quoted := quoteValue value
    some (if quoted = value ∧ value = marker then '\'' :: value ++ ['\''] else quoted)

/-- The lines of the rows, which are counted from `index` on. -/
def writeRows (marker : List Char) (index : Nat) :
    List (List Cell) → Except WriteError (List (List Char))
  | [] => .ok []
  | row :: rest =>
    match row.mapM (writeCell marker) with
    | none => .error ⟨index⟩
    | some cells => (writeRows marker (index + 1) rest).map (joinWith [','] cells :: ·)

/-- The lines in front of the rows. -/
def writeHeader (table : ParsedTable) : List (List Char) :=
  ("@relation ".toList ++ headerValue table.relation) :: [] ::
    table.attributes.map writeAttribute ++ [[], "@data".toList]

/-- Writes a document, with `marker` for missing cells. -/
def write (table : ParsedTable) (marker : String := "?") : Except WriteError (List Char) := do
  let rows ← writeRows marker.toList 0 table.rows
  return joinWith ['\n'] (writeHeader table ++ rows) ++ ['\n']

end DatasetCatalog.Arff
