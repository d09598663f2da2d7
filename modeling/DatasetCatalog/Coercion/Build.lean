import DatasetCatalog.Coercion.Profile
import DatasetCatalog.Table.Basic

/-! # Building a column of a chosen type

  Each scientific type has a builder that turns the cells of a column into values. Levels of a
  nominal attribute are the declared ones; other columns take their distinct texts in order, or,
  when they hold numbers only, their distinct numbers in numeric order.
-/

namespace DatasetCatalog.Coercion

open Arff

/-- What is wrong with a cell, or with a request for a type. -/
inductive CoercionFault where
  | notNumber (text : String)
  | notWhole (text : String)
  | notInt64 (text : String)
  | notLevel (text : String)
  /-- A type is forced on a column that does not exist. -/
  | unknownColumn
  deriving DecidableEq

/-- Why a column cannot be given a type. -/
structure CoercionError where
  /-- The name of the attribute. -/
  column : String
  /-- The row of the cell at fault. -/
  row : Option Nat
  /-- What is wrong. -/
  fault : CoercionFault
  deriving DecidableEq

/-- The wording of a fault. -/
def CoercionFault.message : CoercionFault → String
  | notNumber s => Text.cite s ++ " is not a number"
  | notWhole s => Text.cite s ++ " is not a whole number"
  | notInt64 s => Text.cite s ++ " does not fit in a 64-bit integer"
  | notLevel s => Text.cite s ++ " is not a declared level"
  | unknownColumn => "override names an unknown column"

/-- The wording of an error. -/
def CoercionError.message (e : CoercionError) : String :=
  let row := match e.row with
    | some i => ", row " ++ integerText i
    | none => ""
  "attribute '" ++ e.column ++ "'" ++ row ++ ": " ++ e.fault.message

/-! ### Cells -/

/-- What a builder makes of the cells: one value or nothing for each, counted from `row` on. -/
def convertFrom {α : Type} (name : String) (convert : String → Except CoercionFault (Option α)) :
    Nat → List Cell → Except CoercionError (List (Option α))
  | _, [] => .ok []
  | row, cell :: rest =>
    match cell with
    | .text s => match convert s with
      | .error fault => .error ⟨name, some row, fault⟩
      | .ok v => (convertFrom name convert (row + 1) rest).map (v :: ·)
    | _ => (convertFrom name convert (row + 1) rest).map (none :: ·)

/-- Dense values with a filler, and the bitmap of what is missing. -/
def dense {α : Type} (filler : α) (cells : List (Option α)) : List α × List Bool :=
  (cells.map (·.getD filler), cells.map (·.isNone))

/-- A cell as a double; a text that says so is missing. -/
def toReal (s : String) : Except CoercionFault (Option Binary64) :=
  if isNaNText s then .ok none
  else match realOf? s with
    | some x => .ok (some x)
    | none => .error (.notNumber s)

/-- A cell as a stored integer; a text that says so is missing. -/
def toCount (s : String) : Except CoercionFault (Option Int) :=
  if isNaNText s then .ok none
  else match wholeOf? s with
    | some n => if fitsInt64 n then .ok (some n) else .error (.notInt64 s)
    | none => .error (.notWhole s)

/-! ### Levels -/

/-- The position of the last level of a name. -/
def codeOf? (levels : List String) (label : String) : Option Int :=
  -- from behind, because a level that is declared twice has its later code
  (levels.zipIdx.reverse.lookup label).map fun i => (i : Int)

/-- A cell as the code of its label. -/
def toCode (levels : List String) (label : String) : Except CoercionFault (Option Int) :=
  match codeOf? levels label with
  | some code => .ok (some code)
  | none => .error (.notLevel label)

/-- The declared levels, or the distinct texts in ascending order. -/
def textLevels (attr : Attribute) (cells : List Cell) : List String :=
  if attr.kind = .nominal then attr.levels
  else (dedupBy (· == ·) (cells.filterMap Cell.text?)).mergeSort fun a b => decide (a ≤ b)

/-- The label of a cell among levels that are numbers; a text that says so is missing. -/
def numericLabel? (s : String) : Option String :=
  if isNaNText s then none else (numberOf? s).map Number.plain

/-- The distinct numbers of the cells in ascending order, as labels. -/
def numericLevels (cells : List Cell) : List String :=
  let numbers := (presentTexts cells).filterMap numberOf?
  ((dedupBy Number.same numbers).mergeSort Number.le).map Number.plain

/-- A cell as the code of its number. -/
def toNumericCode (levels : List String) (s : String) : Except CoercionFault (Option Int) :=
  match numericLabel? s with
  | none => .ok none
  | some label => toCode levels label

/-! ### Columns -/

/-- Why the columns do not become a table. -/
inductive CoerceError where
  /-- A cell or a forced type does not fit. -/
  | coercion (e : CoercionError)
  /-- The columns do not form a table. -/
  | table (e : TableError)
  /-- A row has fewer cells than there are attributes. -/
  | shortRow
  deriving DecidableEq

/-- A column of dense values. -/
def ofDense {α : Type} (attr : Attribute) (filler : α) (values : List α → Values)
    (cells : Except CoercionError (List (Option α))) : Except CoerceError Column :=
  match cells with
  | .error e => .error (.coercion e)
  | .ok cells =>
    let (xs, missing) := dense filler cells
    match Column.ofValues attr.name (values xs) missing with
    | .ok column => .ok column
    | .error e => .error (.table e)

/-- A column of level codes. -/
def buildFinite (attr : Attribute) (cells : List Cell) (ordered numeric : Bool) :
    Except CoerceError Column :=
  let levels := if numeric then numericLevels cells else textLevels attr cells
  let convert := if numeric then toNumericCode levels else toCode levels
  ofDense attr 0 (.finite ordered levels) (convertFrom attr.name convert 0 cells)

/-- A column of a type. Levels are numbers when `numeric` says so. -/
def build (attr : Attribute) (cells : List Cell) (type : Scitype) (numeric : Bool) :
    Except CoerceError Column :=
  match type with
  | .continuous =>
    ofDense attr (.zero false) .continuous (convertFrom attr.name toReal 0 cells)
  | .count => ofDense attr 0 .count (convertFrom attr.name toCount 0 cells)
  | .multiclass => buildFinite attr cells false numeric
  | .orderedFactor => buildFinite attr cells true numeric
  | .textual =>
    ofDense attr "" .textual (convertFrom attr.name (fun s => .ok (some s)) 0 cells)

end DatasetCatalog.Coercion
