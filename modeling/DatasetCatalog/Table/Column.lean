import DatasetCatalog.Number.Basic
import DatasetCatalog.Text.Quoted

/-! # Typed columns

  A column has a scientific type, dense values and a bitmap that tells which of them are missing.
  The value in a missing slot is a filler. Columns of a finite type hold codes, which are positions
  in their list of levels; every present code is one.
-/

namespace DatasetCatalog

/-- The scientific type of a column. -/
inductive Scitype where
  | continuous
  | count
  | multiclass
  | orderedFactor
  | textual
  deriving DecidableEq

namespace Scitype

/-- The name of a type. -/
def name : Scitype → String
  | continuous => "continuous"
  | count => "count"
  | multiclass => "multiclass"
  | orderedFactor => "ordinedfactor"
  | textual => "textual"

/-- All types. -/
def all : List Scitype := [continuous, count, multiclass, orderedFactor, textual]

/-- The type of a name. -/
def ofName? (s : String) : Option Scitype := all.find? fun t => t.name == s

/-- The values of the type are levels. -/
def isFinite : Scitype → Bool
  | multiclass | orderedFactor => true
  | _ => false

/-- The finite type with or without an order. -/
def finite (ordered : Bool) : Scitype := if ordered then orderedFactor else multiclass

end Scitype

/-- Why columns do not form a table. -/
inductive TableError where
  /-- Values and bitmap are no lists of one length. -/
  | shape (column : String)
  /-- The bitmap does not consist of truth values. -/
  | maskType (column : String)
  /-- A present code is no position in the levels. -/
  | codeRange (column : String)
  /-- A column that is not finite has levels. -/
  | strayLevels (column : String)
  | duplicateName (column : String)
  | rowCount (column : String) (found expected : Nat)
  | unknownColumns (names : List String)
  | unknownContainer (name : String)
  deriving DecidableEq

/-- The wording of an error. -/
def TableError.message : TableError → String
  | shape c => column c "values and missing bitmap must be 1-d and equally long"
  | maskType c => column c "missing bitmap must be boolean"
  | codeRange c => column c "level code out of range"
  | strayLevels c => column c "only finite columns carry levels"
  | duplicateName c => "Duplicate column name: " ++ c
  | rowCount c found expected =>
    "Column '" ++ c ++ "' has " ++ integerText found ++ " rows, expected " ++ integerText expected
  | unknownColumns names => "Unknown columns: " ++ Text.citeAll names
  | unknownContainer name => "Unknown container: " ++ Text.cite name
where
  /-- A message about one column. -/
  column (name text : String) : String := "Column '" ++ name ++ "': " ++ text

/-! ### Values -/

/-- The dense values of a column. -/
inductive Values where
  | continuous (xs : List Binary64)
  | count (xs : List Int)
  | finite (ordered : Bool) (levels : List String) (codes : List Int)
  | textual (xs : List String)
  deriving DecidableEq

namespace Values

def length : Values → Nat
  | continuous xs => xs.length
  | count xs => xs.length
  | finite _ _ codes => codes.length
  | textual xs => xs.length

/-- The scientific type of values. -/
def scitype : Values → Scitype
  | continuous _ => .continuous
  | count _ => .count
  | finite ordered _ _ => .finite ordered
  | textual _ => .textual

/-- The levels; none for values that are not finite. -/
def levels : Values → List String
  | finite _ levels _ => levels
  | _ => []

/-- Every present code is a position in the levels. -/
def CodesValid (missing : List Bool) : Values → Prop
  | finite _ levels codes =>
    ∀ p ∈ codes.zip missing, p.2 = false → 0 ≤ p.1 ∧ p.1 < levels.length
  | _ => True

instance (missing : List Bool) (v : Values) : Decidable (v.CodesValid missing) := by
  cases v <;> simp only [CodesValid] <;> infer_instance

end Values

/-- A value in a cell of a typed column. -/
inductive Value where
  | number (n : Number)
  | text (s : String)
  deriving DecidableEq

/-- A named column with a scientific type and a missing bitmap. -/
structure Column where
  /-- The name of the column. -/
  name : String
  /-- The dense values. -/
  values : Values
  /-- True where the cell is missing. -/
  missing : List Bool
  /-- There is one bit per value. -/
  length_eq : values.length = missing.length
  /-- Present codes are positions in the levels. -/
  codes_valid : values.CodesValid missing
  deriving DecidableEq

namespace Column

/-- Forms a column, unless lengths or codes do not fit. -/
def ofValues (name : String) (values : Values) (missing : List Bool) : Except TableError Column :=
  if hl : values.length = missing.length then
    if hc : values.CodesValid missing then .ok ⟨name, values, missing, hl, hc⟩
    else .error (.codeRange name)
  else .error (.shape name)

def scitype (c : Column) : Scitype := c.values.scitype

def levels (c : Column) : List String := c.values.levels

/-- The number of rows. -/
def length (c : Column) : Nat := c.missing.length

/-- The number of missing cells. -/
def missingCount (c : Column) : Nat := c.missing.count true

/-- The label of a code. -/
def labelAt (levels : List String) (code : Int) : String := levels[code.toNat]?.getD ""

/-- Hides the values of missing cells. -/
def hide (missing : List Bool) (values : List Value) : List (Option Value) :=
  (values.zip missing).map fun (v, m) => if m then none else some v

/-- The cells: numbers, level labels or texts, and nothing where a cell is missing. -/
def toList (c : Column) : List (Option Value) :=
  hide c.missing <| match c.values with
    | .continuous xs => xs.map fun x => .number (.float x)
    | .count xs => xs.map fun n => .number (.int n)
    | .finite _ levels codes => codes.map fun code => .text (labelAt levels code)
    | .textual xs => xs.map .text

/-- The values of the cells that are not missing. -/
def present {α : Type} (missing : List Bool) (xs : List α) : List α :=
  (xs.zip missing).filterMap fun (x, m) => if m then none else some x

/-- Pairwise equality by value. -/
def sameBy {α : Type} (eq : α → α → Bool) : List α → List α → Bool
  | [], [] => true
  | x :: xs, y :: ys => eq x y && sameBy eq xs ys
  | _, _ => false

/-- Columns are the same when name, type, levels, bitmap and present values are; fillers do not
    count, and the two zeros are one value. -/
def same (a b : Column) : Bool :=
  a.name == b.name && a.missing == b.missing &&
    match a.values, b.values with
    | .continuous xs, .continuous ys =>
      sameBy (fun x y => (Number.float x).same (.float y)) (present a.missing xs)
        (present b.missing ys)
    | .count xs, .count ys => present a.missing xs == present b.missing ys
    | .finite o ls xs, .finite p ms ys =>
      o == p && ls == ms && present a.missing xs == present b.missing ys
    | .textual xs, .textual ys => present a.missing xs == present b.missing ys
    | _, _ => false

end Column

end DatasetCatalog
