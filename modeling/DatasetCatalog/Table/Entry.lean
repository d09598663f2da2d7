import DatasetCatalog.Table.Column
import DatasetCatalog.Json.Basic

/-! # Columns from plain values

  A column can be built from values of any kind, which are converted to what its type stores:
  doubles, 64-bit integers or texts. Missing slots take a neutral filler, whatever stands in them.
-/

namespace DatasetCatalog

/-- Why a value cannot be stored. -/
inductive StoreFault where
  /-- The value is no number. -/
  | value
  /-- The number is out of range. -/
  | overflow
  /-- The kind of the value cannot be converted at all. -/
  | type
  deriving DecidableEq

/-- Why a column cannot be built. -/
inductive ColumnError where
  | table (e : TableError)
  | store (fault : StoreFault)
  deriving DecidableEq

/-- The integers that are stored. -/
def fitsInt64 (n : Int) : Bool :=
  decide (-9223372036854775808 ≤ n) && decide (n ≤ 9223372036854775807)

namespace Column

/-- The double that is stored for a value. -/
def storeFloat : Json → Except StoreFault Binary64
  | .null => .ok .nan
  | .bool b => .ok ((Binary64.ofInt? (if b then 1 else 0)).getD .nan)
  | .number (.float x) => .ok x
  | .number (.int n) => match Binary64.ofInt? n with
    | some x => .ok x
    | none => .error .overflow
  | .str s => match Binary64.ofText? s.toList with
    | some x => .ok x
    | none => .error .value
  | _ => .error .value

/-- An integer, if it can be stored. -/
def checkInt64 (n : Int) : Except StoreFault Int :=
  if fitsInt64 n then .ok n else .error .overflow

/-- The integer that is stored for a value; a fraction is cut off. -/
def storeInt : Json → Except StoreFault Int
  | .null => .error .type
  | .bool b => .ok (if b then 1 else 0)
  | .number (.int n) => checkInt64 n
  | .number (.float .nan) => .error .value
  | .number (.float x) => match x.truncate? with
    | some n => checkInt64 n
    | none => .error .overflow
  | .str s => match Numeral.integer s.toList with
    | .ok n => checkInt64 n
    | .error _ => .error .value
  | _ => .error .value

/-- Converts one value per bit; a missing slot takes the filler. -/
def storeAll {α : Type} (convert : Json → Except StoreFault α) (filler : α) (values : List Json)
    (missing : List Bool) : Except StoreFault (List α) :=
  (values.zip missing).mapM fun (v, m) => if m then .ok filler else convert v

/-- The values of a type, without levels. -/
def storeValues (type : Scitype) (values : List Json) (missing : List Bool)
    (levels : List String) : Except StoreFault Values :=
  match type with
  | .continuous => (storeAll storeFloat (.zero false) values missing).map .continuous
  | .count => (storeAll storeInt 0 values missing).map .count
  | .multiclass => (storeAll storeInt 0 values missing).map (.finite false levels)
  | .orderedFactor => (storeAll storeInt 0 values missing).map (.finite true levels)
  | .textual => (storeAll (fun v => .ok v.asText) "" values missing).map .textual

/-- Checks values and levels that are stored already. -/
def ofStored (name : String) (type : Scitype) (values : Values) (missing : List Bool)
    (levels : List String) : Except TableError Column := do
  let column ← ofValues name values missing
  if type.isFinite = false ∧ levels ≠ [] then throw (.strayLevels name)
  return column

/-- Builds a column from plain values. -/
def ofPlain (name : String) (type : Scitype) (values : List Json) (missing : List Bool)
    (levels : List String) : Except ColumnError Column :=
  match storeValues type values missing levels with
  | .error fault => .error (.store fault)
  | .ok stored => match ofStored name type stored missing levels with
    | .error e => .error (.table e)
    | .ok column => .ok column

/-! ### Columns from arrays -/

/-- The kind of the elements of an array. -/
inductive ElementKind where
  | float
  | integer
  | truth
  | anything
  deriving DecidableEq

/-- An array of elements of one kind, which may be nested. -/
structure RawArray where
  /-- The kind of the elements. -/
  kind : ElementKind
  /-- The elements, or lists of them. -/
  items : List Json

/-- The lengths of nested lists, outermost first. -/
def RawArray.shape (a : RawArray) : List Nat :=
  a.items.length :: match a.items with
    | .arr inner :: _ => [inner.length]
    | _ => []

/-- An element as an array of some kind holds it. -/
def castElement (kind : ElementKind) (v : Json) : Except StoreFault Json :=
  match kind with
  | .float => (storeFloat v).map fun x => .number (.float x)
  | .integer => (storeInt v).map fun n => .number (.int n)
  | .truth => match v with
    | .bool b => .ok (.bool b)
    | .null => .ok (.bool false)
    | .number n => .ok (.bool (!n.same (.int 0)))
    | .str s => .ok (.bool (s != ""))
    | _ => .error .value
  | .anything => .ok v

/-- The elements of an array in one list, cast to its kind. -/
def RawArray.elements (a : RawArray) : Except StoreFault (List Json) :=
  (a.items.flatMap fun v => match v with
    | .arr inner => inner
    | v => [v]).mapM (castElement a.kind)

/-- Builds a column from an array of values and an array that is its bitmap. Nothing is filled
    in: a missing slot keeps its value. -/
def ofArrays (name : String) (type : Scitype) (values mask : RawArray) (levels : List String) :
    Except ColumnError Column :=
  let stored : Except StoreFault (Values × List Bool) := do
    let elements ← values.elements
    let bits ← mask.elements
    let all := bits.map fun _ => false
    let padded := all ++ List.replicate (elements.length - bits.length) false
    return (← storeValues type elements padded levels, bits.map (· == .bool true))
  match stored with
  | .error fault => .error (.store fault)
  | .ok (stored, missing) =>
    if values.shape ≠ mask.shape ∨ values.shape.length ≠ 1 then .error (.table (.shape name))
    else if mask.kind ≠ .truth then .error (.table (.maskType name))
    else match ofStored name type stored missing levels with
      | .error e => .error (.table e)
      | .ok column => .ok column

end Column

end DatasetCatalog
