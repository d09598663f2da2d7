import DatasetCatalog.Arff.Basic
import DatasetCatalog.Arff.Token

/-! # Data rows

  A row is dense, with one value per attribute, or sparse, with pairs of a position and a value
  between braces. A position that a sparse row leaves out takes the default of its attribute: zero,
  the first level, or the empty text. An unquoted missing marker is a missing cell; a nominal value
  has to be a declared level, or becomes an unknown level when reading is lenient.
-/

namespace DatasetCatalog.Arff

open Text

/-- How rows are read. -/
structure RowRules where
  /-- Values outside the declared levels are refused. -/
  strict : Bool := true
  /-- The unquoted text that stands for a missing value. -/
  missingMarker : String := "?"
  deriving DecidableEq

/-- The place of a row in the document. -/
structure RowPlace where
  /-- The number of its line. -/
  line : Nat
  /-- Its index among the data lines. -/
  row : Nat
  deriving DecidableEq

/-- The cell that a written value stands for. -/
def resolveCell (rules : RowRules) (place : RowPlace) (attr : Attribute) (raw : RawCell) :
    Except FormatError Cell :=
  let value := String.ofList raw.value
  if raw.quoted = false ∧ value = rules.missingMarker then .ok .missing
  else if attr.kind = .nominal ∧ value ∉ attr.levels then
    if rules.strict then
      .error ⟨place.line, .undeclaredValue place.row value attr.name attr.levels⟩
    else .ok .unknownLevel
  else .ok (.text value)

/-- Resolves one written value per attribute. -/
def resolveAll (rules : RowRules) (place : RowPlace) :
    List Attribute → List RawCell → Except FormatError (List Cell)
  | attr :: attrs, raw :: raws => do
    let cell ← resolveCell rules place attr raw
    let rest ← resolveAll rules place attrs raws
    return cell :: rest
  | _, _ => .ok []

/-! ### Dense rows -/

/-- The text begins and ends with a brace of its own. -/
def isBraced (s : List Char) : Bool :=
  s.head? == some '{' && s.getLast? == some '}'

/-- The last value is a weight: between braces, and not quoted. -/
def endsInWeight (raws : List RawCell) : Bool :=
  match raws.getLast? with
  | some last => !last.quoted && isBraced last.value
  | none => false

/-- Reads a row with one value per attribute. -/
def readDense (rules : RowRules) (place : RowPlace) (attrs : List Attribute) (s : List Char) :
    Except FormatError (List Cell) := do
  let raws ← cells place.line s
  if raws.length = attrs.length then resolveAll rules place attrs raws
  else if raws.length = attrs.length + 1 && endsInWeight raws then
    throw ⟨place.line, .weighted place.row⟩
  else throw ⟨place.line, .cellCount place.row attrs.length raws.length⟩

/-! ### Sparse rows -/

/-- The default of an attribute that a sparse row leaves out; a nominal attribute without levels
    has none. -/
def sparseDefault (attr : Attribute) : Option String :=
  match attr.kind with
  | .nominal => attr.levels.head?
  | .numeric => some "0"
  | .string => some ""
  | .date => some ""

/-- Reads one item of a sparse row: a position that was not given before, and its cell. -/
def readItem (rules : RowRules) (place : RowPlace) (attrs : List Attribute)
    (given : List (Nat × Cell)) (item : List Char) : Except FormatError (Nat × Cell) := do
  let malformed : FormatError := ⟨place.line, .malformedSparse place.row (String.ofList item)⟩
  let (indexText, valueText) := splitWord (strip item)
  if indexText = [] ∨ valueText = [] then throw malformed
  let index ← match Numeral.integer indexText with
    | .ok n => pure n
    | .error _ => throw ⟨place.line, .sparseIndex place.row (String.ofList indexText)⟩
  let outside : FormatError := ⟨place.line, .sparseRange place.row index⟩
  if index < 0 then throw outside
  let i := index.toNat
  match attrs[i]? with
  | none => throw outside
  | some attr =>
    if (given.lookup i).isSome then throw ⟨place.line, .sparseRepeated place.row index⟩
    match ← cells place.line (strip valueText) with
    | [raw] => return (i, ← resolveCell rules place attr raw)
    | _ => throw malformed

/-- Reads the items of a sparse row in order. -/
def readItems (rules : RowRules) (place : RowPlace) (attrs : List Attribute)
    (given : List (Nat × Cell)) : List (List Char) → Except FormatError (List (Nat × Cell))
  | [] => .ok given
  | item :: items => do
    let pair ← readItem rules place attrs given item
    readItems rules place attrs (pair :: given) items

/-- One cell per attribute: the given one, or the default. -/
def fillSparse (rules : RowRules) (place : RowPlace) (given : List (Nat × Cell)) :
    Nat → List Attribute → Except FormatError (List Cell)
  | _, [] => .ok []
  | i, attr :: attrs => do
    let cell ← match given.lookup i with
      | some cell => pure cell
      -- the default goes through the same check as a written value
      | none => match sparseDefault attr with
        | some value => resolveCell rules place attr ⟨value.toList, false⟩
        | none => pure .missing
    let rest ← fillSparse rules place given (i + 1) attrs
    return cell :: rest

/-- Reads the inside of a sparse row. -/
def readSparse (rules : RowRules) (place : RowPlace) (attrs : List Attribute)
    (inner : List Char) : Except FormatError (List Cell) := do
  let given ←
    if strip inner = [] then pure []
    else readItems rules place attrs [] (← sparseItems place.line inner)
  fillSparse rules place given 0 attrs

/-- Reads a data line that is stripped already. -/
def readRow (rules : RowRules) (place : RowPlace) (attrs : List Attribute) (s : List Char) :
    Except FormatError (List Cell) :=
  if isBraced s then readSparse rules place attrs s.tail.dropLast
  else readDense rules place attrs s

end DatasetCatalog.Arff
