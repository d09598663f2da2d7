import DatasetCatalog.Arff.Basic
import DatasetCatalog.Arff.Token

/-! # Header lines

  The `@relation` and `@attribute` lines of a document. A name ends at a space, a tab or an opening
  brace unless it is quoted; what follows it is the type: a set of levels between braces, the name
  of a numeric type, `string`, or `date` with an optional format.
-/

namespace DatasetCatalog.Arff

open Text

/-- The value that a text begins with when it begins with a quote. -/
def leadingQuoted (line : Nat) (s : List Char) :
    Except FormatError (Option (List Char × List Char)) :=
  match s with
  | [] => .ok none
  | c :: body =>
    if isQuote c then
      match quotedBody c body with
      | none => .error ⟨line, .unterminatedQuote 1⟩
      | some r => .ok (some r)
    else .ok none

/-- The name of a relation, from what follows the keyword. -/
def readRelation (line : Nat) (rest : List Char) : Except FormatError (List Char) := do
  let s := strip rest
  match ← leadingQuoted line s with
  | some (name, _) => return name
  | none => return s

/-- The characters that end an unquoted attribute name. -/
def endsName (c : Char) : Bool := c == ' ' || c == '\t' || c == '{'

/-- The name of an attribute and its type, from what follows the keyword. -/
def splitName (line : Nat) (rest : List Char) : Except FormatError (List Char × List Char) := do
  let s := strip rest
  if s = [] then throw ⟨line, .missingName⟩
  match ← leadingQuoted line s with
  | some (name, after) => return (name, strip after)
  | none => return (s.takeWhile (!endsName ·), strip (s.dropWhile (!endsName ·)))

/-- The levels between braces; nothing between them means no levels. -/
def readLevels (line : Nat) (inner : List Char) : Except FormatError (List (List Char)) :=
  if strip inner = [] then .ok [] else (cells line inner).map (·.map (·.value))

/-- The levels of a type that begins with a brace. -/
def readNominal (line : Nat) (name : String) (spec : List Char) (ordered : Bool) :
    Except FormatError Attribute := do
  if spec.getLast? ≠ some '}' then throw ⟨line, .unterminatedLevels name⟩
  let levels ← readLevels line (spec.tail.dropLast)
  if ¬ levels.Nodup then throw ⟨line, .duplicateLevels name⟩
  return { name, kind := .nominal, levels := levels.map String.ofList, ordered }

/-- The names of the numeric types. -/
def numericTypes : List (List Char) := ["numeric".toList, "real".toList, "integer".toList]

/-- The attribute of a type that is not nominal. -/
def readSimple (line : Nat) (name : String) (spec : List Char) : Except FormatError Attribute := do
  let lowered := lower spec
  if lowered ∈ numericTypes then return { name, kind := .numeric }
  if lowered = "string".toList then return { name, kind := .string }
  if (splitWord lowered).1 = "date".toList then
    let format := strip (spec.drop 4)
    if format = [] then return { name, kind := .date }
    match ← leadingQuoted line format with
    | some (content, _) =>
      return { name, kind := .date, dateFormat := some (String.ofList content) }
    | none => return { name, kind := .date, dateFormat := some (String.ofList format) }
  if "relational".toList.isPrefixOf lowered then throw ⟨line, .relational name⟩
  throw ⟨line, .unknownType (String.ofList spec) name⟩

/-- The attribute that a line declares, from what follows the keyword. The names in `ordered` are
    those of attributes whose levels carry an order. -/
def readAttribute (line : Nat) (ordered : List String) (rest : List Char) :
    Except FormatError Attribute := do
  let (nameText, spec) ← splitName line rest
  let name := String.ofList nameText
  if spec = [] then throw ⟨line, .untyped name⟩
  if spec.head? = some '{' then
    readNominal line name spec (ordered.contains name)
  else
    if ordered.contains name then throw ⟨line, .notOrderable name⟩
    readSimple line name spec

end DatasetCatalog.Arff
