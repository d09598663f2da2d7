import DatasetCatalog.Catalog.Schema

/-! # Decoding records

  A record is decoded field by field in the order of its schema. An error names the path of the
  field at fault, from the root `$` of the response on.
-/

namespace DatasetCatalog.Catalog

open Text

/-- What is wrong with a value of a response. -/
inductive DecodeFault where
  /-- A value of another type, by name, where a text is expected. -/
  | notText (type : String)
  /-- A value, as it is shown, where an integer is expected. -/
  | notInteger (shown : String)
  /-- A value, as it is shown, where a truth value is expected. -/
  | notTruth (shown : String)
  /-- A value of another type, by name, where an object is expected. -/
  | notObject (type : String)
  /-- A field that the schema of the kind does not have. -/
  | unexpected (kind : String)
  | missing
  | negativeId
  | unknownDataType (text : String)
  /-- The response to the request of a path is no JSON. -/
  | notJson (path : String)
  deriving DecidableEq

/-- The wording of a fault. -/
def DecodeFault.message : DecodeFault → String
  | notText type => "expected a string, got " ++ type
  | notInteger shown => "expected an integer, got " ++ shown
  | notTruth shown => "expected a boolean, got " ++ shown
  | notObject type => "expected an object, got " ++ type
  | unexpected kind => "unexpected field in " ++ kind
  | missing => "required field is missing"
  | negativeId => "identifier must be non-negative"
  | unknownDataType text => "unknown attribute data_type " ++ cite text
  | notJson path => "response for " ++ path ++ " is not valid JSON"

/-- Why a response cannot be decoded. -/
inductive DecodeError where
  /-- The value at a path is at fault. -/
  | at (path : String) (fault : DecodeFault)
  /-- A text of digits at which the reader of integers gives up. -/
  | integer (text : String) (fault : Numeral.IntegerFault)
  /-- A number beyond the doubles. -/
  | tooLarge
  /-- The schema names a shape that does not exist. -/
  | unknownShape (name : String)
  deriving DecidableEq

/-! ### Values -/

/-- The decoded value of a field. -/
inductive FieldValue where
  | text (s : String)
  | integer (n : Int)
  | truth (b : Bool)
  | texts (xs : List String)
  | records (xs : List (List (String × Json)))
  | any (v : Json)

/-- A value as a list: itself when it is one, alone otherwise. -/
def asItems : Json → List Json
  | .arr items => items
  | v => [v]

/-- The path of an item. -/
def itemPath (path : String) (i : Nat) : String := path ++ "[" ++ integerText i ++ "]"

/-- The path of a field. -/
def fieldPath (path field : String) : String := path ++ "." ++ field

/-- A text; a number becomes its text. -/
def decodeText (path : String) : Json → Except DecodeError String
  | .str s => .ok s
  | .number n => .ok n.write
  | v => .error (.at path (.notText v.typeName))

/-- The text looks like an integer: digits behind any number of minus signs. -/
def looksInteger (s : List Char) : Bool :=
  let digits := (strip s).dropWhile (· == '-')
  !digits.isEmpty && digits.all isDigitLike

/-- An integer, or a text that holds one. -/
def decodeInteger (path : String) : Json → Except DecodeError Int
  | .bool _ => .error (.at path (.notInteger "bool"))
  | .number (.int n) => .ok n
  | .str s =>
    if looksInteger s.toList then
      match Numeral.integer (strip s.toList) with
      | .ok n => .ok n
      | .error fault => .error (.integer s fault)
    else .error (.at path (.notInteger (cite s)))
  | v => .error (.at path (.notInteger v.display))

/-- A truth value, or its word in any case. -/
def decodeTruth (path : String) : Json → Except DecodeError Bool
  | .bool b => .ok b
  | .str s =>
    let word := lower s.toList
    if word = "true".toList then .ok true
    else if word = "false".toList then .ok false
    else .error (.at path (.notTruth (cite s)))
  | v => .error (.at path (.notTruth v.display))

/-- Decodes items that are counted from `i` on. -/
def decodeItems {α : Type} (decode : String → Json → Except DecodeError α) (path : String) :
    Nat → List Json → Except DecodeError (List α)
  | _, [] => .ok []
  | i, v :: rest => do
    let x ← decode (itemPath path i) v
    let xs ← decodeItems decode path (i + 1) rest
    return x :: xs

/-- The fields of an object. -/
def decodeObject (path : String) : Json → Except DecodeError (List (String × Json))
  | .obj fields => .ok fields
  | v => .error (.at path (.notObject v.typeName))

/-- The value of a shape. -/
def decodeShape (path : String) (shape : Shape) (v : Json) : Except DecodeError FieldValue :=
  match shape with
  | .any => .ok (.any v)
  | .text => (decodeText path v).map .text
  | .integer => (decodeInteger path v).map .integer
  | .truth => (decodeTruth path v).map .truth
  | .texts => (decodeItems decodeText path 0 (asItems v)).map .texts
  | .records => (decodeItems decodeObject path 0 (asItems v)).map .records
  | .other name => .error (.unknownShape name)

/-! ### Records -/

/-- The decoded fields of a record. -/
abbrev Record := List (String × FieldValue)

/-- The value of a field, where null counts as absent. -/
def presentValue (fields : List (String × Json)) (name : String) : Option Json :=
  match fields.lookup name with
  | some .null => none
  | v => v

/-- Decodes the fields of a schema in order. -/
def decodeFields (path : String) (fields : List (String × Json)) :
    List FieldSpec → Except DecodeError Record
  | [] => .ok []
  | spec :: rest =>
    let path' := fieldPath path spec.name
    match presentValue fields spec.name with
    | none =>
      if spec.required then .error (.at path' .missing) else decodeFields path fields rest
    | some v => do
      let value ← decodeShape path' spec.shape v
      let record ← decodeFields path fields rest
      return (spec.name, value) :: record

/-- The first name in ascending order of a field that the schema does not have. -/
def unknownField (schema : Schema) (fields : List (String × Json)) : Option String :=
  (((fields.map (·.1)).filter (· ∉ schema.fields.map (·.name))).mergeSort
    fun a b => decide (a ≤ b)).head?

/-- Decodes a record. -/
def decodeRecord (schema : Schema) (strict : Bool) (path : String) (payload : Json) :
    Except DecodeError Record := do
  let fields ← decodeObject path payload
  match unknownField schema fields with
  | some name =>
    if strict then throw (.at (fieldPath path name) (.unexpected schema.kind))
  | none => pure ()
  decodeFields path fields schema.fields

/-- Decodes a list of records. -/
def decodeRecords (schema : Schema) (strict : Bool) (path : String) (items : List Json) :
    Except DecodeError (List Record) :=
  decodeItems (decodeRecord schema strict) path 0 items

/-- The value of a key of a response. -/
def unwrap (payload : Json) (key : String) : Except DecodeError Json :=
  match payload with
  | .obj fields => match fields.lookup key with
    | some v => .ok v
    | none => .error (.at (fieldPath "$" key) .missing)
  | v => .error (.at "$" (.notObject v.typeName))

end DatasetCatalog.Catalog
