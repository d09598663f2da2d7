import DatasetCatalog.Number.Basic
import DatasetCatalog.Text.Quoted

/-! # JSON values

  A JSON value with exact numbers. An object keeps its keys in order and each key once: a key that
  is given again keeps its place and takes the new value. Messages cite values in a display form
  of their own, with words for the constants and quoted texts.
-/

namespace DatasetCatalog

/-- A JSON value. -/
inductive Json where
  | null
  | bool (b : Bool)
  | number (n : Number)
  | str (s : String)
  | arr (items : List Json)
  | obj (fields : List (String × Json))
  deriving BEq, Inhabited

namespace Json

def int (n : Int) : Json := .number (.int n)

/-! ### Objects -/

/-- Sets a key: at its place when it is there, at the end otherwise. -/
def setField {α : Type} (fields : List (String × α)) (key : String) (value : α) :
    List (String × α) :=
  match fields with
  | [] => [(key, value)]
  | (k, v) :: rest => if k = key then (key, value) :: rest else (k, v) :: setField rest key value

/-- Fields in order, where a later value replaces an earlier one of the same key. -/
def ofPairs {α : Type} (pairs : List (String × α)) : List (String × α) :=
  pairs.foldl (fun fields (k, v) => setField fields k v) []

/-- The value of a key of an object. -/
def field? : Json → String → Option Json
  | obj fields, key => fields.lookup key
  | _, _ => none

/-- The name of the type of a value. -/
def typeName : Json → String
  | null => "NoneType"
  | bool _ => "bool"
  | number (.int _) => "int"
  | number (.float _) => "float"
  | str _ => "str"
  | arr _ => "list"
  | obj _ => "dict"

/-! ### Display -/

/-- The word of a truth value. -/
def truthWord (b : Bool) : String := if b then "True" else "False"

mutual

/-- A value as messages cite it. -/
def display : Json → String
  | null => "None"
  | bool b => truthWord b
  | number n => n.write
  | str s => Text.cite s
  | arr items => "[" ++ displayItems items ++ "]"
  | obj fields => "\x7b" ++ displayFields fields ++ "\x7d"

/-- Items separated by commas. -/
def displayItems : List Json → String
  | [] => ""
  | [item] => display item
  | item :: rest => display item ++ ", " ++ displayItems rest

/-- Fields separated by commas. -/
def displayFields : List (String × Json) → String
  | [] => ""
  | [(key, value)] => Text.cite key ++ ": " ++ display value
  | (key, value) :: rest =>
    Text.cite key ++ ": " ++ display value ++ ", " ++ displayFields rest

end

mutual

/-- A value can be displayed: all integers in it have a text. -/
def isWritable : Json → Bool
  | number (.int n) => fitsInteger n
  | arr items => itemsWritable items
  | obj fields => fieldsWritable fields
  | _ => true

/-- All items can be displayed. -/
def itemsWritable : List Json → Bool
  | [] => true
  | item :: rest => isWritable item && itemsWritable rest

/-- The values of all fields can be displayed. -/
def fieldsWritable : List (String × Json) → Bool
  | [] => true
  | (_, value) :: rest => isWritable value && fieldsWritable rest

end

/-- A value as text: a string as it is, everything else as it is displayed. -/
def asText : Json → String
  | str s => s
  | v => v.display

end Json

end DatasetCatalog
