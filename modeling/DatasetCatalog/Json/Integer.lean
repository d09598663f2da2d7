import DatasetCatalog.Json.Basic

/-! # JSON values as integers

  A value counts as an integer when it is one, when it is a number that can be cut off to one, when
  it is a truth value, or when it is a text that spells one.
-/

namespace DatasetCatalog

/-- Why a value is no integer. -/
inductive IntegerFault where
  /-- Values of the type never are. -/
  | type
  /-- The value spells or holds no integer. -/
  | value
  /-- The value is infinite. -/
  | infinite
  deriving DecidableEq

/-- The integer of a value. -/
def Json.toInteger : Json → Except IntegerFault Int
  | .bool b => .ok (if b then 1 else 0)
  | .number (.int n) => .ok n
  | .number (.float .nan) => .error .value
  | .number (.float x) => match x.truncate? with
    | some n => .ok n
    | none => .error .infinite
  | .str s => match Numeral.integer s.toList with
    | .ok n => .ok n
    | .error _ => .error .value
  | _ => .error .type

/-- A data set as a caller names it. -/
structure DatasetName where
  /-- The identifier. -/
  id : Int
  /-- The identifier as the caller wrote it. -/
  shown : String
  deriving DecidableEq

namespace DatasetName

/-- The name of an identifier. -/
def ofInt (n : Int) : DatasetName := ⟨n, integerText n⟩

/-- Reads an identifier. -/
def ofJson (v : Json) : Except IntegerFault DatasetName := do
  let id ← v.toInteger
  return ⟨id, v.asText⟩

end DatasetName

end DatasetCatalog
