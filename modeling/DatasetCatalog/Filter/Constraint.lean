import DatasetCatalog.Number.Basic
import DatasetCatalog.Text.Quoted

/-! # Constraints

  What a caller may give for a quality: a single value, a range, or a list of two bounds. Nothing
  is checked yet.
-/

namespace DatasetCatalog

/-- A constraint as it is given. -/
inductive Constraint where
  | absent
  | truth (b : Bool)
  | number (n : Number)
  | text (s : String)
  | items (xs : List Constraint)
  | range (lo hi : Constraint)

namespace Constraint

instance : Inhabited Constraint := ⟨absent⟩

mutual

/-- A constraint as messages cite it. -/
def display : Constraint → String
  | absent => "None"
  | truth b => if b then "True" else "False"
  | number n => n.write
  | text s => Text.cite s
  | items xs => "[" ++ displayItems xs ++ "]"
  | range lo hi => "FilterRange(lo=" ++ display lo ++ ", hi=" ++ display hi ++ ")"

/-- Items separated by commas. -/
def displayItems : List Constraint → String
  | [] => ""
  | [x] => display x
  | x :: rest => display x ++ ", " ++ displayItems rest

end

/-! ### Plain text -/

/-- Why a value has no plain text. -/
inductive PlainFault where
  /-- Truth values are no numbers. -/
  | truth
  /-- A text that is no numeral. -/
  | value
  /-- A value of another kind. -/
  | type
  deriving DecidableEq

/-- The wording for truth values. -/
def PlainFault.truthMessage : String := "booleans are not numbers here"

/-- The plain text of a value that is, or spells, a number. -/
def plain : Constraint → Except PlainFault String
  | truth _ => .error .truth
  | number n => .ok n.plain
  | text s => match Binary64.ofText? s.toList with
    | none => .error .value
    | some x => match x.toInt? with
      | none => .ok x.write
      | some _ => match Numeral.integer s.toList with
        | .ok n => .ok (integerText n)
        | .error _ => .error .value
  | _ => .error .type

/-- The plain text of a bound; an open one is empty. -/
def plainBound : Constraint → Except PlainFault String
  | absent => .ok ""
  | c => c.plain

/-- The text of a range with the given bounds. -/
def plainRange (lo hi : Constraint) : Except PlainFault String := do
  let lo ← lo.plainBound
  let hi ← hi.plainBound
  return lo ++ ".." ++ hi

end Constraint

end DatasetCatalog
