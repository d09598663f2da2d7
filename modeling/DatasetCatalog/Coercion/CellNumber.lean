import DatasetCatalog.Number.Basic

/-! # Numbers in cells

  The text of a cell counts as a number when it is a numeral other than not-a-number. A whole
  number is read exactly when it is written as an integer; any other numeral is whole when its
  double has no fractional part.
-/

namespace DatasetCatalog.Coercion

open Text

/-- The text says that there is no number. -/
def isNaNText (s : String) : Bool := lower (strip s.toList) == "nan".toList

/-- The double that a cell spells, which may be infinite. -/
def realOf? (s : String) : Option Binary64 :=
  match Binary64.ofText? s.toList with
  | some x => if x.isNaN then none else some x
  | none => none

/-- The whole number that a cell spells. -/
def wholeOf? (s : String) : Option Int :=
  match Numeral.integer s.toList with
  | .ok n => some n
  | .error _ => (realOf? s).bind Binary64.toInt?

/-- The number that a cell spells: exact when it is whole, a double otherwise. -/
def numberOf? (s : String) : Option Number :=
  match wholeOf? s with
  | some n => some (.int n)
  | none => (realOf? s).map .float

end DatasetCatalog.Coercion
