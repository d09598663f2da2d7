import DatasetCatalog.Arff.Basic
import DatasetCatalog.Coercion.CellNumber
import DatasetCatalog.Table.Entry

/-! # Profiles

  The profile of a column is what a detection policy sees of it: how many values are present, how
  many of them differ, and whether they are numbers. Missing cells, unknown levels and texts that
  say "not a number" do not count as present.
-/

namespace DatasetCatalog.Coercion

open Arff

/-- A summary of one column. -/
structure Profile where
  /-- The name of the column. -/
  name : String
  /-- The declared kind. -/
  declared : Kind
  /-- The declared levels carry an order. -/
  ordered : Bool
  /-- The number of present values. -/
  present : Nat
  /-- The number of distinct present values. -/
  distinct : Nat
  /-- Every present value is a number, and there is one. -/
  allNumeric : Bool
  /-- Every present value is a whole number that fits into 64 bits. -/
  allIntegral : Bool
  deriving DecidableEq

/-- Some value occurs more than once. -/
def Profile.hasRepeats (p : Profile) : Bool := decide (p.distinct < p.present)

/-- Drops what is equal to something in front. -/
def dedupBy {α : Type} (eq : α → α → Bool) (xs : List α) : List α :=
  (xs.foldl (fun kept x => if kept.any (eq x) then kept else x :: kept) []).reverse

/-- The texts of the cells that count as present. -/
def presentTexts (cells : List Cell) : List String :=
  (cells.filterMap Cell.text?).filter fun s => !isNaNText s

/-- Numerically equal doubles. -/
def sameReal (x y : Binary64) : Bool := (Number.float x).same (.float y)

/-- The profile of a column. -/
def profile (attr : Attribute) (cells : List Cell) : Profile :=
  let texts := presentTexts cells
  let allNumeric := !texts.isEmpty && texts.all fun s => (realOf? s).isSome
  let allIntegral := allNumeric && texts.all fun s => ((wholeOf? s).map fitsInt64).getD false
  let distinct :=
    if allIntegral then (dedupBy (· == ·) (texts.filterMap wholeOf?)).length
    else if allNumeric then (dedupBy sameReal (texts.filterMap realOf?)).length
    else (dedupBy (· == ·) texts).length
  { name := attr.name, declared := attr.kind, ordered := attr.ordered, present := texts.length
    distinct, allNumeric, allIntegral }

end DatasetCatalog.Coercion
