import DatasetCatalog.Arff.Basic
import Mathlib.Data.List.Forall2
import Mathlib.Data.List.Nodup

/-! # Well-formed tables

  What the declarations of a parsed table say about each other and about the cells below them:
  names and levels are distinct, levels, orders and formats stand only where the kind has a place
  for them, and every row has one fitting cell per attribute.
-/

namespace DatasetCatalog.Arff

/-- The parts of a declaration fit its kind. -/
structure Attribute.WellFormed (a : Attribute) : Prop where
  /-- No level is declared twice. -/
  levels_nodup : a.levels.Nodup
  /-- Only nominal attributes have levels. -/
  levels_nominal : a.kind ≠ .nominal → a.levels = []
  /-- Only nominal attributes are ordered. -/
  ordered_nominal : a.kind ≠ .nominal → a.ordered = false
  /-- Only date attributes have a format. -/
  format_date : a.kind ≠ .date → a.dateFormat = none

/-- The cell may stand below the attribute. Under `strict` rules the text of every value is
    kept, and a nominal value is one of the levels. -/
def Cell.Fits (strict : Bool) (a : Attribute) : Cell → Prop
  | missing => True
  | unknownLevel => strict = false ∧ a.kind = .nominal
  | text s => a.kind = .nominal → s ∈ a.levels

/-- There is an attribute, names are distinct, and declarations and rows fit together. -/
structure ParsedTable.WellFormed (strict : Bool) (t : ParsedTable) : Prop where
  /-- Something is declared. -/
  declared : t.attributes ≠ []
  /-- No name is declared twice. -/
  names_nodup : t.names.Nodup
  /-- Every declaration is well formed. -/
  attributes : ∀ a ∈ t.attributes, a.WellFormed
  /-- Every row has one fitting cell per attribute. -/
  rows : ∀ row ∈ t.rows, List.Forall₂ (Cell.Fits strict) t.attributes row

/-- The names passed along with a document order exactly the attributes that the table orders. -/
structure ParsedTable.OrderedBy (t : ParsedTable) (ordered : List String) : Prop where
  /-- An attribute is ordered when its name is listed. -/
  ordered_eq : ∀ a ∈ t.attributes, a.ordered = ordered.contains a.name
  /-- Every listed name is declared. -/
  declared : ∀ name ∈ ordered, name ∈ t.names

namespace ParsedTable

/-- Distinct names tell the ordered attributes apart. -/
theorem orderedBy_orderedNames {t : ParsedTable} (h : t.names.Nodup) :
    t.OrderedBy t.orderedNames where
  ordered_eq := by
    intro a ha
    have hmem : a.name ∈ t.orderedNames ↔ a.ordered = true := by
      unfold orderedNames
      rw [List.mem_map]
      constructor
      · rintro ⟨b, hb, hname⟩
        obtain ⟨hbt, hbo⟩ := List.mem_filter.1 hb
        have : b = a := List.inj_on_of_nodup_map h hbt ha hname
        exact this ▸ hbo
      · intro ho
        exact ⟨a, List.mem_filter.2 ⟨ha, ho⟩, rfl⟩
    rw [Bool.eq_iff_iff, List.contains_iff_mem]
    exact hmem.symm
  declared := by
    intro name hname
    obtain ⟨a, ha, rfl⟩ := List.mem_map.1 hname
    exact List.mem_map_of_mem (List.mem_filter.1 ha).1

end ParsedTable

end DatasetCatalog.Arff
