import DatasetCatalog.Coercion.Basic
import DatasetCatalog.Proofs.Except
import DatasetCatalog.Proofs.Forall2
import Mathlib.Data.List.ReduceOption

/-! # Columns of converted cells

  A builder converts the cells one by one and packs the results densely. What it makes of the
  cells is therefore a relation between cells and optional values, and the cells that a finished
  column shows are those values again. A column is rebuilt from its own cells whenever the text of
  each of its values converts to that value.
-/

namespace DatasetCatalog

/-! ### Forming a column -/

theorem Column.ofValues_eq_ok_iff {name : String} {values : Values} {missing : List Bool}
    {c : Column} : Column.ofValues name values missing = .ok c ↔
      c.name = name ∧ c.values = values ∧ c.missing = missing := by
  unfold Column.ofValues
  constructor
  · intro h
    split at h
    · split at h
      · obtain rfl := Except.ok.inj h
        exact ⟨rfl, rfl, rfl⟩
      · exact absurd h (by simp)
    · exact absurd h (by simp)
  · rintro ⟨rfl, rfl, rfl⟩
    rw [dif_pos c.length_eq, dif_pos c.codes_valid]

namespace Coercion

open Arff

/-! ### Converting cells -/

section Converting

variable {α : Type} {convert : String → Except CoercionFault (Option α)}

/-- What a cell is converted to: the conversion of its text, or nothing. -/
def Converts (convert : String → Except CoercionFault (Option α)) : Cell → Option α → Prop
  | .text s, v => convert s = .ok v
  | .missing, v => v = none
  | .unknownLevel, v => v = none

/-- The head is converted first; its value, or nothing, stands in front of the others. -/
theorem convertFrom_cons_eq_ok_iff {name : String} {row : Nat} {cell : Cell} {cells : List Cell}
    {vs : List (Option α)} : convertFrom name convert row (cell :: cells) = .ok vs ↔
      ∃ v rest, Converts convert cell v ∧ convertFrom name convert (row + 1) cells = .ok rest ∧
        vs = v :: rest := by
  cases cell with
  | missing | unknownLevel =>
    show (convertFrom name convert (row + 1) cells).map (none :: ·) = .ok vs ↔ _
    constructor
    · intro h
      obtain ⟨rest, hrest, rfl⟩ := map_eq_ok_iff.1 h
      exact ⟨none, rest, rfl, hrest, rfl⟩
    · rintro ⟨v, rest, rfl, hrest, rfl⟩
      exact map_eq_ok_iff.2 ⟨rest, hrest, rfl⟩
  | text s =>
    rw [convertFrom]
    constructor
    · intro h
      split at h
      · exact absurd h (by simp)
      · next v hv =>
        obtain ⟨rest, hrest, rfl⟩ := map_eq_ok_iff.1 h
        exact ⟨v, rest, hv, hrest, rfl⟩
    · rintro ⟨v, rest, hv, hrest, rfl⟩
      have hs : convert s = .ok v := hv
      simp only [hs]
      exact map_eq_ok_iff.2 ⟨rest, hrest, rfl⟩

/-- What the builders make of the cells, cell by cell. -/
theorem convertFrom_eq_ok_iff {name : String} {row : Nat} {cells : List Cell}
    {vs : List (Option α)} : convertFrom name convert row cells = .ok vs ↔
      List.Forall₂ (Converts convert) cells vs := by
  induction cells generalizing row vs with
  | nil =>
    rw [convertFrom, List.forall₂_nil_left_iff, Except.ok.injEq, eq_comm]
  | cons cell cells ih =>
    simp only [convertFrom_cons_eq_ok_iff, List.forall₂_cons_left_iff, ih]

end Converting

/-! ### Packing values -/

/-- What the values of a column show, whether they are missing or not. -/
def shownValues : Values → List Value
  | .continuous xs => xs.map fun x => .number (.float x)
  | .count xs => xs.map fun n => .number (.int n)
  | .finite _ levels codes => codes.map fun code => .text (Column.labelAt levels code)
  | .textual xs => xs.map .text

theorem toList_eq_hide (c : Column) : c.toList = Column.hide c.missing (shownValues c.values) := by
  unfold Column.toList
  cases c.values <;> rfl

/-- The text that the cell of a value holds. -/
def valueText : Value → String
  | .number n => n.write
  | .text s => s

/-- The cells that a column is taken apart into. -/
def columnCells (c : Column) : List Cell := c.toList.map cellOfValue

theorem length_shownValues (v : Values) : (shownValues v).length = v.length := by
  cases v <;> simp [shownValues, Values.length]

theorem length_columnCells (c : Column) : (columnCells c).length = c.length := by
  unfold columnCells
  rw [List.length_map, toList_eq_hide, Column.hide, List.length_map, List.length_zip,
    length_shownValues, c.length_eq, Nat.min_self]
  rfl

/-- How values of one type are packed into a column and shown again. -/
structure Packing (α : Type) where
  /-- What stands in a missing slot. -/
  filler : α
  /-- The dense values. -/
  values : List α → Values
  /-- What a value shows. -/
  label : α → Value
  /-- The dense values show what each of them shows. -/
  shown : ∀ xs, shownValues (values xs) = xs.map label

namespace Packing

/-- Doubles. -/
def reals : Packing Binary64 := ⟨.zero false, .continuous, _, fun _ => rfl⟩

/-- Integers. -/
def counts : Packing Int := ⟨0, .count, _, fun _ => rfl⟩

/-- Codes of levels. -/
def codes (ordered : Bool) (levels : List String) : Packing Int :=
  ⟨0, .finite ordered levels, _, fun _ => rfl⟩

/-- Texts. -/
def texts : Packing String := ⟨"", .textual, _, fun _ => rfl⟩

variable {α : Type} (P : Packing α)

/-- The text that a value is taken apart into. -/
def text (a : α) : String := valueText (P.label a)

/-- The cell of a value, or a missing cell. -/
def cell (v : Option α) : Cell := (v.map fun a => Cell.text (P.text a)).getD .missing

/-- The column of converted cells. -/
def column (attr : Attribute) (convert : String → Except CoercionFault (Option α))
    (cells : List Cell) : Except CoerceError Column :=
  ofDense attr P.filler P.values (convertFrom attr.name convert 0 cells)

variable {P} {attr : Attribute} {convert : String → Except CoercionFault (Option α)}
  {cells : List Cell} {c : Column}

/-- A column holds the values that its cells are converted to. -/
structure Holds (P : Packing α) (c : Column) (vs : List (Option α)) : Prop where
  /-- The dense values, with fillers. -/
  values : c.values = P.values (vs.map (·.getD P.filler))
  /-- The bitmap. -/
  missing : c.missing = vs.map (·.isNone)

theorem column_eq_ok_iff : P.column attr convert cells = .ok c ↔
    ∃ vs, List.Forall₂ (Converts convert) cells vs ∧ c.name = attr.name ∧ P.Holds c vs := by
  unfold column ofDense
  constructor
  · intro h
    split at h
    · exact absurd h (by simp)
    next vs hvs =>
    simp only [dense] at h
    split at h
    · next d hd =>
      obtain rfl := Except.ok.inj h
      obtain ⟨hname, hvalues, hmissing⟩ := Column.ofValues_eq_ok_iff.1 hd
      exact ⟨vs, convertFrom_eq_ok_iff.1 hvs, hname, hvalues, hmissing⟩
    · exact absurd h (by simp)
  · rintro ⟨vs, hvs, hname, hvalues, hmissing⟩
    have hcolumn := Column.ofValues_eq_ok_iff.2 ⟨hname, hvalues, hmissing⟩
    simp only [convertFrom_eq_ok_iff.2 hvs, dense, hcolumn]

theorem hide_map_getD (f : α → Value) (filler : α) (vs : List (Option α)) :
    Column.hide (vs.map (·.isNone)) ((vs.map (·.getD filler)).map f) = vs.map (·.map f) := by
  unfold Column.hide
  induction vs with
  | nil => rfl
  | cons v vs ih =>
    simp only [List.map_cons, List.zip_cons_cons, ih]
    cases v <;> rfl

/-- The cells of a column are those of its values. -/
theorem Holds.cells_eq {vs : List (Option α)} (h : P.Holds c vs) :
    columnCells c = vs.map P.cell := by
  unfold columnCells
  rw [toList_eq_hide, h.values, h.missing, P.shown, hide_map_getD, List.map_map]
  apply List.map_congr_left
  intro v _
  cases v with
  | none => rfl
  | some a =>
    show cellOfValue (some (P.label a)) = .text (valueText (P.label a))
    cases P.label a <;> rfl

/-- A column is rebuilt from its own cells when the text of each of its values converts to the
    value. -/
theorem Holds.rebuild {vs : List (Option α)} (h : P.Holds c vs) {attr' : Attribute}
    (hname : attr'.name = c.name) {convert' : String → Except CoercionFault (Option α)}
    (hback : ∀ a, some a ∈ vs → convert' (P.text a) = .ok (some a)) :
    P.column attr' convert' (columnCells c) = .ok c := by
  refine column_eq_ok_iff.2 ⟨vs, ?_, hname.symm, h⟩
  rw [h.cells_eq, List.forall₂_map_left_iff, List.forall₂_same]
  intro v hv
  cases v with
  | none => rfl
  | some a => exact hback a hv

/-- All values of a column of converted cells are of one type. -/
theorem scitype_of_column {type : Scitype} (htype : ∀ xs, (P.values xs).scitype = type)
    (h : P.column attr convert cells = .ok c) : c.scitype = type := by
  obtain ⟨vs, -, -, hholds⟩ := column_eq_ok_iff.1 h
  unfold Column.scitype
  rw [hholds.values, htype]

/-- A column has the name of its attribute and one row per cell. -/
theorem name_length_of_column (h : P.column attr convert cells = .ok c) :
    c.name = attr.name ∧ c.length = cells.length := by
  obtain ⟨vs, hvs, hname, hholds⟩ := column_eq_ok_iff.1 h
  refine ⟨hname, ?_⟩
  unfold Column.length
  rw [hholds.missing, List.length_map, hvs.length_eq]

/-- There is a column when every text converts and the values form one. -/
theorem exists_column (hconv : ∀ s, Cell.text s ∈ cells → ∃ v, convert s = .ok v)
    (hlength : ∀ xs, (P.values xs).length = xs.length)
    (hvalid : ∀ vs, List.Forall₂ (Converts convert) cells vs →
      (P.values (vs.map (·.getD P.filler))).CodesValid (vs.map (·.isNone))) :
    ∃ c, P.column attr convert cells = .ok c := by
  obtain ⟨vs, hvs⟩ : ∃ vs, List.Forall₂ (Converts convert) cells vs := by
    apply exists_forall₂
    intro cell hcell
    cases cell with
    | missing | unknownLevel => exact ⟨none, rfl⟩
    | text s => exact hconv s hcell
  have hlengths : (P.values (vs.map (·.getD P.filler))).length = (vs.map (·.isNone)).length := by
    rw [hlength, List.length_map, List.length_map]
  exact ⟨⟨attr.name, _, _, hlengths, hvalid vs hvs⟩,
    column_eq_ok_iff.2 ⟨vs, hvs, rfl, rfl, rfl⟩⟩

/-- A present value comes from a text. -/
theorem exists_text_of_mem {vs : List (Option α)} (h : List.Forall₂ (Converts convert) cells vs)
    {a : α} (ha : some a ∈ vs) : ∃ s, Cell.text s ∈ cells ∧ convert s = .ok (some a) := by
  obtain ⟨cell, hcell, hconv⟩ := exists_of_forall₂_mem h ha
  cases cell with
  | missing | unknownLevel => exact absurd hconv (by simp [Converts])
  | text s => exact ⟨s, hcell, hconv⟩

/-! ### Present values -/

/-- The texts of the cells of a column are those of its values. -/
theorem Holds.filterMap_text {vs : List (Option α)} (h : P.Holds c vs) :
    (columnCells c).filterMap Cell.text? = vs.reduceOption.map P.text := by
  rw [h.cells_eq]
  clear h
  induction vs with
  | nil => rfl
  | cons v vs ih =>
    rw [List.map_cons]
    cases v with
    | none => exact ih
    | some a => exact congrArg (P.text a :: ·) ih

theorem mem_presentTexts {s : String} :
    s ∈ presentTexts cells ↔ Cell.text s ∈ cells ∧ isNaNText s = false := by
  unfold presentTexts
  rw [List.mem_filter, List.mem_filterMap]
  constructor
  · rintro ⟨⟨cell, hcell, hs⟩, hnan⟩
    cases cell with
    | missing | unknownLevel => exact absurd hs (by simp [Cell.text?])
    | text r =>
      obtain rfl := Option.some.inj hs
      exact ⟨hcell, by simpa using hnan⟩
  · rintro ⟨hcell, hnan⟩
    exact ⟨⟨_, hcell, rfl⟩, by simp [hnan]⟩

/-- The values stand for the present texts, one by one, when exactly the texts that say "not a
    number" are converted to nothing. -/
theorem presentTexts_values {vs : List (Option α)} (h : List.Forall₂ (Converts convert) cells vs)
    {R : String → α → Prop} (hnan : ∀ s v, isNaNText s = true → convert s = .ok v → v = none)
    (hvalue : ∀ s v, Cell.text s ∈ cells → isNaNText s = false → convert s = .ok v →
      ∃ a, v = some a ∧ R s a) :
    List.Forall₂ R (presentTexts cells) vs.reduceOption := by
  unfold presentTexts
  induction h with
  | nil => exact .nil
  | @cons cell v cells vs hcell _ ih =>
    have hrest := ih fun s w hs => hvalue s w (List.mem_cons_of_mem cell hs)
    cases cell with
    | missing | unknownLevel =>
      obtain rfl : v = none := hcell
      simpa [List.filterMap_cons, Cell.text?, List.reduceOption_cons_of_none] using hrest
    | text s =>
      cases hs : isNaNText s with
      | true =>
        obtain rfl : v = none := hnan s v hs hcell
        simpa [List.filterMap_cons, Cell.text?, List.reduceOption_cons_of_none, hs] using hrest
      | false =>
        obtain ⟨a, rfl, ha⟩ := hvalue s v (by simp) hs hcell
        simpa [List.filterMap_cons, Cell.text?, List.reduceOption_cons_of_some, hs] using
          ⟨ha, hrest⟩

/-- The texts stay the same when every text is converted to a value that has this text. -/
theorem filterMap_text_eq {vs : List (Option α)} (h : List.Forall₂ (Converts convert) cells vs)
    (hvalue : ∀ s v, convert s = .ok v → ∃ a, v = some a ∧ P.text a = s) :
    vs.reduceOption.map P.text = cells.filterMap Cell.text? := by
  induction h with
  | nil => rfl
  | @cons cell v cells vs hcell _ ih =>
    cases cell with
    | missing | unknownLevel =>
      obtain rfl : v = none := hcell
      simpa [List.filterMap_cons, Cell.text?, List.reduceOption_cons_of_none] using ih
    | text s =>
      obtain ⟨a, rfl, ha⟩ := hvalue s v hcell
      simpa [List.filterMap_cons, Cell.text?, List.reduceOption_cons_of_some, ha] using ih

end Packing

end Coercion

end DatasetCatalog
