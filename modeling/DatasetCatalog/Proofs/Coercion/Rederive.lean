import DatasetCatalog.Proofs.Coercion.Levels
import DatasetCatalog.Proofs.Coercion.Profile

/-! # Columns taken apart and built again

  A typed column is taken apart into an attribute and cells. For each type: the column is built
  again from them, and its present texts are those of the values it was first built from, written
  as numbers where they are numbers.
-/

namespace DatasetCatalog.Coercion

open Arff Packing

/-! ### The builders -/

section Builders

variable (attr : Attribute) (cells : List Cell) (ordered numeric : Bool)

theorem build_continuous : build attr cells .continuous numeric = reals.column attr toReal cells :=
  rfl

theorem build_count : build attr cells .count numeric = counts.column attr toCount cells := rfl

theorem build_textual :
    build attr cells .textual numeric = texts.column attr (fun s => .ok (some s)) cells := rfl

theorem build_finite_texts : build attr cells (.finite ordered) false =
    (codes ordered (textLevels attr cells)).column attr (toCode (textLevels attr cells)) cells := by
  cases ordered <;> rfl

theorem build_finite_numbers : build attr cells (.finite ordered) true =
    (codes ordered (numericLevels cells)).column attr (toNumericCode (numericLevels cells))
      cells := by
  cases ordered <;> rfl

end Builders

/-! ### The texts of a column -/

section Texts

variable {α : Type} {P : Packing α} {attr : Attribute} {cells : List Cell} {c : Column}
  {convert : String → Except CoercionFault (Option α)}

/-- No present value is lost when none of the written texts says "not a number". -/
theorem presentTexts_columnCells {vs : List (Option α)} (h : P.Holds c vs)
    (hnan : ∀ a ∈ vs.reduceOption, isNaNText (P.text a) = false) :
    presentTexts (columnCells c) = vs.reduceOption.map P.text := by
  unfold presentTexts
  rw [h.filterMap_text, List.filter_eq_self]
  intro s hs
  obtain ⟨a, ha, rfl⟩ := List.mem_map.1 hs
  rw [hnan a ha]
  rfl

/-- The texts of a column whose values keep their texts. -/
theorem presentTexts_columnCells_of_texts {vs : List (Option α)} (h : P.Holds c vs)
    (hvs : List.Forall₂ (Converts convert) cells vs)
    (hvalue : ∀ s v, convert s = .ok v → ∃ a, v = some a ∧ P.text a = s) :
    presentTexts (columnCells c) = presentTexts cells := by
  unfold presentTexts
  rw [h.filterMap_text, filterMap_text_eq hvs hvalue]

end Texts

/-! ### Doubles -/

section Reals

variable {attr : Attribute} {cells : List Cell} {c : Column} {s : String}

theorem toReal_of_isNaNText (h : isNaNText s = true) : toReal s = .ok none := if_pos h

theorem toReal_eq_ok {v : Option Binary64} (hs : isNaNText s = false) (h : toReal s = .ok v) :
    ∃ x, v = some x ∧ realOf? s = some x := by
  unfold toReal at h
  rw [hs] at h
  simp only [Bool.false_eq_true, if_false] at h
  split at h
  · next x hx => exact ⟨x, (Except.ok.inj h).symm, hx⟩
  · exact absurd h (by simp)

theorem isNone_of_toReal {v : Option Binary64} (h : toReal s = .ok v) :
    v.isNone = isNaNText s := by
  cases hs : isNaNText s with
  | true =>
    rw [toReal_of_isNaNText hs] at h
    obtain rfl := Except.ok.inj h
    rfl
  | false =>
    obtain ⟨x, rfl, -⟩ := toReal_eq_ok hs h
    rfl

theorem realOf?_of_toReal {x : Binary64} (h : toReal s = .ok (some x)) : realOf? s = some x := by
  obtain ⟨y, hy, hread⟩ := toReal_eq_ok (isNone_of_toReal h).symm h
  rw [hread, hy]

theorem toReal_write {x : Binary64} (hx : x.isNaN = false) : toReal x.write = .ok (some x) := by
  unfold toReal
  simp [isNaNText_write hx, realOf?_write hx]

/-- Cells are not converted to doubles that are no numbers. -/
theorem isNaN_of_converts {vs : List (Option Binary64)}
    (hvs : List.Forall₂ (Converts toReal) cells vs) : ∀ x, some x ∈ vs → x.isNaN = false := by
  intro x hx
  obtain ⟨s, -, hs⟩ := exists_text_of_mem hvs hx
  exact isNaN_of_realOf? (realOf?_of_toReal hs)

/-- A column of doubles is built again, and its present texts are the written doubles. -/
theorem reals_rederive (h : reals.column attr toReal cells = .ok c) :
    attributeOf c = { name := c.name, kind := .numeric } ∧
      reals.column (attributeOf c) toReal (columnCells c) = .ok c ∧
      ∃ xs, SpellsReals cells xs ∧ presentTexts (columnCells c) = xs.map Binary64.write := by
  obtain ⟨vs, hvs, hname, hholds⟩ := column_eq_ok_iff.1 h
  have hattr : attributeOf c = { name := c.name, kind := .numeric } := by
    unfold attributeOf
    rw [hholds.values]
    rfl
  have hreal := isNaN_of_converts hvs
  refine ⟨hattr, hholds.rebuild (by rw [hattr]) fun x hx => toReal_write (hreal x hx),
    vs.reduceOption, ?_, ?_⟩
  · apply presentTexts_values hvs
    · intro s v hs hv
      rw [toReal_of_isNaNText hs] at hv
      exact (Except.ok.inj hv).symm
    · exact fun s v _ hs hv => toReal_eq_ok hs hv
  · apply presentTexts_columnCells hholds
    intro x hx
    exact isNaNText_write (hreal x (List.reduceOption_mem_iff.1 hx))

end Reals

/-! ### Integers -/

section Counts

variable {attr : Attribute} {cells : List Cell} {c : Column} {s : String}

theorem toCount_of_isNaNText (h : isNaNText s = true) : toCount s = .ok none := if_pos h

theorem toCount_eq_ok {v : Option Int} (hs : isNaNText s = false) (h : toCount s = .ok v) :
    ∃ n, v = some n ∧ wholeOf? s = some n ∧ fitsInt64 n = true := by
  unfold toCount at h
  rw [hs] at h
  simp only [Bool.false_eq_true, if_false] at h
  split at h
  · next n hn =>
    split at h
    · next hfits => exact ⟨n, (Except.ok.inj h).symm, hn, hfits⟩
    · exact absurd h (by simp)
  · exact absurd h (by simp)

theorem isNone_of_toCount {v : Option Int} (h : toCount s = .ok v) : v.isNone = isNaNText s := by
  cases hs : isNaNText s with
  | true =>
    rw [toCount_of_isNaNText hs] at h
    obtain rfl := Except.ok.inj h
    rfl
  | false =>
    obtain ⟨n, rfl, -⟩ := toCount_eq_ok hs h
    rfl

theorem wholeOf?_of_toCount {n : Int} (h : toCount s = .ok (some n)) :
    wholeOf? s = some n ∧ fitsInt64 n = true := by
  obtain ⟨m, hm, hwhole, hfits⟩ := toCount_eq_ok (isNone_of_toCount h).symm h
  obtain rfl := Option.some.inj hm
  exact ⟨hwhole, hfits⟩

theorem toCount_of_wholeOf? {n : Int} (hs : isNaNText s = false) (hw : wholeOf? s = some n)
    (hn : fitsInt64 n = true) : toCount s = .ok (some n) := by
  unfold toCount
  simp [hs, hw, hn]

/-- A column of integers is built again, and its present texts are the written integers. -/
theorem counts_rederive (h : counts.column attr toCount cells = .ok c) :
    attributeOf c = { name := c.name, kind := .numeric } ∧
      counts.column (attributeOf c) toCount (columnCells c) = .ok c ∧
      ∃ ws, SpellsIntegers cells ws ∧ presentTexts (columnCells c) = ws.map integerText := by
  obtain ⟨vs, hvs, hname, hholds⟩ := column_eq_ok_iff.1 h
  have hattr : attributeOf c = { name := c.name, kind := .numeric } := by
    unfold attributeOf
    rw [hholds.values]
    rfl
  refine ⟨hattr, hholds.rebuild (by rw [hattr]) ?_, vs.reduceOption, ?_, ?_⟩
  · intro n hn
    obtain ⟨s, -, hs⟩ := exists_text_of_mem hvs hn
    obtain ⟨-, hfits⟩ := wholeOf?_of_toCount hs
    exact toCount_of_wholeOf? (isNaNText_integerText n) (wholeOf?_integerText hfits) hfits
  · apply presentTexts_values hvs
    · intro s v hs hv
      rw [toCount_of_isNaNText hs] at hv
      exact (Except.ok.inj hv).symm
    · exact fun s v _ hs hv => toCount_eq_ok hs hv
  · exact presentTexts_columnCells hholds fun n _ => isNaNText_integerText n

end Counts

/-! ### Levels and texts -/

section Finite

variable {attr : Attribute} {cells : List Cell} {c : Column} {ordered : Bool}
  {levels : List String}

theorem attributeOf_codes {vs : List (Option Int)} (h : (codes ordered levels).Holds c vs) :
    attributeOf c = { name := c.name, kind := .nominal, levels, ordered } := by
  unfold attributeOf
  rw [h.values]
  rfl

/-- A column of labels is built again from its own levels, and keeps its present texts. -/
theorem labels_rederive (h : (codes ordered levels).column attr (toCode levels) cells = .ok c) :
    attributeOf c = { name := c.name, kind := .nominal, levels, ordered } ∧
      (codes ordered levels).column (attributeOf c) (toCode levels) (columnCells c) = .ok c ∧
      presentTexts (columnCells c) = presentTexts cells := by
  obtain ⟨vs, hvs, hname, hholds⟩ := column_eq_ok_iff.1 h
  have hattr := attributeOf_codes hholds
  have hlabel : ∀ s v, toCode levels s = .ok v →
      ∃ code, v = some code ∧ (codes ordered levels).text code = s := by
    intro s v hv
    obtain ⟨code, rfl, hcode⟩ := toCode_eq_ok_iff.1 hv
    exact ⟨code, rfl, (codeOf?_spec hcode).2⟩
  refine ⟨hattr, hholds.rebuild (by rw [hattr]) ?_, presentTexts_columnCells_of_texts hholds hvs hlabel⟩
  intro code hcode
  obtain ⟨s, -, hs⟩ := exists_text_of_mem hvs hcode
  obtain ⟨code', hcode', hlabel'⟩ := hlabel s _ hs
  obtain rfl := Option.some.inj hcode'
  rw [hlabel', hs]

/-- A column of numeric labels is built again from its own levels, and its present texts are the
    written integers. -/
theorem numbers_rederive
    (h : (codes ordered levels).column attr (toNumericCode levels) cells = .ok c)
    {ws : List Int} (hws : SpellsIntegers cells ws) :
    attributeOf c = { name := c.name, kind := .nominal, levels, ordered } ∧
      (codes ordered levels).column (attributeOf c) (toNumericCode levels) (columnCells c) = .ok c ∧
      presentTexts (columnCells c) = ws.map integerText := by
  obtain ⟨vs, hvs, hname, hholds⟩ := column_eq_ok_iff.1 h
  have hattr := attributeOf_codes hholds
  -- a present text has the code of the integer it spells
  have hcode : ∀ s v, Cell.text s ∈ cells → isNaNText s = false → toNumericCode levels s = .ok v →
      ∃ code, v = some code ∧ ∃ w, wholeOf? s = some w ∧ fitsInt64 w = true ∧
        codeOf? levels (integerText w) = some code := by
    intro s v hs hnan hv
    obtain ⟨w, -, hw, hfits⟩ := exists_of_mem_forall₂ hws (mem_presentTexts.2 ⟨hs, hnan⟩)
    rw [toNumericCode_of_wholeOf? hnan hw] at hv
    obtain ⟨code, rfl, hcode⟩ := toCode_eq_ok_iff.1 hv
    exact ⟨code, rfl, w, hw, hfits, hcode⟩
  have hback : ∀ code, some code ∈ vs → ∃ w, fitsInt64 w = true ∧
      codeOf? levels (integerText w) = some code := by
    intro code hmem
    obtain ⟨s, hs, hconv⟩ := exists_text_of_mem hvs hmem
    cases hnan : isNaNText s with
    | true =>
      rw [toNumericCode_of_isNaNText hnan] at hconv
      exact absurd hconv (by simp)
    | false =>
      obtain ⟨code', hcode', w, -, hfits, hw⟩ := hcode s _ hs hnan hconv
      obtain rfl := Option.some.inj hcode'
      exact ⟨w, hfits, hw⟩
  refine ⟨hattr, hholds.rebuild (by rw [hattr]) ?_, ?_⟩
  · intro code hmem
    obtain ⟨w, hfits, hw⟩ := hback code hmem
    have htext : (codes ordered levels).text code = integerText w := (codeOf?_spec hw).2
    rw [htext, toNumericCode_of_wholeOf? (isNaNText_integerText w) (wholeOf?_integerText hfits)]
    exact toCode_eq_ok_iff.2 ⟨code, rfl, hw⟩
  · rw [presentTexts_columnCells hholds]
    · have hcodes := presentTexts_values hvs
        (R := fun s code => ∃ w, wholeOf? s = some w ∧ fitsInt64 w = true ∧
          codeOf? levels (integerText w) = some code)
        (fun s v hs hv => by
          rw [toNumericCode_of_isNaNText hs] at hv
          exact (Except.ok.inj hv).symm) hcode
      refine map_eq_map_of_forall₂ hcodes hws fun s code w hs hw => ?_
      obtain ⟨w', hw', -, hcode'⟩ := hs
      obtain rfl := Option.some.inj (hw'.symm.trans hw.1)
      exact (codeOf?_spec hcode').2
    · intro code hmem
      obtain ⟨w, -, hw⟩ := hback code (List.reduceOption_mem_iff.1 hmem)
      have htext : (codes ordered levels).text code = integerText w := (codeOf?_spec hw).2
      rw [htext]
      exact isNaNText_integerText w

/-- A column of texts is built again, and keeps its present texts. -/
theorem texts_rederive (h : texts.column attr (fun s => .ok (some s)) cells = .ok c) :
    attributeOf c = { name := c.name, kind := .string } ∧
      texts.column (attributeOf c) (fun s => .ok (some s)) (columnCells c) = .ok c ∧
      presentTexts (columnCells c) = presentTexts cells := by
  obtain ⟨vs, hvs, hname, hholds⟩ := column_eq_ok_iff.1 h
  have hattr : attributeOf c = { name := c.name, kind := .string } := by
    unfold attributeOf
    rw [hholds.values]
    rfl
  refine ⟨hattr, hholds.rebuild (by rw [hattr]) fun _ _ => rfl, ?_⟩
  apply presentTexts_columnCells_of_texts hholds hvs
  intro s v hv
  exact ⟨s, (Except.ok.inj hv).symm, rfl⟩

end Finite

end DatasetCatalog.Coercion
