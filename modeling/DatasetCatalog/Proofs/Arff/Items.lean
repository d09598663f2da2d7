import DatasetCatalog.Proofs.Arff.Row
import DatasetCatalog.Proofs.Arff.Splitting
import DatasetCatalog.Proofs.Number.Written

/-! # Items of a sparse row

  An item of a sparse row is a position and a value, written as a row would write it. The reader
  splits the row at commas that stand between items and not inside quotes, finds the position in
  front of the first blank, and resolves the value as it stands below the attribute at that
  position.
-/

namespace DatasetCatalog.Arff

open Text

/-! ### Written items -/

/-- A position and the value at it; no value stands for the bare marker. -/
abbrev Item := Nat × Option String

/-- How a value is written, in a row of either kind. -/
def valueText : Option String → List Char
  | some value => quoteValue value.toList
  | none => ['?']

/-- The cell that a written value is read as. -/
def valueCell : Option String → RawCell
  | some value => rawOf value.toList
  | none => ⟨['?'], false⟩

/-- How an item is written. -/
def itemText (item : Item) : List Char :=
  (integerText item.1).toList ++ ' ' :: valueText item.2

/-- The position of the item has no more digits than a numeral may have. -/
def Readable (item : Item) : Prop := (decimalDigits item.1).length ≤ Numeral.digitLimit

instance (item : Item) : Decidable (Readable item) := inferInstanceAs (Decidable (_ ≤ _))

theorem writes_valueText (value : Option String) : Writes (valueText value) (valueCell value) := by
  cases value with
  | none => exact .bare bare_questionMark
  | some value => exact writes_quoteValue value.toList

theorem passed_valueText (value : Option String) : Passed (valueText value) := by
  cases value with
  | none => exact passed_of_forall (by simp [valueText, isQuote])
  | some value => exact passed_quoteValue value.toList

section Position

variable (i : Nat)

theorem position_ne_nil : (integerText i).toList ≠ [] := by
  rw [toList_integerText]
  exact Nat.toDigits_ne_nil

theorem isAsciiDigit_position : ∀ c ∈ (integerText i).toList, isAsciiDigit c = true := by
  rw [toList_integerText]
  exact Numeral.isAsciiDigit_decimalDigits i

theorem isBlank_position : ∀ c ∈ (integerText i).toList, isBlank c = false := by
  intro c hc
  exact Numeral.isBlank_of_isNumeralChar (chars_integerText i c hc)

theorem solid_position : Solid (integerText i).toList where
  ne_nil := position_ne_nil i
  head c hc := isBlank_position i c (List.mem_of_head? hc)
  last c hc := isBlank_position i c (List.mem_of_getLast? hc)

theorem passed_position : Passed (integerText i).toList := by
  apply passed_of_forall
  intro c hc
  have hrange := Numeral.toNat_of_isAsciiDigit (isAsciiDigit_position i c hc)
  constructor
  · simp only [isQuote, Bool.or_eq_false_iff, beq_eq_false_iff_ne]
    constructor
    · rintro rfl
      exact absurd hrange (by decide)
    · rintro rfl
      exact absurd hrange (by decide)
  · rintro rfl
    exact absurd hrange (by decide)

end Position

theorem solid_itemText (item : Item) : Solid (itemText item) := by
  have h := (solid_position item.1).append (m := [' ']) (writes_valueText item.2).solid
  rwa [List.append_assoc, List.singleton_append] at h

theorem passed_itemText (item : Item) : Passed (itemText item) := by
  have hspace : Passed [' '] := passed_singleton (by decide) (by decide)
  have h := (passed_position item.1).append (hspace.append (passed_valueText item.2))
  rwa [List.singleton_append] at h

theorem newline_notMem_itemText (item : Item) : '\n' ∉ itemText item := by
  unfold itemText
  rw [List.mem_append, List.mem_cons]
  intro h
  rcases h with hposition | hspace | hvalue
  · exact absurd (isBlank_position item.1 _ hposition) (by decide)
  · exact absurd hspace (by decide)
  · exact (writes_valueText item.2).newline hvalue

/-! ### Reading an item -/

section Reading

variable (rules : RowRules) (place : RowPlace) (attrs : List Attribute)

/-- The item can be read, and its value stands for the cell below the attribute at its position. -/
def Resolves (item : Item) (cell : Cell) : Prop :=
  Readable item ∧ ∃ attr, attrs[item.1]? = some attr ∧
    resolveCell rules place attr (valueCell item.2) = .ok cell

variable {rules place attrs} {given given' : List (Nat × Cell)}

/-- A written item is read when its value is resolved as it would be in a row of the other kind. -/
theorem readItem_eq_ok_iff {item : Item} {text : List Char} (htext : strip text = itemText item)
    (hitem : item.1 < attrs.length) (hnew : given.lookup item.1 = none) {pair : Nat × Cell} :
    readItem rules place attrs given text = .ok pair ↔
      pair.1 = item.1 ∧ Resolves rules place attrs item pair.2 := by
  have hsplit : splitWord (itemText item) = ((integerText item.1).toList, valueText item.2) :=
    splitWord_append_of_solid _ (isBlank_position item.1) (by decide)
      (writes_valueText item.2).solid
  have hne : ¬((integerText item.1).toList = [] ∨ valueText item.2 = []) :=
    not_or.2 ⟨position_ne_nil item.1, (writes_valueText item.2).solid.ne_nil⟩
  have hcells : cells place.line (strip (valueText item.2)) = .ok [valueCell item.2] := by
    rw [(writes_valueText item.2).solid.strip_eq]
    exact cellsFrom_last (writes_valueText item.2).spaced _ _
  have hattr : attrs[item.1]? = some attrs[item.1] := List.getElem?_eq_getElem hitem
  have hsign : ¬((item.1 : Int) < 0) := by omega
  unfold readItem
  rw [htext, hsplit]
  simp only [if_neg hne, integer_integerText_eq, Int.natAbs_natCast]
  by_cases hread : Readable item
  · rw [if_neg (Nat.not_lt.2 hread)]
    simp only [pure_bind, if_neg hsign, Int.toNat_natCast, hattr, hnew, Option.isSome_none,
      Bool.false_eq_true, if_false, hcells]
    -- what is left of the checks is the one of the value
    simp only [bind_eq_ok_iff, Except.ok.injEq, exists_eq_left']
    unfold Resolves
    simp only [hread, hattr, true_and, Option.some.injEq, exists_eq_left']
    constructor
    · rintro ⟨cell, hcell, hpair⟩
      obtain rfl := Except.ok.inj hpair
      exact ⟨rfl, hcell⟩
    · intro h
      refine ⟨pair.2, h.2, ?_⟩
      rw [← h.1]
      rfl
  · rw [if_pos (Nat.not_le.1 hread)]
    constructor
    · intro h
      exact absurd h (throw_ne_ok _ _)
    · intro h
      exact absurd h.2.1 hread

variable {items : List Item} {texts : List (List Char)}

theorem lookup_cons_of_ne {i j : Nat} (h : i ≠ j) (cell : Cell) :
    ((j, cell) :: given).lookup i = given.lookup i := by
  rw [List.lookup_cons, beq_false_of_ne h]

/-- The texts are those of the items, with blanks around. Their positions are those of attributes,
    and none stands twice or was given before. -/
structure Lists (attrs : List Attribute) (given : List (Nat × Cell)) (texts : List (List Char))
    (items : List Item) : Prop where
  /-- Each text is that of its item. -/
  texts : List.Forall₂ (fun text item => strip text = itemText item) texts items
  /-- No position stands twice. -/
  nodup : (items.map Prod.fst).Nodup
  /-- Every position is that of an attribute. -/
  declared : ∀ item ∈ items, item.1 < attrs.length
  /-- No position was given before. -/
  new : ∀ item ∈ items, given.lookup item.1 = none

/-- One item less is listed, and its position is given. -/
theorem Lists.tail {text : List Char} {item : Item}
    (h : Lists attrs given (text :: texts) (item :: items)) (cell : Cell) :
    Lists attrs ((item.1, cell) :: given) texts items := by
  obtain ⟨htexts, hnodup, hdeclared, hnew⟩ := h
  obtain ⟨-, htexts⟩ := List.forall₂_cons.1 htexts
  obtain ⟨hfresh, hnodup⟩ := List.nodup_cons.1 hnodup
  refine ⟨htexts, hnodup, (List.forall_mem_cons.1 hdeclared).2, ?_⟩
  intro other hother
  rw [lookup_cons_of_ne]
  · exact (List.forall_mem_cons.1 hnew).2 other hother
  · intro heq
    exact hfresh (heq ▸ List.mem_map_of_mem hother)

/-- Items are read when each of them is resolved. -/
theorem exists_readItems (hlists : Lists attrs given texts items)
    (h : ∀ item ∈ items, ∃ cell, Resolves rules place attrs item cell) :
    ∃ given', readItems rules place attrs given texts = .ok given' := by
  induction texts generalizing given items with
  | nil => exact ⟨given, rfl⟩
  | cons text texts ih =>
    obtain ⟨item, items, htext, -, rfl⟩ := List.forall₂_cons_left_iff.1 hlists.texts
    obtain ⟨⟨cell, hcell⟩, hrest⟩ := List.forall_mem_cons.1 h
    have hitem : readItem rules place attrs given text = .ok (item.1, cell) :=
      (readItem_eq_ok_iff htext (List.forall_mem_cons.1 hlists.declared).1
        (List.forall_mem_cons.1 hlists.new).1).2 ⟨rfl, hcell⟩
    rw [readItems, hitem]
    exact ih (hlists.tail cell) hrest

/-- Items that are read are resolved, and each position holds its cell. -/
theorem resolves_of_readItems (hlists : Lists attrs given texts items)
    (h : readItems rules place attrs given texts = .ok given') :
    (∀ item ∈ items, ∃ cell, given'.lookup item.1 = some cell ∧
      Resolves rules place attrs item cell) ∧
    ∀ i, i ∉ items.map Prod.fst → given'.lookup i = given.lookup i := by
  induction texts generalizing given items with
  | nil =>
    obtain rfl := List.forall₂_nil_left_iff.1 hlists.texts
    obtain rfl := Except.ok.inj h
    exact ⟨by simp, by simp⟩
  | cons text texts ih =>
    obtain ⟨item, items, htext, -, rfl⟩ := List.forall₂_cons_left_iff.1 hlists.texts
    rw [readItems] at h
    obtain ⟨⟨i, cell⟩, hpair, h⟩ := bind_eq_ok_iff.1 h
    obtain ⟨rfl, hcell⟩ := (readItem_eq_ok_iff htext (List.forall_mem_cons.1 hlists.declared).1
      (List.forall_mem_cons.1 hlists.new).1).1 hpair
    obtain ⟨hcells, hothers⟩ := ih (hlists.tail cell) h
    obtain ⟨hfresh, -⟩ := List.nodup_cons.1 hlists.nodup
    constructor
    · rw [List.forall_mem_cons]
      refine ⟨⟨cell, ?_, hcell⟩, hcells⟩
      rw [hothers item.1 hfresh, List.lookup_cons, beq_self_eq_true]
    · intro j hj
      rw [List.map_cons, List.mem_cons, not_or] at hj
      rw [hothers j hj.2, lookup_cons_of_ne hj.1]

end Reading

end DatasetCatalog.Arff
