import DatasetCatalog.Proofs.Coercion.Meaning
import DatasetCatalog.Proofs.Number.NotANumber

/-! # Texts that strict coercion refuses

  In strict mode only a numeric attribute can refuse a cell, and it does so when the text is neither
  a number nor says "not a number". The text that is told is the first one of the first such
  attribute. Saying "not a number" is not the same as being read as no number: with a sign in front
  of the word a text is read as no number, yet does not say so, and is refused.
-/

namespace DatasetCatalog.Coercion

open Arff Packing

/-! ### One text -/

section Texts

variable {s : String}

/-- The text is refused by a numeric attribute: it is no numeral and does not say "not a number", or
    it says so behind a sign. -/
def Refused (s : String) : Prop :=
  (Binary64.ofText? s.toList = none ∧ isNaNText s = false) ∨
    (Binary64.ofText? s.toList = some .nan ∧
      ∃ c word, (c = '-' ∨ c = '+') ∧ Text.strip s.toList = c :: word)

/-- A text that is read as no number says so unless a sign stands in front. -/
theorem isNaNText_eq_false_iff (h : Binary64.ofText? s.toList = some .nan) : isNaNText s = false ↔
    ∃ c word, (c = '-' ∨ c = '+') ∧ Text.strip s.toList = c :: word := by
  unfold isNaNText
  obtain ⟨word, hword, hstrip | ⟨c, hc, hstrip⟩⟩ := Numeral.spelling_of_ofText?_eq_nan h
  · rw [hstrip, Numeral.lower_of_nanWord hword]
    obtain ⟨a, b, c, rfl, ha, -, -⟩ := Numeral.exists_of_nanWord hword
    constructor
    · exact fun hne => absurd hne (by simp)
    · rintro ⟨sign, rest, hsign, heq⟩
      obtain ⟨rfl, -⟩ := List.cons.inj heq
      exact absurd hsign (by rcases ha with rfl | rfl <;> decide)
  · rw [hstrip]
    exact iff_of_true (beq_eq_false_iff_ne.2 (Numeral.lower_sign_ne hc hword)) ⟨c, word, hc, rfl⟩

theorem realOf?_eq_none_iff :
    realOf? s = none ↔ Binary64.ofText? s.toList = none ∨ Binary64.ofText? s.toList = some .nan := by
  unfold realOf?
  cases Binary64.ofText? s.toList with
  | none => simp
  | some x => cases x <;> simp [Binary64.isNaN]

/-- What is converted to no double and does not say why is refused, and told. -/
theorem toReal_eq_error_iff {fault : CoercionFault} :
    toReal s = .error fault ↔ Refused s ∧ fault = .notNumber s := by
  have hrefused : Refused s ↔ isNaNText s = false ∧ realOf? s = none := by
    unfold Refused
    rw [realOf?_eq_none_iff, and_or_left]
    exact or_congr and_comm
      ⟨fun h => ⟨(isNaNText_eq_false_iff h.1).2 h.2, h.1⟩,
        fun h => ⟨h.2, (isNaNText_eq_false_iff h.2).1 h.1⟩⟩
  unfold toReal
  rw [hrefused]
  cases isNaNText s with
  | true => simp
  | false => cases realOf? s <;> simp [eq_comm]

end Texts

/-! ### The first failure -/

/-- A conversion that fails tells the first text that does not convert, with its row. -/
theorem exists_of_convertFrom_error {α : Type} {name : String}
    {convert : String → Except CoercionFault (Option α)} {row : Nat} {cells : List Cell}
    {e : CoercionError} (h : convertFrom name convert row cells = .error e) :
    ∃ front s back fault, cells = front ++ .text s :: back ∧
      (∀ r, Cell.text r ∈ front → ∃ v, convert r = .ok v) ∧ convert s = .error fault ∧
      e = ⟨name, some (row + front.length), fault⟩ := by
  induction cells generalizing row with
  | nil => cases h
  | cons cell cells ih =>
    -- what fails in the rest fails one row further down
    have hrest : convertFrom name convert (row + 1) cells = .error e →
        (∀ r, cell = .text r → ∃ v, convert r = .ok v) →
        ∃ front s back fault, cell :: cells = front ++ .text s :: back ∧
          (∀ r, Cell.text r ∈ front → ∃ v, convert r = .ok v) ∧ convert s = .error fault ∧
          e = ⟨name, some (row + front.length), fault⟩ := by
      intro he hcell
      obtain ⟨front, s, back, fault, rfl, hfront, hs, rfl⟩ := ih he
      refine ⟨cell :: front, s, back, fault, rfl, fun r hr => ?_, hs, ?_⟩
      · rcases List.mem_cons.1 hr with hr | hr
        · exact hcell r hr.symm
        · exact hfront r hr
      · rw [List.length_cons, Nat.add_right_comm, Nat.add_assoc]
    cases cell with
    | missing | unknownLevel =>
      refine hrest (map_eq_error_iff.1 h) fun r hr => ?_
      cases hr
    | text s =>
      rw [convertFrom] at h
      cases hs : convert s with
      | error fault =>
        simp only [hs] at h
        refine ⟨[], s, cells, fault, rfl, fun r hr => ?_, hs, (Except.error.inj h).symm⟩
        cases hr
      | ok v =>
        simp only [hs] at h
        refine hrest (map_eq_error_iff.1 h) fun r hr => ?_
        obtain rfl := Cell.text.inj hr
        exact ⟨v, hs⟩

/-! ### Strict columns -/

section Columns

variable {attr : Attribute} {cells : List Cell} {c : Column} {e : CoerceError}

/-- A column of doubles holds no refused text. -/
theorem not_refused_of_column (h : reals.column attr toReal cells = .ok c) {s : String}
    (hs : Cell.text s ∈ cells) : ¬Refused s := by
  obtain ⟨vs, hvs, -, -⟩ := column_eq_ok_iff.1 h
  obtain ⟨v, -, hv⟩ := exists_of_mem_forall₂ hvs hs
  intro hrefused
  have hs : toReal s = .ok v := hv
  rw [toReal_eq_error_iff.2 ⟨hrefused, rfl⟩] at hs
  cases hs

/-- A column of doubles that is not built tells its first refused text. -/
theorem exists_refused_of_column (h : reals.column attr toReal cells = .error e) :
    ∃ front s back, cells = front ++ .text s :: back ∧ Refused s ∧
      (∀ r, Cell.text r ∈ front → ¬Refused r) ∧
      e = .coercion ⟨attr.name, some front.length, .notNumber s⟩ := by
  cases hconvert : convertFrom attr.name toReal 0 cells with
  | error fault =>
    obtain ⟨front, s, back, fault, rfl, hfront, hs, rfl⟩ := exists_of_convertFrom_error hconvert
    unfold column ofDense at h
    rw [hconvert] at h
    obtain ⟨hrefused, rfl⟩ := toReal_eq_error_iff.1 hs
    refine ⟨front, s, back, rfl, hrefused, fun r hr hagain => ?_, ?_⟩
    · obtain ⟨v, hv⟩ := hfront r hr
      rw [toReal_eq_error_iff.2 ⟨hagain, rfl⟩] at hv
      cases hv
    · rw [← Except.error.inj h, Nat.zero_add]
  | ok vs =>
    -- all texts convert, and doubles always form a column
    have hvs := convertFrom_eq_ok_iff.1 hconvert
    obtain ⟨c, hc⟩ : ∃ c, reals.column attr toReal cells = .ok c := by
      refine exists_column (fun s hs => ?_) (fun _ => rfl) fun _ _ => trivial
      obtain ⟨v, -, hv⟩ := exists_of_mem_forall₂ hvs hs
      exact ⟨v, hv⟩
    rw [hc] at h
    cases h

theorem coerceColumn_strict_numeric (hkind : attr.kind = .numeric) (cells : List Cell) :
    coerceColumn {} attr cells = reals.column attr toReal cells := by
  have htype : declaredType attr = .continuous := by
    unfold declaredType
    rw [hkind]
  rw [coerceColumn_strict, htype, build_continuous]

/-- In strict mode a column fails only below a numeric attribute, at its first refused text. -/
theorem exists_refused_of_strict {strict : Bool} (hfits : ∀ cell ∈ cells, cell.Fits strict attr)
    (h : coerceColumn {} attr cells = .error e) : attr.kind = .numeric ∧
      ∃ front s back, cells = front ++ .text s :: back ∧ Refused s ∧
        (∀ r, Cell.text r ∈ front → ¬Refused r) ∧
        e = .coercion ⟨attr.name, some front.length, .notNumber s⟩ := by
  by_cases hkind : attr.kind = .numeric
  · rw [coerceColumn_strict_numeric hkind] at h
    exact ⟨hkind, exists_refused_of_column h⟩
  · obtain ⟨c, hc⟩ := exists_declared_column hfits fun hnumeric => absurd hnumeric hkind
    rw [coerceColumn_strict, hc] at h
    cases h

end Columns

/-! ### Strict tables -/

section Tables

variable {p : ParsedTable} {t : Table} {e : CoerceError} {j row : Nat} {attr : Attribute}
  {s : String}

/-- A numeric attribute refuses the text of a row. -/
structure RefusedAt (p : ParsedTable) (j row : Nat) (attr : Attribute) (s : String) : Prop where
  /-- The attribute is the one at this position. -/
  declared : p.attributes[j]? = some attr
  /-- It is one of numbers. -/
  numeric : attr.kind = .numeric
  /-- The text is that of the cell. -/
  cell : p.cell? row j = some (.text s)
  /-- The text is refused. -/
  refused : Refused s

/-- The text is the first that is refused: by the first attribute, and below it in the first row. -/
def FirstRefused (p : ParsedTable) (j row : Nat) (attr : Attribute) (s : String) : Prop :=
  RefusedAt p j row attr s ∧
    ∀ j' row' attr' s', RefusedAt p j' row' attr' s' → j < j' ∨ (j = j' ∧ row ≤ row')

/-- There is only one first text. -/
theorem FirstRefused.unique {j' row' : Nat} {attr' : Attribute} {s' : String}
    (h : FirstRefused p j row attr s) (h' : FirstRefused p j' row' attr' s') :
    row = row' ∧ attr = attr' ∧ s = s' := by
  have hle := h.2 _ _ _ _ h'.1
  have hge := h'.2 _ _ _ _ h.1
  obtain ⟨rfl, rfl⟩ : j = j' ∧ row = row' := by omega
  refine ⟨rfl, Option.some.inj (h.1.declared.symm.trans h'.1.declared), ?_⟩
  exact Cell.text.inj (Option.some.inj (h.1.cell.symm.trans h'.1.cell))

/-- Nothing was refused where a column was built. -/
theorem not_refusedAt {cells : List Cell} {c : Column} (hattr : p.attributes[j]? = some attr)
    (hcells : p.column? j = some cells) (hc : coerceColumn {} attr cells = .ok c)
    {attr' : Attribute} : ¬RefusedAt p j row attr' s := by
  rintro ⟨hdeclared, hnumeric, hcell, hrefused⟩
  obtain rfl := Option.some.inj (hattr.symm.trans hdeclared)
  rw [← getElem?_of_column? hcells] at hcell
  rw [coerceColumn_strict_numeric hnumeric] at hc
  exact not_refused_of_column hc (List.mem_of_getElem? hcell) hrefused

theorem not_refusedAt_of_coerce (h : coerce {} p = .ok t) : ¬RefusedAt p j row attr s := by
  intro hat
  obtain ⟨cells, c, hcells, -, hc⟩ := exists_column_of_coerce h hat.declared
  exact not_refusedAt hat.declared hcells hc hat

/-- **A table that is not coerced tells the first text that is refused.** -/
theorem firstRefused_of_coerce (hread : p.IsRead) (h : coerce {} p = .error e) :
    ∃ j row attr s, FirstRefused p j row attr s ∧
      e = .coercion ⟨attr.name, some row, .notNumber s⟩ := by
  obtain ⟨strict, hwf⟩ := hread.wellFormed
  have hcolumns : coerceColumns {} p 0 p.attributes = .error e :=
    (coerce_eq_error_iff (by simp) fun _ => exists_ofColumns_of_wellFormed hwf).1 h
  obtain ⟨j, attr, hattr, hbefore, hbad⟩ := exists_of_coerceColumns_error hcolumns
  rw [Nat.zero_add] at hbad
  obtain ⟨cells, hcells, -, hfits⟩ := exists_column? hwf hattr
  rw [hcells] at hbad
  obtain ⟨hnone, -⟩ | ⟨cells', hcells', hbad⟩ := hbad
  · cases hnone
  obtain rfl := Option.some.inj hcells'
  obtain ⟨hnumeric, above, s, below, rfl, hrefused, habove, rfl⟩ :=
    exists_refused_of_strict hfits hbad
  refine ⟨j, above.length, attr, s, ⟨⟨hattr, hnumeric, ?_, hrefused⟩, ?_⟩, rfl⟩
  · rw [← getElem?_of_column? hcells]
    simp
  · intro j' row' attr' s' hat
    rcases Nat.lt_trichotomy j j' with hlater | rfl | hearlier
    · exact .inl hlater
    · -- above the text in its column nothing is refused
      refine .inr ⟨rfl, Nat.not_lt.1 fun hlt => ?_⟩
      have hcell := hat.cell
      rw [← getElem?_of_column? hcells, List.getElem?_append_left hlt] at hcell
      exact habove s' (List.mem_of_getElem? hcell) hat.refused
    · -- the columns in front were built
      obtain ⟨cells', c, hcells', hc⟩ := hbefore j' hearlier attr' hat.declared
      rw [Nat.zero_add] at hcells'
      exact absurd hat (not_refusedAt hat.declared hcells' hc)

/-- A text that is read as no number is missing from a column that was built. -/
theorem missing_of_coerce (h : coerce {} p = .ok t) (hattr : p.attributes[j]? = some attr)
    (hnumeric : attr.kind = .numeric) (hcell : p.cell? row j = some (.text s))
    (hnan : Binary64.ofText? s.toList = some .nan) :
    ∃ c, t.columns[j]? = some c ∧ c.missing[row]? = some true := by
  obtain ⟨cells, c, hcells, hc, hcolumn⟩ := exists_column_of_coerce h hattr
  refine ⟨c, hc, ?_⟩
  have hsays : isNaNText s = true := by
    rw [← Bool.not_eq_false, isNaNText_eq_false_iff hnan]
    exact fun hsigned => not_refusedAt_of_coerce h ⟨hattr, hnumeric, hcell, .inr ⟨hnan, hsigned⟩⟩
  rw [coerceColumn_strict_numeric hnumeric] at hcolumn
  obtain ⟨vs, hvs, -, hholds⟩ := column_eq_ok_iff.1 hcolumn
  have hmissing : c.missing = cells.map (isAbsent true) :=
    missing_of_holds hvs hholds fun _ _ _ hv => isNone_of_toReal hv
  rw [hmissing, List.getElem?_map, getElem?_of_column? hcells, hcell, Option.map_some]
  exact congrArg some hsays

/-- **When strict coercion fails.** The table of a document is not coerced in strict mode exactly
    when a numeric attribute refuses a text; the error then tells the first such text, and there is
    no other error. Otherwise every text of a numeric attribute that is read as no number is
    missing. -/
theorem coerce_strict_refuses (hread : p.IsRead) :
    ((∃ e, coerce {} p = .error e) ↔ ∃ j row attr s, RefusedAt p j row attr s) ∧
      (∀ e, coerce {} p = .error e ↔ ∃ j row attr s, FirstRefused p j row attr s ∧
        e = .coercion ⟨attr.name, some row, .notNumber s⟩) ∧
      ∀ t, coerce {} p = .ok t → ∀ j row attr s, p.attributes[j]? = some attr →
        attr.kind = .numeric → p.cell? row j = some (.text s) →
        Binary64.ofText? s.toList = some .nan →
        ∃ c, t.columns[j]? = some c ∧ c.missing[row]? = some true := by
  -- a table that refuses a text is not coerced
  have hfails : ∀ j row attr s, RefusedAt p j row attr s → ∃ e, coerce {} p = .error e := by
    intro j row attr s hat
    cases h : coerce {} p with
    | ok t => exact absurd hat (not_refusedAt_of_coerce h)
    | error e => exact ⟨e, rfl⟩
  refine ⟨⟨?_, ?_⟩, fun e => ⟨firstRefused_of_coerce hread, ?_⟩, ?_⟩
  · rintro ⟨e, h⟩
    obtain ⟨j, row, attr, s, hfirst, -⟩ := firstRefused_of_coerce hread h
    exact ⟨j, row, attr, s, hfirst.1⟩
  · rintro ⟨j, row, attr, s, hat⟩
    exact hfails j row attr s hat
  · rintro ⟨j, row, attr, s, hfirst, rfl⟩
    obtain ⟨e, h⟩ := hfails j row attr s hfirst.1
    obtain ⟨j', row', attr', s', hfirst', rfl⟩ := firstRefused_of_coerce hread h
    obtain ⟨rfl, rfl, rfl⟩ := hfirst.unique hfirst'
    exact h
  · exact fun t h j row attr s => missing_of_coerce h

/-- A text that is read as no number and refused, in front of one that is no numeral. The same
    texts below other attributes, and the word without a sign, are not refused. -/
theorem coerce_strict_refuses_signed_nan :
    ∃ p, p.IsRead ∧ Binary64.ofText? "-nan".toList = some .nan ∧
      FirstRefused p 2 1 { name := "y", kind := .numeric } "-nan" ∧
      coerce {} p = .error (.coercion ⟨"y", some 1, .notNumber "-nan"⟩) := by
  let y : Attribute := { name := "y", kind := .numeric }
  let p : ParsedTable :=
    { relation := ""
      attributes := [{ name := "x", kind := .numeric }, { name := "s", kind := .string }, y]
      rows := [[.text "1", .text "one", .text " NaN "], [.text "nan", .text "-nan", .text "-nan"],
        [.missing, .text "?", .text "one"]] }
  have hread : read {} ("@attribute x numeric\n@attribute s string\n@attribute y numeric\n@data\n" ++
      "1,one,' NaN '\nnan,-nan,-nan\n?,'?',one\n").toList = .ok p := by
    decide +kernel
  have hp : p.IsRead := ⟨_, .inl ⟨_, hread⟩⟩
  have hnan : Binary64.ofText? "-nan".toList = some .nan := by decide +kernel
  have hat : RefusedAt p 2 1 y "-nan" :=
    ⟨rfl, rfl, rfl, .inr ⟨hnan, '-', "nan".toList, .inl rfl, by decide +kernel⟩⟩
  have hshown : (match coerce {} p with | .error e => some e | .ok _ => none) =
      some (.coercion ⟨"y", some 1, .notNumber "-nan"⟩) := by
    decide +kernel
  obtain ⟨e, he⟩ := (coerce_strict_refuses hp).1.2 ⟨2, 1, y, "-nan", hat⟩
  simp only [he, Option.some.injEq] at hshown
  subst hshown
  obtain ⟨j, row, attr, s, hfirst, heq⟩ := ((coerce_strict_refuses hp).2.1 _).1 he
  -- the attribute that is told is the last one
  obtain ⟨hname, hrow, hs⟩ : "y" = attr.name ∧ 1 = row ∧ "-nan" = s := by simpa using heq
  have hj : j = 2 := by
    rcases hfirst.2 2 1 y "-nan" hat with hlt | ⟨hj, -⟩
    · have hdeclared := hfirst.1.declared
      obtain rfl | rfl : j = 0 ∨ j = 1 := by omega
      all_goals
        rw [← Option.some.inj hdeclared] at hname
        exact absurd hname (by decide)
    · exact hj
  subst hj hrow hs
  obtain rfl : y = attr := Option.some.inj hfirst.1.declared
  exact ⟨p, hp, hnan, hfirst, he⟩

end Tables

end DatasetCatalog.Coercion
