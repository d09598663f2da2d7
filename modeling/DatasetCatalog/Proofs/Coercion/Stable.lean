import DatasetCatalog.Proofs.Arff.Accepted
import DatasetCatalog.Proofs.Coercion.Table

/-! # Strict coercion, kept through written text

  The parts of a strictly coerced table are a well-formed parsed table. They can be written, what
  is written is read back as the same parts, and coercing these gives the table again.
-/

namespace DatasetCatalog.Coercion

open Arff Packing

/-! ### The parts of a column -/

section Parts

variable {attr : Attribute} {cells : List Cell} {c : Column}

theorem name_attributeOf (c : Column) : (attributeOf c).name = c.name := by
  unfold attributeOf
  split <;> rfl

theorem dateFormat_attributeOf (c : Column) : (attributeOf c).dateFormat = none := by
  unfold attributeOf
  split <;> rfl

/-- The attribute of a column is well formed when its levels are distinct. -/
theorem wellFormed_attributeOf (h : c.levels.Nodup) : (attributeOf c).WellFormed := by
  unfold Column.levels at h
  unfold attributeOf
  cases hc : c.values with
  | finite ordered levels xs =>
    rw [hc] at h
    exact ⟨h, by simp, by simp, by simp⟩
  | continuous xs => exact ⟨.nil, by simp, by simp, by simp⟩
  | count xs => exact ⟨.nil, by simp, by simp, by simp⟩
  | textual xs => exact ⟨.nil, by simp, by simp, by simp⟩

/-- A code that is a position in the levels has one of them as its label. -/
theorem labelAt_mem {levels : List String} {code : Int} (h0 : 0 ≤ code)
    (h : code < levels.length) : Column.labelAt levels code ∈ levels := by
  have hlt : code.toNat < levels.length := by omega
  unfold Column.labelAt
  rw [List.getElem?_eq_getElem hlt]
  exact List.getElem_mem hlt

/-- The cells of a column fit below its attribute: present codes are positions in the levels. -/
theorem fits_attributeOf {cell : Cell} (h : cell ∈ columnCells c) :
    cell.Fits true (attributeOf c) := by
  obtain ⟨v, hv, rfl⟩ := List.mem_map.1 h
  rw [toList_eq_hide] at hv
  obtain ⟨⟨value, hidden⟩, hmem, rfl⟩ := List.mem_map.1 hv
  -- only the present cells of a nominal attribute have to be one of its levels
  cases hidden with
  | true => trivial
  | false =>
    have hvalid := c.codes_valid
    unfold attributeOf
    cases hc : c.values with
    | finite ordered levels xs =>
      rw [hc] at hmem hvalid
      change (value, false) ∈ (xs.map fun code => Value.text (Column.labelAt levels code)).zip
        c.missing at hmem
      rw [List.zip_map_left] at hmem
      obtain ⟨⟨code, bit⟩, hcode, heq⟩ := List.mem_map.1 hmem
      obtain ⟨rfl, rfl⟩ := Prod.mk.inj heq
      obtain ⟨h0, hlt⟩ := hvalid _ hcode rfl
      intro _
      exact labelAt_mem h0 hlt
    | continuous xs => cases value <;> exact nofun
    | count xs => cases value <;> exact nofun
    | textual xs => cases value <;> exact nofun

/-- Strict coercion takes the levels of a column from the declaration. -/
theorem nodup_levels_of_strict (hattr : attr.levels.Nodup)
    (h : coerceColumn {} attr cells = .ok c) : c.levels.Nodup := by
  rw [coerceColumn_strict] at h
  unfold declaredType at h
  unfold Column.levels
  cases hkind : attr.kind with
  | nominal =>
    simp only [hkind] at h
    rw [build_finite_texts] at h
    obtain ⟨vs, -, -, hholds⟩ := column_eq_ok_iff.1 h
    rw [hholds.values]
    show (textLevels attr cells).Nodup
    unfold textLevels
    rw [if_pos hkind]
    exact hattr
  | numeric =>
    simp only [hkind] at h
    rw [build_continuous] at h
    obtain ⟨vs, -, -, hholds⟩ := column_eq_ok_iff.1 h
    rw [hholds.values]
    exact .nil
  | string | date =>
    simp only [hkind] at h
    rw [build_textual] at h
    obtain ⟨vs, -, -, hholds⟩ := column_eq_ok_iff.1 h
    rw [hholds.values]
    exact .nil

end Parts

/-! ### The parts of a table -/

section Tables

variable {p : ParsedTable} {t : Table}

/-- A column that is coerced to itself again everywhere makes the table coerced to itself. -/
theorem coerce_again {settings : Settings} (hforced : settings.forced = [])
    (h : coerce settings p = .ok t) (relation : String)
    (hagain : ∀ c ∈ t.columns, coerceColumn settings (attributeOf c) (columnCells c) = .ok c) :
    coerce settings (toParsed t relation) = .ok t := by
  obtain ⟨columns, -, ht⟩ := (coerce_eq_ok_iff hforced).1 h
  obtain ⟨rfl, -, hrows⟩ := Table.ofColumns_spec ht
  have hcolumns := (coerceColumns_toParsed hrows relation).2 (List.forall₂_same.2 hagain)
  exact (coerce_eq_ok_iff hforced).2 ⟨_, hcolumns, ht⟩

/-- **In strict mode a table is coerced to itself again.** -/
theorem coerce_strict_again (h : coerce {} p = .ok t) (relation : String) :
    coerce {} (toParsed t relation) = .ok t := by
  apply coerce_again rfl h
  intro c hc
  obtain ⟨a, -, cells, -, hcells⟩ := exists_of_forall₂_mem (columns_of_coerce rfl h) hc
  exact coerceColumn_strict_again hcells

theorem numbersOnly_of_coerce {settings : Settings} (hforced : settings.forced = [])
    (h : coerce settings p = .ok t) {c : Column} (hc : c ∈ t.columns) : c.NumbersOnly := by
  obtain ⟨a, -, cells, -, hcells⟩ := exists_of_forall₂_mem (columns_of_coerce hforced h) hc
  exact numbersOnly_of_coerceColumn hcells

/-- The parts of a strictly coerced table can be written. -/
theorem wellFormed_toParsed {strict : Bool} (hp : p.WellFormed strict) (h : coerce {} p = .ok t)
    (relation : String) : (toParsed t relation).WellFormed true := by
  obtain ⟨columns, -, ht⟩ := (coerce_eq_ok_iff rfl).1 h
  have hcolumns := columns_of_coerce rfl h
  obtain ⟨rfl, hnames, -⟩ := Table.ofColumns_spec ht
  have hne : t.columns ≠ [] := by
    intro hnil
    rw [hnil, List.forall₂_nil_right_iff, List.zipIdx_eq_nil_iff] at hcolumns
    exact hp.declared hcolumns
  refine ⟨?_, ?_, ?_, ?_⟩
  · show t.columns.map attributeOf ≠ []
    exact List.map_eq_nil_iff.not.2 hne
  · show ((t.columns.map attributeOf).map (·.name)).Nodup
    have hname : (·.name) ∘ attributeOf = Column.name := funext name_attributeOf
    rw [List.map_map, hname]
    exact hnames
  · intro a ha
    obtain ⟨c, hc, rfl⟩ := List.mem_map.1 ha
    obtain ⟨⟨attr, i⟩, hattr, cells, -, hcells⟩ := exists_of_forall₂_mem hcolumns hc
    have hmem : attr ∈ p.attributes := (List.mem_zipIdx' hattr).2 ▸ List.getElem_mem _
    have hlevels : attr.levels.Nodup := (hp.attributes attr hmem).levels_nodup
    exact wellFormed_attributeOf (nodup_levels_of_strict hlevels hcells)
  · intro row hrow
    rw [rows_toParsed hne] at hrow
    obtain ⟨r, -, rfl⟩ := List.mem_map.1 hrow
    show List.Forall₂ (Cell.Fits true) (t.columns.map attributeOf) _
    rw [List.forall₂_map_left_iff, List.forall₂_map_right_iff, List.forall₂_same]
    intro c _
    rw [List.getD_eq_getElem?_getD]
    cases hcell : (columnCells c)[r]? with
    | none => trivial
    | some cell => exact fits_attributeOf (List.mem_of_getElem? hcell)

/-- **Strict coercion is stable in memory and through written text.** The parts of a table that
    was read and strictly coerced are coerced to the table again; they can be written, and what is
    read back from the text is coerced to the table, too. -/
theorem coerce_strict_stable {options : Options} {text : List Char}
    (hread : read options text = .ok p) (h : coerce {} p = .ok t) (relation : String) :
    coerce {} (toParsed t relation) = .ok t ∧ t.same t = true ∧
      ∃ written back, write (toParsed t relation) = .ok written ∧
        read { ordered := (toParsed t relation).orderedNames } written = .ok back ∧
        coerce {} back = .ok t := by
  have hagain := coerce_strict_again h relation
  have hwf := wellFormed_toParsed (wellFormed_of_read hread).1 h relation
  have hmarker : Bare "?".toList := bare_questionMark
  obtain ⟨written, hwritten, hback⟩ := exists_write_read_shown hwf
    { ordered := (toParsed t relation).orderedNames }
    (ParsedTable.orderedBy_orderedNames hwf.names_nodup) hmarker
  have hformats : ∀ a ∈ (toParsed t relation).attributes, a.dateFormat ≠ some "" := by
    intro a ha
    obtain ⟨c, -, rfl⟩ := List.mem_map.1 ha
    rw [dateFormat_attributeOf]
    exact nofun
  rw [map_shown_eq_self_iff.2 hformats] at hback
  refine ⟨hagain, ?_, written, _, hwritten, hback, hagain⟩
  rw [Table.same_iff, List.forall₂_same]
  exact fun c hc => Column.same_self (numbersOnly_of_coerce rfl h hc)

/-- An infinite number, a text for no number, a level that looks like the marker, and a date
    attribute, which comes back as one of texts. -/
theorem coerce_strict_stable_marker_level :
    ∃ p t written back,
      read { ordered := ["b c"] } ("@attribute a numeric\n@attribute 'b c' \x7bx,'?'\x7d\n" ++
        "@attribute d date ''\n@data\n-inf,'?',?\nNaN,x,'it\\'s'\n").toList = .ok p ∧
      coerce {} p = .ok t ∧ write (toParsed t "r") = .ok written ∧
      read { ordered := (toParsed t "r").orderedNames } written = .ok back ∧
      coerce {} back = .ok t := by
  let p : ParsedTable :=
    { relation := ""
      attributes := [{ name := "a", kind := .numeric },
        { name := "b c", kind := .nominal, levels := ["x", "?"], ordered := true },
        { name := "d", kind := .date, dateFormat := some "" }]
      rows := [[.text "-inf", .text "?", .missing], [.text "NaN", .text "x", .text "it's"]] }
  have hread : read { ordered := ["b c"] }
      ("@attribute a numeric\n@attribute 'b c' \x7bx,'?'\x7d\n" ++
        "@attribute d date ''\n@data\n-inf,'?',?\nNaN,x,'it\\'s'\n").toList = .ok p := by
    decide +kernel
  obtain ⟨t, ht⟩ : ∃ t, coerce {} p = .ok t := exists_eq_ok (by decide +kernel)
  obtain ⟨-, -, written, back, hwritten, hback, hagain⟩ := coerce_strict_stable hread ht "r"
  exact ⟨p, t, written, back, hread, ht, hwritten, hback, hagain⟩

end Tables

end DatasetCatalog.Coercion
