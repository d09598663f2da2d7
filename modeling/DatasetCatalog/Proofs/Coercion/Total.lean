import DatasetCatalog.Proofs.Arff.Accepted
import DatasetCatalog.Proofs.Coercion.Table

/-! # Detection never fails

  What a profile promises about the present texts of a column is what the builder of the chosen
  type needs of them: numbers for doubles, 64-bit integers for counts and for levels that are
  numbers, and any texts for the rest. The texts of a nominal attribute are declared levels, so
  the columns of a table that was read are always built, and they always form a table.
-/

namespace DatasetCatalog

open Arff

/-! ### Forming a table -/

namespace Table

theorem exists_addAll {rows : Option Nat} {done columns : List Column} {n : Nat}
    (hnames : ((done ++ columns).map (·.name)).Nodup) (hlengths : ∀ c ∈ columns, c.length = n)
    (hrows : ∀ m, rows = some m → m = n) : ∃ t, addAll rows done columns = .ok t := by
  induction columns generalizing rows done with
  | nil => exact ⟨_, rfl⟩
  | cons c columns ih =>
    have hfresh : ¬done.any (·.name == c.name) = true := by
      rw [List.any_eq_true]
      rintro ⟨d, hd, hdc⟩
      rw [List.map_append, List.nodup_append] at hnames
      exact hnames.2.2 d.name (List.mem_map_of_mem hd) c.name (by simp) (by simpa using hdc)
    have hlength : c.length = n := hlengths c List.mem_cons_self
    have hcount : rows.getD c.length = c.length := by
      cases rows with
      | none => rfl
      | some m => exact (hrows m rfl).trans hlength.symm
    rw [addAll, if_neg hfresh, if_neg (not_not.2 hcount)]
    apply ih
    · rwa [List.append_assoc]
    · exact fun d hd => hlengths d (List.mem_cons_of_mem c hd)
    · intro m hm
      exact (Option.some.inj hm).symm.trans hlength

/-- Columns with distinct names and one length form a table. -/
theorem exists_ofColumns_of_nodup {columns : List Column} {n : Nat}
    (hnames : (columns.map (·.name)).Nodup) (hlengths : ∀ c ∈ columns, c.length = n) :
    ∃ t, ofColumns columns = .ok t :=
  exists_addAll (by simpa using hnames) hlengths nofun

end Table

/-! ### Cells below an attribute -/

namespace Arff

/-- The cell of a row at a position. -/
def ParsedTable.cell? (p : ParsedTable) (row i : Nat) : Option Cell :=
  p.rows[row]?.bind fun cells => cells[i]?

/-- The cells at a position are those of the rows, one after the other. -/
theorem getElem?_of_column? {p : ParsedTable} {i : Nat} {cells : List Cell}
    (h : p.column? i = some cells) (row : Nat) : cells[row]? = p.cell? row i := by
  have hbeside := mapM_eq_some_iff.1 h
  unfold ParsedTable.cell?
  cases hcells : p.rows[row]? with
  | none =>
    rw [List.getElem?_eq_none_iff, hbeside.length_eq] at hcells
    exact List.getElem?_eq_none_iff.2 hcells
  | some r =>
    obtain ⟨cell, hcell, hat⟩ := exists_getElem?_of_forall₂ hbeside.flip hcells
    rw [hcell, Option.bind_some, hat]

/-- Below every attribute stands one fitting cell for each row. -/
theorem exists_column? {strict : Bool} {p : ParsedTable} (h : p.WellFormed strict) {i : Nat}
    {a : Attribute} (ha : p.attributes[i]? = some a) : ∃ cells, p.column? i = some cells ∧
      cells.length = p.rows.length ∧ ∀ cell ∈ cells, cell.Fits strict a := by
  have hrows := h.rows
  unfold ParsedTable.column?
  generalize p.rows = rows at hrows
  induction rows with
  | nil => exact ⟨[], rfl, rfl, by simp⟩
  | cons row rows ih =>
    obtain ⟨cells, hcells, hlength, hfits⟩ := ih fun r hr => hrows r (List.mem_cons_of_mem row hr)
    obtain ⟨hi, rfl⟩ := List.getElem?_eq_some_iff.1 ha
    have hrow := hrows row List.mem_cons_self
    have hi' : i < row.length := hrow.length_eq ▸ hi
    refine ⟨row[i] :: cells, ?_, by simp [hlength], ?_⟩
    · rw [List.mapM_cons, List.getElem?_eq_getElem hi', hcells]
      rfl
    · intro cell hcell
      rcases List.mem_cons.1 hcell with rfl | hcell
      · exact hrow.get hi hi'
      · exact hfits cell hcell

end Arff

namespace Coercion

open Packing

/-! ### Names and lengths -/

section Shape

variable {attr : Attribute} {cells : List Cell} {c : Column}

/-- Whatever is built has the name of the attribute and one row per cell. -/
theorem name_length_of_build {type : Scitype} {numeric : Bool}
    (h : build attr cells type numeric = .ok c) : c.name = attr.name ∧ c.length = cells.length := by
  cases type with
  | continuous => exact name_length_of_column (P := reals) h
  | count => exact name_length_of_column (P := counts) h
  | multiclass => exact name_length_of_column (P := codes false _) h
  | orderedFactor => exact name_length_of_column (P := codes true _) h
  | textual => exact name_length_of_column (P := texts) h

theorem name_length_of_coerceColumn {settings : Settings}
    (h : coerceColumn settings attr cells = .ok c) :
    c.name = attr.name ∧ c.length = cells.length := by
  unfold coerceColumn at h
  simp only at h
  split at h
  · exact name_length_of_build h
  · split at h
    · exact name_length_of_build h
    · exact name_length_of_build h

end Shape

/-! ### Builders that succeed -/

section Builders

variable {cells : List Cell} {levels : List String} {ordered : Bool}

/-- A column of doubles is built when every present text is a number. -/
theorem exists_reals_column (attr : Attribute)
    (h : ∀ s ∈ presentTexts cells, ∃ x, realOf? s = some x) :
    ∃ c, reals.column attr toReal cells = .ok c := by
  apply exists_column
  · intro s hs
    cases hnan : isNaNText s with
    | true => exact ⟨none, toReal_of_isNaNText hnan⟩
    | false =>
      obtain ⟨x, hx⟩ := h s (mem_presentTexts.2 ⟨hs, hnan⟩)
      refine ⟨some x, ?_⟩
      unfold toReal
      simp [hnan, hx]
  · exact fun _ => rfl
  · exact fun _ _ => trivial

/-- A column of labels is built when every text is a level. -/
theorem exists_labels_column (attr : Attribute) (h : ∀ s, Cell.text s ∈ cells → s ∈ levels) :
    ∃ c, (codes ordered levels).column attr (toCode levels) cells = .ok c := by
  apply exists_column
  · intro s hs
    obtain ⟨code, hcode⟩ := exists_codeOf? (h s hs)
    exact ⟨some code, toCode_eq_ok_iff.2 ⟨code, rfl, hcode⟩⟩
  · exact fun _ => rfl
  · intro vs hvs
    apply codesValid_codes hvs
    intro s code hs
    obtain ⟨code', hcode', hlabel⟩ := toCode_eq_ok_iff.1 hs
    obtain rfl := Option.some.inj hcode'
    exact ⟨s, hlabel⟩

/-- A column of texts is always built. -/
theorem exists_texts_column (attr : Attribute) (cells : List Cell) :
    ∃ c, texts.column attr (fun s => .ok (some s)) cells = .ok c :=
  exists_column (fun s _ => ⟨some s, rfl⟩) (fun _ => rfl) fun _ _ => trivial

/-- Levels that are not declared are the texts of the column. -/
theorem mem_textLevels {attr : Attribute} (hkind : attr.kind ≠ .nominal) {s : String}
    (hs : Cell.text s ∈ cells) : s ∈ textLevels attr cells := by
  have htext : s ∈ cells.filterMap Cell.text? := List.mem_filterMap.2 ⟨_, hs, rfl⟩
  unfold textLevels
  rw [if_neg hkind, List.mem_mergeSort]
  exact mem_dedupBy_of_eq htext fun _ _ heq => eq_of_beq heq

end Builders

/-! ### Columns that are always built -/

section Detected

variable {strict : Bool} {attr : Attribute} {cells : List Cell} {maxLevels : Int}

/-- A column is built with its declared type, unless that is the type of numbers and a text is
    none. -/
theorem exists_declared_column (hfits : ∀ cell ∈ cells, cell.Fits strict attr)
    (h : attr.kind = .numeric → ∀ s ∈ presentTexts cells, ∃ x, realOf? s = some x) :
    ∃ c, build attr cells (declaredType attr) false = .ok c := by
  unfold declaredType
  cases hkind : attr.kind with
  | numeric =>
    simp only
    rw [build_continuous]
    exact exists_reals_column attr (h hkind)
  | nominal =>
    simp only
    rw [build_finite_texts]
    have hlevels : textLevels attr cells = attr.levels := if_pos hkind
    rw [hlevels]
    exact exists_labels_column attr fun s hs => hfits _ hs hkind
  | string | date =>
    simp only
    rw [build_textual]
    exact exists_texts_column attr cells

/-- A column that does not hold numbers only keeps its texts, as labels or as they are. -/
theorem exists_text_column (hfits : ∀ cell ∈ cells, cell.Fits strict attr)
    (hne : presentTexts cells ≠ []) (h : (profile attr cells).allNumeric = false) :
    ∃ c, coerceColumn (autoSettings maxLevels) attr cells = .ok c := by
  rw [coerceColumn_auto_text hne h]
  split
  · next hkind => exact exists_labels_column attr fun s hs => hfits _ hs hkind
  · next hkind =>
    split
    · exact exists_labels_column attr fun s hs => mem_textLevels hkind hs
    · exact exists_texts_column attr cells

/-- **Detection finds a type that every cell has**, whatever the texts of the cells are. -/
theorem exists_coerceColumn_auto (maxLevels : Int)
    (hfits : ∀ cell ∈ cells, cell.Fits strict attr) :
    ∃ c, coerceColumn (autoSettings maxLevels) attr cells = .ok c := by
  by_cases hne : presentTexts cells = []
  · rw [coerceColumn_auto_absent hne]
    exact exists_declared_column hfits fun _ => by simp [hne]
  · cases hnumeric : (profile attr cells).allNumeric with
    | false => exact exists_text_column hfits hne hnumeric
    | true =>
      cases hintegral : (profile attr cells).allIntegral with
      | false =>
        rw [coerceColumn_auto_real hnumeric hintegral]
        exact exists_reals_column attr (allNumeric_eq_true_iff.1 hnumeric).2
      | true =>
        exact (exists_column_of_integral hintegral).imp fun _ hc => hc.1

end Detected

/-! ### Tables that are always typed -/

section Tables

variable {strict : Bool} {p : ParsedTable} {maxLevels : Int}

/-- A single column that is coerced forms a table. -/
theorem exists_coerce_of_single {settings : Settings} {attr : Attribute} {cells : List Cell}
    {c : Column} (hattrs : p.attributes = [attr]) (hcells : p.column? 0 = some cells)
    (hforced : ∀ f ∈ settings.forced, f.1 ∈ p.names)
    (hc : coerceColumn settings attr cells = .ok c) :
    ∃ t, coerce settings p = .ok t ∧ t.columns[0]? = some c := by
  have hnodup : ([c].map (·.name)).Nodup := List.nodup_singleton _
  obtain ⟨t, ht⟩ := Table.exists_ofColumns_of_nodup hnodup (List.forall_mem_singleton.2 rfl)
  refine ⟨t, coerce_eq_ok_iff_known.2 ⟨hforced, [c], ?_, ht⟩, ?_⟩
  · rw [hattrs]
    exact coerceColumns_eq_ok_iff.2 (.cons ⟨cells, hcells, hc⟩ .nil)
  · rw [(Table.ofColumns_spec ht).1]
    rfl

theorem names_of_coerceColumns {settings : Settings} {columns : List Column}
    (h : coerceColumns settings p 0 p.attributes = .ok columns) :
    columns.map (·.name) = p.names :=
  map_name_eq ((coerceColumns_eq_ok_iff.1 h).imp fun _ _ ⟨_, _, hc⟩ =>
    (name_length_of_coerceColumn hc).1)

/-- The columns of a well-formed table have the names of the attributes and one length. -/
theorem names_lengths_of_coerceColumns {settings : Settings} {columns : List Column}
    (h : p.WellFormed strict) (hcolumns : coerceColumns settings p 0 p.attributes = .ok columns) :
    columns.map (·.name) = p.names ∧ ∀ c ∈ columns, c.length = p.rows.length := by
  refine ⟨names_of_coerceColumns hcolumns, fun c hc => ?_⟩
  obtain ⟨a, ha, cells, hcells, hcoerce⟩ :=
    exists_of_forall₂_mem (coerceColumns_eq_ok_iff.1 hcolumns) hc
  obtain ⟨cells', hcells', hlength, -⟩ := exists_column? h (List.mem_zipIdx_iff_getElem?.1 ha)
  obtain rfl := Option.some.inj (hcells'.symm.trans hcells)
  exact (name_length_of_coerceColumn hcoerce).2.trans hlength

/-- The columns of a well-formed table form a table when they are built. -/
theorem exists_ofColumns_of_wellFormed {settings : Settings} {columns : List Column}
    (h : p.WellFormed strict) (hcolumns : coerceColumns settings p 0 p.attributes = .ok columns) :
    ∃ t, Table.ofColumns columns = .ok t := by
  obtain ⟨hnames, hlengths⟩ := names_lengths_of_coerceColumns h hcolumns
  have hdistinct : (columns.map (·.name)).Nodup := hnames ▸ h.names_nodup
  exact Table.exists_ofColumns_of_nodup hdistinct hlengths

/-- The columns of a well-formed table are built, with the names of the attributes and one length. -/
theorem exists_columns_of_wellFormed (maxLevels : Int) (h : p.WellFormed strict) : ∃ columns,
    coerceColumns (autoSettings maxLevels) p 0 p.attributes = .ok columns ∧
      columns.map (·.name) = p.names ∧ ∀ c ∈ columns, c.length = p.rows.length := by
  obtain ⟨columns, hcolumns⟩ : ∃ columns, List.Forall₂ (fun a c => ∃ cells,
      p.column? a.2 = some cells ∧ coerceColumn (autoSettings maxLevels) a.1 cells = .ok c)
      p.attributes.zipIdx columns := by
    refine exists_forall₂ fun a ha => ?_
    obtain ⟨cells, hcells, -, hfits⟩ := exists_column? h (List.mem_zipIdx_iff_getElem?.1 ha)
    obtain ⟨c, hc⟩ := exists_coerceColumn_auto maxLevels hfits
    exact ⟨c, cells, hcells, hc⟩
  have hcolumns := coerceColumns_eq_ok_iff.2 hcolumns
  exact ⟨columns, hcolumns, names_lengths_of_coerceColumns h hcolumns⟩

/-- **Detection never fails on what was read.** Under every limit of at least one, the table of a
    document is typed, whether undeclared levels were refused or not and malformed rows left out
    or not; every attribute has its column and every row its cells. -/
theorem exists_coerce_auto {options : Options} {text : List Char}
    (hread : read options text = .ok p) (hlimit : 1 ≤ maxLevels) :
    ∃ policy t, Policy.ofLimit maxLevels = .ok policy ∧
      coerce { mode := .auto, policy } p = .ok t ∧
      t.names = p.names ∧ ∀ c ∈ t.columns, c.length = p.rows.length := by
  obtain ⟨hwf, -⟩ := wellFormed_of_read hread
  obtain ⟨columns, hcolumns, hnames, hlengths⟩ :=
    exists_columns_of_wellFormed maxLevels hwf
  have hdistinct : (columns.map (·.name)).Nodup := hnames ▸ hwf.names_nodup
  obtain ⟨t, ht⟩ := Table.exists_ofColumns_of_nodup hdistinct hlengths
  have hlimit' : Policy.ofLimit maxLevels = .ok (countPolicy maxLevels) := if_neg (by omega)
  refine ⟨countPolicy maxLevels, t, hlimit', (coerce_eq_ok_iff rfl).2 ⟨columns, hcolumns, ht⟩, ?_⟩
  obtain ⟨rfl, -, -⟩ := Table.ofColumns_spec ht
  exact ⟨hnames, hlengths⟩

/-- A malformed row, an undeclared level, a number beyond the doubles and one beyond 64 bits,
    spellings of "not a number" that count as missing and one that does not, levels that are
    equal numbers. -/
theorem exists_coerce_auto_odd_cells :
    ∃ p policy t, read { strict := false, badRow := .skip }
        ("@attribute n \x7b1,'1.0',nan\x7d\n@attribute a numeric\n@attribute s string\n@data\n" ++
          "1,1e400,-nan\n'1.0',99999999999999999999,nan\n2,nan,x\n1\nnan,?,-nan\n").toList = .ok p ∧
      (1 : Int) ≤ 3 ∧ Policy.ofLimit 3 = .ok policy ∧
      coerce { mode := .auto, policy } p = .ok t ∧ t.names = ["n", "a", "s"] := by
  let p : ParsedTable :=
    { relation := ""
      attributes := [{ name := "n", kind := .nominal, levels := ["1", "1.0", "nan"] },
        { name := "a", kind := .numeric }, { name := "s", kind := .string }]
      rows := [[.text "1", .text "1e400", .text "-nan"],
        [.text "1.0", .text "99999999999999999999", .text "nan"],
        [.unknownLevel, .text "nan", .text "x"], [.text "nan", .missing, .text "-nan"]]
      skipped := 1 }
  have hread : read { strict := false, badRow := .skip }
      ("@attribute n \x7b1,'1.0',nan\x7d\n@attribute a numeric\n@attribute s string\n@data\n" ++
        "1,1e400,-nan\n'1.0',99999999999999999999,nan\n2,nan,x\n1\nnan,?,-nan\n").toList = .ok p := by
    decide +kernel
  obtain ⟨policy, t, hpolicy, ht, hnames, -⟩ := exists_coerce_auto hread (by decide : (1 : Int) ≤ 3)
  exact ⟨p, policy, t, hread, by decide, hpolicy, ht, hnames⟩

end Tables

end Coercion

end DatasetCatalog
