import DatasetCatalog.Arff.Reader
import DatasetCatalog.Proofs.Coercion.Column
import DatasetCatalog.Proofs.Table.Basic

/-! # Tables coerced again

  A table that coercion returns is taken apart column by column, so coercing the parts again is a
  matter of single columns. In automatic mode the table comes back exactly when no column loses
  its range.
-/

namespace DatasetCatalog.Coercion

open Arff Packing

/-! ### Column by column -/

section Columns

variable {settings : Settings} {p : ParsedTable} {t : Table}

/-- Coerced columns stand beside the attributes and their positions. -/
theorem coerceColumns_eq_ok_iff {i : Nat} {attrs : List Attribute} {columns : List Column} :
    coerceColumns settings p i attrs = .ok columns ↔
      List.Forall₂ (fun a c => ∃ cells, p.column? a.2 = some cells ∧
        coerceColumn settings a.1 cells = .ok c) (attrs.zipIdx i) columns := by
  induction attrs generalizing i columns with
  | nil => rw [coerceColumns, List.zipIdx_nil, List.forall₂_nil_left_iff, Except.ok.injEq, eq_comm]
  | cons attr attrs ih =>
    rw [coerceColumns, List.zipIdx_cons, List.forall₂_cons_left_iff]
    constructor
    · intro h
      split at h
      · exact absurd h (by simp)
      next cells hcells =>
      obtain ⟨c, hc, h⟩ := bind_eq_ok_iff.1 h
      obtain ⟨rest, hrest, h⟩ := bind_eq_ok_iff.1 h
      obtain rfl := Except.ok.inj h
      exact ⟨c, rest, ⟨cells, hcells, hc⟩, ih.1 hrest, rfl⟩
    · rintro ⟨c, rest, ⟨cells, hcells, hc⟩, hrest, rfl⟩
      rw [hcells]
      simp only [hc, ih.2 hrest]
      rfl

/-- The columns fail where the first of them does. -/
theorem exists_of_coerceColumns_error {i : Nat} {attrs : List Attribute} {e : CoerceError}
    (h : coerceColumns settings p i attrs = .error e) :
    ∃ j attr, attrs[j]? = some attr ∧
      (∀ k < j, ∀ before, attrs[k]? = some before → ∃ cells c, p.column? (i + k) = some cells ∧
        coerceColumn settings before cells = .ok c) ∧
      ((p.column? (i + j) = none ∧ e = .shortRow) ∨
        ∃ cells, p.column? (i + j) = some cells ∧ coerceColumn settings attr cells = .error e) := by
  induction attrs generalizing i with
  | nil => cases h
  | cons attr attrs ih =>
    have hnone : ∀ k < 0, ∀ before, (attr :: attrs)[k]? = some before → ∃ cells c,
        p.column? (i + k) = some cells ∧ coerceColumn settings before cells = .ok c :=
      fun k hk => absurd hk (Nat.not_lt_zero k)
    rw [coerceColumns] at h
    split at h
    · next hcells =>
      exact ⟨0, attr, rfl, hnone, .inl ⟨hcells, (Except.error.inj h).symm⟩⟩
    next cells hcells =>
    obtain hcolumn | ⟨c, hc, hrest⟩ := bind_eq_error_iff.1 h
    · exact ⟨0, attr, rfl, hnone, .inr ⟨cells, hcells, hcolumn⟩⟩
    obtain hrest | ⟨columns, -, hdone⟩ := bind_eq_error_iff.1 hrest
    · obtain ⟨j, bad, hat, hbefore, hbad⟩ := ih hrest
      refine ⟨j + 1, bad, hat, ?_, by rwa [← Nat.add_assoc, Nat.add_right_comm]⟩
      intro k hk before hkat
      cases k with
      | zero =>
        obtain rfl := Option.some.inj hkat
        exact ⟨cells, c, hcells, hc⟩
      | succ k =>
        rw [← Nat.add_assoc, Nat.add_right_comm]
        exact hbefore k (Nat.lt_of_succ_lt_succ hk) before hkat
    · cases hdone

/-- A coerced table is formed of coerced columns, whatever types are forced. -/
theorem exists_columns_of_coerce (h : coerce settings p = .ok t) :
    ∃ columns, coerceColumns settings p 0 p.attributes = .ok columns ∧
      Table.ofColumns columns = .ok t := by
  unfold coerce at h
  split at h
  · exact absurd h (by simp)
  split at h
  · exact absurd h (by simp)
  next columns hcolumns =>
  split at h
  · exact absurd h (by simp)
  next t' ht' =>
  obtain rfl := Except.ok.inj h
  exact ⟨columns, hcolumns, ht'⟩

/-- The column at the position of an attribute is coerced from the cells below it. -/
theorem exists_column_of_coerce (h : coerce settings p = .ok t) {j : Nat} {attr : Attribute}
    (hattr : p.attributes[j]? = some attr) : ∃ cells c, p.column? j = some cells ∧
      t.columns[j]? = some c ∧ coerceColumn settings attr cells = .ok c := by
  obtain ⟨columns, hcolumns, ht⟩ := exists_columns_of_coerce h
  obtain ⟨rfl, -, -⟩ := Table.ofColumns_spec ht
  have hzip : p.attributes.zipIdx[j]? = some (attr, j) := by
    rw [List.getElem?_zipIdx, hattr, Nat.zero_add]
    rfl
  obtain ⟨c, hc, cells, hcells, hcoerce⟩ :=
    exists_getElem?_of_forall₂ (coerceColumns_eq_ok_iff.1 hcolumns).flip hzip
  exact ⟨cells, c, hcells, hc, hcoerce⟩

theorem unknownForced_eq_nil_iff :
    unknownForced settings p = [] ↔ ∀ f ∈ settings.forced, f.1 ∈ p.names := by
  unfold unknownForced
  rw [← List.length_eq_zero_iff, List.length_mergeSort, List.length_eq_zero_iff,
    List.filter_eq_nil_iff, List.forall_mem_map]
  simp only [decide_eq_true_eq, not_not]

/-- What coercion does: types are forced on columns of the table only, and its columns are coerced
    one by one. -/
theorem coerce_eq_ok_iff_known : coerce settings p = .ok t ↔
    (∀ f ∈ settings.forced, f.1 ∈ p.names) ∧
      ∃ columns, coerceColumns settings p 0 p.attributes = .ok columns ∧
        Table.ofColumns columns = .ok t := by
  rw [← unknownForced_eq_nil_iff]
  constructor
  · intro h
    refine ⟨?_, exists_columns_of_coerce h⟩
    unfold coerce at h
    split at h
    · exact absurd h (by simp)
    · next hknown => exact hknown
  · rintro ⟨hknown, columns, hcolumns, ht⟩
    unfold coerce
    rw [hknown]
    simp only [hcolumns, ht]

/-- What coercion without forced types does. -/
theorem coerce_eq_ok_iff (hf : settings.forced = []) : coerce settings p = .ok t ↔
    ∃ columns, coerceColumns settings p 0 p.attributes = .ok columns ∧
      Table.ofColumns columns = .ok t := by
  rw [coerce_eq_ok_iff_known, hf]
  exact and_iff_right (by simp)

/-- Types are forced on columns of the table, and the columns that are built form one. What fails
    is then a column. -/
theorem coerce_eq_error_iff {e : CoerceError} (hforced : ∀ f ∈ settings.forced, f.1 ∈ p.names)
    (htable : ∀ columns, coerceColumns settings p 0 p.attributes = .ok columns →
      ∃ t, Table.ofColumns columns = .ok t) :
    coerce settings p = .error e ↔ coerceColumns settings p 0 p.attributes = .error e := by
  unfold coerce
  rw [unknownForced_eq_nil_iff.2 hforced]
  cases hbuilt : coerceColumns settings p 0 p.attributes with
  | error e' => simp
  | ok columns =>
    obtain ⟨t, ht⟩ := htable columns hbuilt
    simp [ht]

/-- The columns of a coerced table, each from the cells below its attribute. -/
theorem columns_of_coerce (hf : settings.forced = []) (h : coerce settings p = .ok t) :
    List.Forall₂ (fun a c => ∃ cells, p.column? a.2 = some cells ∧
      coerceColumn settings a.1 cells = .ok c) p.attributes.zipIdx t.columns := by
  obtain ⟨columns, hcolumns, ht⟩ := (coerce_eq_ok_iff hf).1 h
  rw [(Table.ofColumns_spec ht).1]
  exact coerceColumns_eq_ok_iff.1 hcolumns

/-- Columns that are named like the attributes beside them have all the names. -/
theorem map_name_eq {attrs : List Attribute} {columns : List Column}
    (h : List.Forall₂ (fun a c => c.name = a.1.name) attrs.zipIdx columns) :
    columns.map (·.name) = attrs.map (·.name) := by
  have hnames : List.Forall₂ (· = ·) (columns.map (·.name))
      (attrs.zipIdx.map fun a => a.1.name) := by
    rw [List.forall₂_map_left_iff, List.forall₂_map_right_iff]
    exact h.flip
  rw [List.forall₂_eq_eq_eq] at hnames
  conv_rhs => rw [← List.zipIdx_map_fst 0 attrs, List.map_map]
  exact hnames

/-! ### The parts of a table -/

/-- Each row of the parts takes one cell from every column. -/
theorem rows_toParsed (hne : t.columns ≠ []) (relation : String) :
    (toParsed t relation).rows = (List.range t.rowCount).map fun r =>
      t.columns.map fun c => (columnCells c).getD r .missing := by
  have hempty : t.columns.isEmpty = false := List.isEmpty_eq_false_iff.2 hne
  unfold toParsed
  simp only [hempty, Bool.false_eq_true, if_false, List.map_map]
  rfl

theorem map_getD_range {α : Type} {xs : List α} {n : Nat} (h : xs.length = n) (filler : α) :
    (List.range n).map (fun r => xs.getD r filler) = xs := by
  apply List.ext_getElem
  · rw [List.length_map, List.length_range, h]
  · intro r _ hr
    rw [List.getElem_map, List.getElem_range, List.getD_eq_getElem?_getD, List.getElem?_eq_getElem hr]
    rfl

/-- The cells at a position of the parts are those of the column at that position. -/
theorem column?_toParsed (hrows : ∀ c ∈ t.columns, c.length = t.rowCount) (relation : String)
    {i : Nat} {c : Column} (hc : t.columns[i]? = some c) :
    (toParsed t relation).column? i = some (columnCells c) := by
  have hmem : c ∈ t.columns := List.mem_of_getElem? hc
  have hlength : (columnCells c).length = t.rowCount := by
    rw [length_columnCells, hrows c hmem]
  -- every row is long enough, and holds the cell of its number
  have hcell : ((fun row => row[i]?) ∘ fun r => t.columns.map fun c =>
      (columnCells c).getD r .missing) = fun r => pure ((columnCells c).getD r .missing) := by
    funext r
    rw [Function.comp_apply, List.getElem?_map, hc]
    rfl
  unfold ParsedTable.column?
  rw [rows_toParsed (List.ne_nil_of_mem hmem), List.mapM_map, hcell, List.mapM_pure,
    map_getD_range hlength]
  rfl

/-- Coercing the parts of a table means coercing the parts of each of its columns. -/
theorem coerceColumns_toParsed (hrows : ∀ c ∈ t.columns, c.length = t.rowCount)
    (relation : String) {columns : List Column} :
    coerceColumns settings (toParsed t relation) 0 (toParsed t relation).attributes =
        .ok columns ↔
      List.Forall₂ (fun c c' => coerceColumn settings (attributeOf c) (columnCells c) = .ok c')
        t.columns columns := by
  have hattributes : (toParsed t relation).attributes.zipIdx =
      t.columns.zipIdx.map fun c => (attributeOf c.1, c.2) := by
    show (t.columns.map attributeOf).zipIdx = _
    rw [List.zipIdx_map]
    rfl
  have hcolumns : t.columns.zipIdx.map Prod.fst = t.columns := List.zipIdx_map_fst 0 t.columns
  rw [coerceColumns_eq_ok_iff, hattributes, List.forall₂_map_left_iff]
  conv_rhs => rw [← hcolumns, List.forall₂_map_left_iff]
  apply forall₂_congr_of_mem
  intro c hc c'
  rw [column?_toParsed hrows relation (List.mem_zipIdx_iff_getElem?.1 hc)]
  constructor
  · rintro ⟨cells, hcells, h⟩
    obtain rfl := Option.some.inj hcells
    exact h
  · intro h
    exact ⟨_, rfl, h⟩

end Columns

/-! ### Sameness of coerced columns -/

section Same

variable {attr : Attribute} {cells : List Cell} {c : Column} {type : Scitype} {numeric : Bool}
  {maxLevels : Int}

/-- Doubles are packed as numbers, since the filler of a missing slot is one, too. -/
theorem numbersOnly_of_reals (h : reals.column attr toReal cells = .ok c) : c.NumbersOnly := by
  obtain ⟨vs, hvs, -, hholds⟩ := column_eq_ok_iff.1 h
  intro xs hxs x hx
  rw [hholds.values] at hxs
  obtain rfl := Values.continuous.inj hxs
  obtain ⟨v, hv, rfl⟩ := List.mem_map.1 hx
  cases v with
  | none => rfl
  | some x => exact isNaN_of_converts hvs x hv

/-- A column of any other type holds no doubles. -/
theorem numbersOnly_of_scitype (h : c.scitype ≠ .continuous) : c.NumbersOnly := by
  intro xs hxs
  unfold Column.scitype at h
  rw [hxs] at h
  exact absurd rfl h

theorem numbersOnly_of_codes {ordered : Bool} {levels : List String}
    {convert : String → Except CoercionFault (Option Int)}
    (h : (codes ordered levels).column attr convert cells = .ok c) : c.NumbersOnly := by
  have htype : c.scitype = .finite ordered := scitype_of_column (fun _ => rfl) h
  apply numbersOnly_of_scitype
  rw [htype]
  cases ordered <;> decide

/-- No builder puts a double into a column that is no number. -/
theorem numbersOnly_of_build (h : build attr cells type numeric = .ok c) : c.NumbersOnly := by
  cases type with
  | continuous =>
    rw [build_continuous] at h
    exact numbersOnly_of_reals h
  | count =>
    rw [build_count] at h
    have htype : c.scitype = .count := scitype_of_column (fun _ => rfl) h
    exact numbersOnly_of_scitype (by rw [htype]; decide)
  | multiclass => exact numbersOnly_of_codes h
  | orderedFactor => exact numbersOnly_of_codes h
  | textual =>
    rw [build_textual] at h
    have htype : c.scitype = .textual := scitype_of_column (fun _ => rfl) h
    exact numbersOnly_of_scitype (by rw [htype]; decide)

theorem numbersOnly_of_coerceColumn {settings : Settings}
    (h : coerceColumn settings attr cells = .ok c) : c.NumbersOnly := by
  unfold coerceColumn at h
  simp only at h
  split at h
  · exact numbersOnly_of_build h
  · split at h
    · exact numbersOnly_of_build h
    · exact numbersOnly_of_build h

/-- In automatic mode every column is coerced again, and it is the same unless it loses its
    range. -/
theorem coerceColumn_auto_same (h : coerceColumn (autoSettings maxLevels) attr cells = .ok c) :
    ∃ c', coerceColumn (autoSettings maxLevels) (attributeOf c) (columnCells c) = .ok c' ∧
      (c'.name = c.name ∧ c'.length = c.length) ∧ (c'.same c = true ↔ ¬LosesRange cells) := by
  by_cases hrange : LosesRange cells
  · obtain ⟨c', hc', hname, hlength, hdiffers⟩ := coerceColumn_auto_losesRange hrange h
    refine ⟨c', hc', ⟨hname, hlength⟩, ?_⟩
    simp [hdiffers, hrange]
  · refine ⟨c, coerceColumn_auto_again hrange h, ⟨rfl, rfl⟩, ?_⟩
    simp [Column.same_self (numbersOnly_of_coerceColumn h), hrange]

end Same

/-! ### The automatic mode -/

section Auto

variable {p : ParsedTable} {t : Table} {maxLevels : Int}

/-- No column of a parsed table loses its range. -/
def KeepsRange (p : ParsedTable) : Prop :=
  ∀ i < p.attributes.length, ∀ cells, p.column? i = some cells → ¬LosesRange cells

/-- The columns of a table, coerced again from attributes at the positions from `i` on. -/
theorem exists_columns_auto {attrs : List (Attribute × Nat)} {columns : List Column}
    (h : List.Forall₂ (fun a c => ∃ cells, p.column? a.2 = some cells ∧
      coerceColumn (autoSettings maxLevels) a.1 cells = .ok c) attrs columns) :
    ∃ columns',
      List.Forall₂ (fun c c' => coerceColumn (autoSettings maxLevels) (attributeOf c)
        (columnCells c) = .ok c') columns columns' ∧
      List.Forall₂ (fun c c' => c'.name = c.name ∧ c'.length = c.length) columns columns' ∧
      (List.Forall₂ (fun c c' => c'.same c = true) columns columns' ↔
        ∀ a ∈ attrs, ∀ cells, p.column? a.2 = some cells → ¬LosesRange cells) := by
  -- one column at a time; the table is the same when all of them are
  induction h with
  | nil => exact ⟨[], .nil, .nil, by simp⟩
  | @cons a c attrs columns hc _ ih =>
    obtain ⟨cells, hcells, hc⟩ := hc
    obtain ⟨columns', hagain, hshape, hsame⟩ := ih
    obtain ⟨c', hc', hshape', hsame'⟩ := coerceColumn_auto_same hc
    refine ⟨c' :: columns', .cons hc' hagain, .cons hshape' hshape, ?_⟩
    rw [List.forall₂_cons, hsame, hsame', List.forall_mem_cons, hcells]
    simp

/-- **Detection is repeatable where no column loses its range, and only there.** A table that
    the counting policy has typed is always coerced again from its parts. -/
theorem coerce_auto_again_same_iff (h : coerce (autoSettings maxLevels) p = .ok t)
    (relation : String) : ∃ t', coerce (autoSettings maxLevels) (toParsed t relation) = .ok t' ∧
      (t'.same t = true ↔ KeepsRange p) := by
  have hforced : (autoSettings maxLevels).forced = [] := rfl
  obtain ⟨columns, hcolumns, ht⟩ := (coerce_eq_ok_iff hforced).1 h
  obtain ⟨rfl, -, hrows⟩ := Table.ofColumns_spec ht
  obtain ⟨columns', hagain, hshape, hsame⟩ :=
    exists_columns_auto (coerceColumns_eq_ok_iff.1 hcolumns)
  obtain ⟨t', ht', rfl⟩ := Table.exists_ofColumns hshape ht
  have hcolumns' := (coerceColumns_toParsed hrows relation).2 hagain
  refine ⟨t', (coerce_eq_ok_iff hforced).2 ⟨_, hcolumns', ht'⟩, ?_⟩
  rw [Table.same_iff, hsame]
  unfold KeepsRange
  constructor
  · intro hall i hi cells hcells
    have hmem : (p.attributes[i], i) ∈ p.attributes.zipIdx :=
      List.mem_zipIdx_iff_getElem?.2 (List.getElem?_eq_getElem hi)
    exact hall _ hmem cells hcells
  · intro hkeeps a ha cells hcells
    obtain ⟨hi, -⟩ := List.getElem?_eq_some_iff.1 (List.mem_zipIdx_iff_getElem?.1 ha)
    exact hkeeps a.2 hi cells hcells

/-- The integer below the least 64-bit one is rounded to that one. -/
theorem not_same_of_rounded_into_range :
    ∃ p t t', read {} "@attribute a numeric\n@data\n-9223372036854775809\n".toList = .ok p ∧
      coerce (autoSettings 20) p = .ok t ∧
      coerce (autoSettings 20) (toParsed t "") = .ok t' ∧ t'.same t = false := by
  let p : ParsedTable :=
    ⟨"", [{ name := "a", kind := .numeric }], [[.text "-9223372036854775809"]], 0⟩
  have hread : read {} "@attribute a numeric\n@data\n-9223372036854775809\n".toList = .ok p := by
    decide +kernel
  obtain ⟨t, ht⟩ : ∃ t, coerce (autoSettings 20) p = .ok t := exists_eq_ok (by decide +kernel)
  obtain ⟨t', ht', hsame⟩ := coerce_auto_again_same_iff ht ""
  have hwhole : wholeOf? "-9223372036854775809" = some (-2 ^ 63 - 1) := by decide +kernel
  have hpresent : presentTexts [.text "-9223372036854775809"] = ["-9223372036854775809"] := by
    decide +kernel
  have hloses : LosesRange [.text "-9223372036854775809"] := by
    unfold LosesRange
    rw [hpresent]
    simp only [List.mem_singleton, forall_eq, exists_eq_left]
    refine ⟨⟨_, hwhole, ?_⟩, _, hwhole, by omega⟩
    unfold Binary64.RoundsIntoInt64
    omega
  refine ⟨p, t, t', hread, ht, ht', ?_⟩
  rw [← Bool.not_eq_true, hsame]
  intro hkeeps
  exact hkeeps 0 (by decide) _ rfl hloses

end Auto

end DatasetCatalog.Coercion
