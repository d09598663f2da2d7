import DatasetCatalog.Plain
import DatasetCatalog.Proofs.Coercion.Meaning

/-! # Frames of coerced tables

  A frame shows a table when it has as many rows and, column by column, the same cells, with null
  exactly where a cell is missing. What the libraries of frames make of what they are handed is
  theirs; all that is asked of them here is that they store it, as far as it can be looked at. One
  of them is handed the dense values of a column with codes and bitmap, the other one the list of
  its cells, and both accept every column of a coerced table. A frame of pandas has the names of
  the table too. One of polars has them unless a name is empty, since polars takes a series with
  an empty name for one that has none.
-/

namespace DatasetCatalog

/-! ### Looking at frames -/

/-- What can be seen of a series. -/
structure SeriesView where
  name : String
  /-- The categories, and whether they have an order, when there are categories. -/
  categories : Option (List String × Bool)
  /-- The cells; nothing for null. -/
  cells : List (Option Value)
  deriving DecidableEq

/-- What can be seen of a frame. -/
structure FrameView where
  rowCount : Nat
  /-- The columns in order. -/
  columns : List SeriesView
  deriving DecidableEq

/-- The column of a frame shows the column of a table, under whatever name. -/
structure SeriesView.Shows (library : FrameLibrary) (shown : SeriesView) (c : Column) :
    Prop where
  /-- It has as many rows. -/
  length : shown.cells.length = c.length
  /-- Exactly the missing cells are null. -/
  null_iff : ∀ i : Nat, shown.cells[i]? = some none ↔ c.missing[i]? = some true
  /-- Every other cell has the value that the column lists. -/
  value : ∀ i : Nat, c.missing[i]? = some false →
    ∃ v, shown.cells[i]? = some (some v) ∧ c.toList[i]? = some (some v)
  /-- Categories are the levels of a finite column, and have an order exactly when the column has
      one. One of the libraries makes categories of an ordered column only. -/
  category_iff : ∀ levels ordered, shown.categories = some (levels, ordered) ↔
    c.scitype.isFinite = true ∧ (library = .pandas ∨ c.scitype = .orderedFactor) ∧
      levels = c.levels ∧ (ordered = true ↔ c.scitype = .orderedFactor)

/-- The frame shows the table under the given names. -/
structure FrameView.Shows (library : FrameLibrary) (names : List String) (f : FrameView)
    (t : Table) : Prop where
  /-- It has these names in this order. -/
  names : f.columns.map (·.name) = names
  /-- It has as many rows. -/
  rowCount : f.rowCount = t.rowCount
  /-- Its columns show the columns of the table in order. -/
  columns : List.Forall₂ (SeriesView.Shows library) f.columns t.columns
  /-- Every column has all rows. -/
  heights : ∀ shown ∈ f.columns, shown.cells.length = f.rowCount

/-! ### What the libraries store -/

/-- A double in a cell; pandas has no other null among doubles than what is no number. -/
def floatCell (x : Binary64) : Option Value := if x.isNaN then none else some (.number (.float x))

/-- The cell of a code: its category, or null. -/
def categoryCell (categories : List String) (code : Int) : Option Value :=
  if code < 0 then none else categories[code.toNat]?.map .text

namespace PandasData

/-- The data can be stored: bitmaps are as long as their values, integers have 64 bits, categories
    differ, codes have a category or none, and strings are texts. -/
def IsProper : PandasData → Prop
  | floats _ => True
  | integers ns null => ns.length = null.length ∧ ∀ n ∈ ns, fitsInt64 n = true
  | categories codes levels _ => levels.Nodup ∧ ∀ code ∈ codes, -1 ≤ code ∧ code < levels.length
  | strings cells => ∀ v, some v ∈ cells → ∃ s, v = .text s

/-- The cells that the data makes. -/
def cells : PandasData → List (Option Value)
  | floats xs => xs.map floatCell
  | integers ns null => Column.hide null (ns.map fun n => .number (.int n))
  | categories codes levels _ => codes.map (categoryCell levels)
  | strings cells => cells

/-- The categories of the data, and whether they have an order. -/
def categories? : PandasData → Option (List String × Bool)
  | categories _ levels ordered => some (levels, ordered)
  | _ => none

end PandasData

namespace PolarsType

/-- Series of the type can be made: categories differ. -/
def IsProper : PolarsType → Prop
  | enum levels => levels.Nodup
  | _ => True

/-- The type has the value. -/
def Takes : PolarsType → Value → Prop
  | float64, .number (.float _) => True
  | int64, .number (.int n) => fitsInt64 n = true
  | utf8, .text _ => True
  | enum levels, .text s => s ∈ levels
  | _, _ => False

/-- The categories of the type, which have an order. -/
def categories? : PolarsType → Option (List String × Bool)
  | enum levels => some (levels, true)
  | _ => none

end PolarsType

/-- The names of columns in a frame of polars, by the names of its series. -/
def columnNames (names : List String) : List String :=
  names.zipIdx.map fun (name, i) => Polars.columnName name i

/-- Series with the names that they have in a frame of polars. -/
def SeriesView.renamed (series : List SeriesView) : List SeriesView :=
  series.zipIdx.map fun (s, i) => { s with name := Polars.columnName s.name i }

/-- How the series and frames of the libraries are looked at. -/
structure Views (libraries : FrameLibraries) where
  pandas : libraries.pandas.Series → SeriesView
  polars : libraries.polars.Series → SeriesView
  frame : libraries.Frame → FrameView

section Views

variable {libraries : FrameLibraries}

/-- Pandas stores what it is given. -/
structure Views.PandasStores (views : Views libraries) : Prop where
  series : ∀ name data, data.IsProper → ∃ s, libraries.pandas.series name data = .ok s ∧
    views.pandas s = ⟨name, data.categories?, data.cells⟩
  /-- The columns of a frame have the names under which their series were given. -/
  frame : ∀ columns n, (columns.map (·.1)).Nodup →
    (∀ x ∈ columns, (views.pandas x.2).cells.length = n) →
    ∃ f, libraries.pandas.frame columns n = .ok f ∧
      views.frame f = ⟨n, columns.map fun (name, s) => { views.pandas s with name }⟩

/-- Polars stores what it is given, but for an empty name, and refuses two columns of one name. -/
structure Views.PolarsStores (views : Views libraries) : Prop where
  series : ∀ name cells (type : PolarsType), type.IsProper →
    (∀ v, some v ∈ cells → type.Takes v) → ∃ s, libraries.polars.series name cells type = .ok s ∧
      views.polars s = ⟨name, type.categories?, cells⟩
  /-- Labels show the texts that they are made of. -/
  categorical : ∀ s, (∀ v, some v ∈ (views.polars s).cells → ∃ text, v = .text text) →
    ∃ s', libraries.polars.categorical s = .ok s' ∧
      views.polars s' = { views.polars s with categories := none }
  frame : ∀ series n, series ≠ [] → (∀ s ∈ series, (views.polars s).cells.length = n) →
    (columnNames (series.map fun s => (views.polars s).name)).Nodup →
    ∃ f, libraries.polars.frame series = .ok f ∧
      views.frame f = ⟨n, SeriesView.renamed (series.map views.polars)⟩
  refuses : ∀ series, ¬(columnNames (series.map fun s => (views.polars s).name)).Nodup →
    ∃ e, libraries.polars.frame series = .error e

end Views

/-! ### The cells of a column -/

theorem Column.getElem?_hide {missing : List Bool} {values : List Value}
    (h : values.length = missing.length) (i : Nat) :
    (Column.hide missing values)[i]? =
      missing[i]?.map fun m => if m then none else values[i]? := by
  by_cases hi : i < missing.length
  · have hv : i < values.length := h ▸ hi
    simp [Column.hide, hi, hv]
  · have hv : ¬i < values.length := h ▸ hi
    simp [Column.hide, hi, hv]

theorem Column.mem_of_mem_hide {missing : List Bool} {values : List Value} {v : Value}
    (h : some v ∈ Column.hide missing values) : ∃ m, (v, m) ∈ values.zip missing ∧ m = false := by
  obtain ⟨⟨v', m⟩, hmem, heq⟩ := List.mem_map.1 h
  cases m with
  | true => exact absurd heq nofun
  | false =>
    obtain rfl := Option.some.inj heq
    exact ⟨false, hmem, rfl⟩

variable {c : Column}

theorem Column.length_shown (c : Column) :
    (Coercion.shownValues c.values).length = c.missing.length :=
  (Coercion.length_shownValues c.values).trans c.length_eq

theorem Column.length_toList (c : Column) : c.toList.length = c.length := by
  rw [Coercion.toList_eq_hide, Column.hide, List.length_map, List.length_zip, c.length_shown,
    Nat.min_self]
  rfl

theorem Column.getElem?_toList (c : Column) (i : Nat) : c.toList[i]? =
    c.missing[i]?.map fun m => if m then none else (Coercion.shownValues c.values)[i]? := by
  rw [Coercion.toList_eq_hide]
  exact Column.getElem?_hide c.length_shown i

/-- The list of cells has nothing exactly where a cell is missing. -/
theorem Column.toList_eq_none_iff (c : Column) (i : Nat) :
    c.toList[i]? = some none ↔ c.missing[i]? = some true := by
  rw [c.getElem?_toList i]
  cases hm : c.missing[i]? with
  | none => simp
  | some m =>
    cases m with
    | true => simp
    | false =>
      have hi : i < (Coercion.shownValues c.values).length := by
        rw [c.length_shown]
        exact (List.getElem?_eq_some_iff.1 hm).1
      simp [hi]

/-- Where a cell is not missing, the list of cells has a value. -/
theorem Column.exists_toList {i : Nat} (hm : c.missing[i]? = some false) :
    ∃ v, c.toList[i]? = some (some v) := by
  have hi : i < (Coercion.shownValues c.values).length := by
    rw [c.length_shown]
    exact (List.getElem?_eq_some_iff.1 hm).1
  refine ⟨(Coercion.shownValues c.values)[i], ?_⟩
  rw [c.getElem?_toList i, hm]
  simp [hi]

/-! ### Columns that can be shown -/

/-- What the libraries ask of a column: levels that differ, doubles that are numbers, and counts of
    64 bits. -/
structure Column.Admits (c : Column) : Prop where
  /-- No level is declared twice. -/
  levels : c.levels.Nodup
  /-- The doubles are numbers. -/
  numbers : c.NumbersOnly
  counts : ∀ ns, c.values = .count ns → ∀ n ∈ ns, fitsInt64 n = true

/-- The categories under which a library shows a column. -/
def Column.shownCategories (library : FrameLibrary) (c : Column) : Option (List String × Bool) :=
  match c.scitype with
  | .multiclass => if library = .pandas then some (c.levels, false) else none
  | .orderedFactor => some (c.levels, true)
  | _ => none

/-- A column as a library shows it. -/
def Column.view (library : FrameLibrary) (c : Column) : SeriesView :=
  ⟨c.name, c.shownCategories library, c.toList⟩

theorem Column.shows_view (library : FrameLibrary) (c : Column) (name : String) :
    SeriesView.Shows library { c.view library with name } c where
  length := c.length_toList
  null_iff := c.toList_eq_none_iff
  value := by
    intro i hm
    obtain ⟨v, hv⟩ := Column.exists_toList hm
    exact ⟨v, hv, hv⟩
  category_iff := by
    intro levels ordered
    unfold Column.view Column.shownCategories
    cases c.scitype with
    | continuous | count | textual => simp [Scitype.isFinite]
    | multiclass => cases library <;> cases ordered <;> simp [Scitype.isFinite, eq_comm]
    | orderedFactor => cases ordered <;> simp [Scitype.isFinite, eq_comm]

/-- Columns that are shown one by one are shown together, whatever their names. -/
theorem shows_of_views {library : FrameLibrary} {t : Table} {shown : List SeriesView}
    (hrows : ∀ c ∈ t.columns, c.length = t.rowCount)
    (h : List.Forall₂ (fun s c => ∃ name, s = { Column.view library c with name })
      shown t.columns) :
    FrameView.Shows library (shown.map (·.name)) ⟨t.rowCount, shown⟩ t where
  names := rfl
  rowCount := rfl
  columns := by
    refine h.imp ?_
    rintro s c ⟨name, rfl⟩
    exact c.shows_view library name
  heights := by
    intro s hs
    obtain ⟨c, hc, name, rfl⟩ := exists_of_mem_forall₂ h hs
    exact c.length_toList.trans (hrows c hc)

/-! ### Pandas -/

namespace Column

/-- Overwritten doubles are null where they are missing, and nowhere else when all are numbers. -/
theorem map_floatCell_overwritten {missing : List Bool} {xs : List Binary64}
    (h : ∀ x ∈ xs, x.isNaN = false) :
    (overwritten missing xs).map floatCell = hide missing (xs.map fun x => .number (.float x)) := by
  unfold overwritten hide
  rw [List.zip_map_left, List.map_map, List.map_map]
  apply List.map_congr_left
  rintro ⟨x, m⟩ hmem
  cases m with
  | true => rfl
  | false =>
    have hx := h x (List.of_mem_zip hmem).1
    show (if x.isNaN then none else _) = _
    rw [hx]
    rfl

/-- The code of a present cell has a category, and that of a missing one has none. -/
theorem map_categoryCell_categoryCodes {missing : List Bool} {levels : List String}
    {codes : List Int}
    (h : ∀ p ∈ codes.zip missing, p.2 = false → 0 ≤ p.1 ∧ p.1 < levels.length) :
    (categoryCodes missing codes).map (categoryCell levels) =
      hide missing (codes.map fun code => .text (labelAt levels code)) := by
  unfold categoryCodes hide
  rw [List.zip_map_left, List.map_map, List.map_map]
  apply List.map_congr_left
  rintro ⟨code, m⟩ hmem
  cases m with
  | true => rfl
  | false =>
    obtain ⟨hlow, hhigh⟩ := h (code, false) hmem rfl
    have hindex : code.toNat < levels.length := by omega
    show categoryCell levels code = some (.text (labelAt levels code))
    unfold categoryCell labelAt
    rw [if_neg (by omega), List.getElem?_eq_getElem hindex]
    rfl

/-- Every code is one of a category, or the one below. -/
theorem mem_categoryCodes {missing : List Bool} {levels : List String} {codes : List Int}
    (h : ∀ p ∈ codes.zip missing, p.2 = false → 0 ≤ p.1 ∧ p.1 < levels.length) {code : Int}
    (hcode : code ∈ categoryCodes missing codes) : -1 ≤ code ∧ code < levels.length := by
  obtain ⟨⟨code', m⟩, hmem, rfl⟩ := List.mem_map.1 hcode
  cases m with
  | true => exact ⟨le_rfl, by simp only [if_true]; omega⟩
  | false =>
    obtain ⟨hlow, hhigh⟩ := h (code', false) hmem rfl
    exact ⟨by simp only [Bool.false_eq_true, if_false]; omega, hhigh⟩

/-- The texts of a column are texts. -/
theorem exists_text_of_mem_hide {α : Type} {missing : List Bool} {xs : List α} {f : α → String}
    {v : Value} (h : some v ∈ hide missing (xs.map fun x => .text (f x))) :
    ∃ x m, (x, m) ∈ xs.zip missing ∧ m = false ∧ v = .text (f x) := by
  obtain ⟨m, hmem, hm⟩ := mem_of_mem_hide h
  rw [List.zip_map_left] at hmem
  obtain ⟨⟨x, m'⟩, hpair, heq⟩ := List.mem_map.1 hmem
  obtain ⟨rfl, rfl⟩ := Prod.mk.inj heq
  exact ⟨x, m', hpair, hm, rfl⟩

/-- What pandas is handed of a column that is admitted can be stored, and makes its cells. -/
theorem Admits.pandasData (h : c.Admits) : c.pandasData.IsProper ∧
    c.pandasData.categories? = c.shownCategories .pandas ∧ c.pandasData.cells = c.toList := by
  obtain ⟨name, values, missing, hlength, hcodes⟩ := c
  cases values with
  | continuous xs => exact ⟨trivial, rfl, map_floatCell_overwritten (h.numbers xs rfl)⟩
  | count ns => exact ⟨⟨hlength, h.counts ns rfl⟩, rfl, rfl⟩
  | finite ordered levels codes =>
    refine ⟨⟨h.levels, fun code hcode => mem_categoryCodes hcodes hcode⟩, ?_,
      map_categoryCell_categoryCodes hcodes⟩
    cases ordered <;> rfl
  | textual texts =>
    refine ⟨fun v hv => ?_, rfl, rfl⟩
    obtain ⟨text, -, -, -, rfl⟩ := exists_text_of_mem_hide (f := id) hv
    exact ⟨text, rfl⟩

/-! ### Polars -/

section Polars

variable {libraries : FrameLibraries} {views : Views libraries}

/-- Polars shows a column that is admitted. -/
theorem Admits.toPolars (h : c.Admits) (hstores : views.PolarsStores) :
    ∃ s, c.toPolars libraries.polars = .ok s ∧ views.polars s = c.view .polars := by
  obtain ⟨name, values, missing, hlength, hcodes⟩ := c
  cases values with
  | continuous xs =>
    refine hstores.series name _ .float64 trivial fun v hv => ?_
    obtain ⟨m, hmem, -⟩ := mem_of_mem_hide hv
    obtain ⟨x, -, rfl⟩ := List.mem_map.1 (List.of_mem_zip hmem).1
    trivial
  | count ns =>
    refine hstores.series name _ .int64 trivial fun v hv => ?_
    obtain ⟨m, hmem, -⟩ := mem_of_mem_hide hv
    obtain ⟨n, hn, rfl⟩ := List.mem_map.1 (List.of_mem_zip hmem).1
    exact h.counts ns rfl n hn
  | textual texts =>
    refine hstores.series name _ .utf8 trivial fun v hv => ?_
    obtain ⟨text, -, -, -, rfl⟩ := exists_text_of_mem_hide (f := id) hv
    trivial
  | finite ordered levels codes =>
    cases ordered with
    | true =>
      refine hstores.series name _ (.enum levels) h.levels fun v hv => ?_
      obtain ⟨code, m, hmem, rfl, rfl⟩ := exists_text_of_mem_hide hv
      -- a present code is a position in the levels
      obtain ⟨hlow, hhigh⟩ := hcodes (code, false) hmem rfl
      have hindex : code.toNat < levels.length := by omega
      show labelAt levels code ∈ levels
      rw [labelAt, List.getElem?_eq_getElem hindex]
      exact List.getElem_mem hindex
    | false =>
      have htext : ∀ v,
          some v ∈ toList ⟨name, .finite false levels codes, missing, hlength, hcodes⟩ →
          ∃ text, v = .text text := by
        intro v hv
        obtain ⟨code, -, -, -, rfl⟩ := exists_text_of_mem_hide hv
        exact ⟨_, rfl⟩
      obtain ⟨s, hs, hview⟩ := hstores.series name
        (toList ⟨name, .finite false levels codes, missing, hlength, hcodes⟩) .utf8 trivial (by
          intro v hv
          obtain ⟨text, rfl⟩ := htext v hv
          trivial)
      obtain ⟨s', hs', hview'⟩ := hstores.categorical s (by rwa [hview])
      refine ⟨s', ?_, by rw [hview', hview]; rfl⟩
      show libraries.polars.series _ _ _ >>= _ = _
      rw [hs]
      exact hs'

end Polars

end Column

/-! ### Tables that can be shown -/

/-- A table whose columns are all admitted, at least one of them, with one number of rows and
    different names. -/
structure Table.Admits (t : Table) : Prop where
  names : t.names.Nodup
  rows : ∀ c ∈ t.columns, c.length = t.rowCount
  columns : ∀ c ∈ t.columns, c.Admits
  declared : t.columns ≠ []

section Tables

variable {t : Table} {libraries : FrameLibraries} {views : Views libraries}

/-- **Pandas shows a table that is admitted.** -/
theorem Table.Admits.toPandas (h : t.Admits) (hstores : views.PandasStores) :
    ∃ f, t.toPandas libraries.pandas = .ok f ∧ (views.frame f).Shows .pandas t.names t := by
  -- the series of one column, under the name that its column gets
  let put := fun c : Column =>
    (libraries.pandas.series c.name c.pandasData).map fun s => (c.name, s)
  have hput : ∀ c ∈ t.columns, ∃ x, put c = .ok x ∧
      (x.1, views.pandas x.2) = (c.name, c.view .pandas) := by
    intro c hc
    obtain ⟨hproper, hcategories, hcells⟩ := (h.columns c hc).pandasData
    obtain ⟨s, hs, hview⟩ := hstores.series c.name c.pandasData hproper
    refine ⟨(c.name, s), by rw [map_eq_ok_iff]; exact ⟨s, hs, rfl⟩, ?_⟩
    rw [hview, hcategories, hcells]
    rfl
  obtain ⟨columns, hcolumns, hviews⟩ := exists_mapM_ok hput
  have hnames : columns.map (·.1) = t.names := by
    have hfirst := congrArg (List.map (·.1)) hviews
    rwa [List.map_map, List.map_map] at hfirst
  have hheights : ∀ x ∈ columns, (views.pandas x.2).cells.length = t.rowCount := by
    intro x hx
    obtain ⟨c, hc, heq⟩ := List.mem_map.1 (hviews ▸ List.mem_map_of_mem hx)
    rw [← (Prod.mk.inj heq).2]
    exact c.length_toList.trans (h.rows c hc)
  obtain ⟨f, hf, hview⟩ := hstores.frame columns t.rowCount (hnames ▸ h.names) hheights
  -- what pandas shows of its frame is the view of the columns, name by name
  have hshown : (columns.map fun (name, s) => { views.pandas s with name }) =
      t.columns.map (Column.view .pandas) := by
    have hboth := congrArg (List.map fun (name, s) => { s with name : SeriesView }) hviews
    rwa [List.map_map, List.map_map] at hboth
  refine ⟨f, ?_, ?_⟩
  · show (t.columns.mapM put >>= fun columns => _) = _
    rw [hcolumns]
    exact hf
  · rw [hview, hshown]
    have hsame : List.Forall₂ (fun s c => ∃ name, s = { Column.view .pandas c with name })
        (t.columns.map (Column.view .pandas)) t.columns := by
      rw [List.forall₂_map_left_iff, List.forall₂_same]
      exact fun c _ => ⟨c.name, rfl⟩
    have hshows := shows_of_views h.rows hsame
    rwa [List.map_map] at hshows

/-! ### Names in polars -/

theorem columnName_empty_ne (i : Nat) : Polars.columnName "" i ≠ "" := by
  intro h
  have hlist := congrArg String.toList h
  rw [Polars.columnName, if_pos rfl, String.toList_append] at hlist
  exact absurd hlist nofun

/-- Names are kept exactly when none of them is empty. -/
theorem columnNames_eq_iff {names : List String} : columnNames names = names ↔ "" ∉ names := by
  constructor
  · intro h hmem
    obtain ⟨i, hi⟩ := List.getElem?_of_mem hmem
    have hname : (columnNames names)[i]? = some (Polars.columnName "" i) := by
      simp [columnNames, hi]
    rw [h, hi] at hname
    exact columnName_empty_ne i (Option.some.inj hname).symm
  · intro h
    have hkept : columnNames names = names.zipIdx.map Prod.fst := by
      apply List.map_congr_left
      rintro ⟨name, i⟩ hmem
      have hne : name ≠ "" := fun heq => h (heq ▸ List.fst_mem_of_mem_zipIdx hmem)
      exact if_neg hne
    rw [hkept, List.zipIdx_map_fst]

theorem map_name_renamed (series : List SeriesView) :
    (SeriesView.renamed series).map (·.name) = columnNames (series.map (·.name)) := by
  rw [SeriesView.renamed, columnNames, List.zipIdx_map, List.map_map, List.map_map]
  rfl

/-- Renamed columns show what they have shown. -/
theorem forall₂_renamed (library : FrameLibrary) (columns : List Column) :
    List.Forall₂ (fun s c => ∃ name, s = { Column.view library c with name })
      (SeriesView.renamed (columns.map (Column.view library))) columns := by
  -- both lists are images of the columns with their positions
  have hright : columns = columns.zipIdx.map Prod.fst := (List.zipIdx_map_fst 0 columns).symm
  rw [SeriesView.renamed, List.zipIdx_map, List.map_map, List.forall₂_map_left_iff]
  conv => rhs; rw [hright]
  rw [List.forall₂_map_right_iff, List.forall₂_same]
  exact fun x _ => ⟨_, rfl⟩

/-- The series that polars makes of a table that is admitted. -/
theorem Table.Admits.exists_series (h : t.Admits) (hstores : views.PolarsStores) :
    ∃ series, t.columns.mapM (Column.toPolars libraries.polars) = .ok series ∧
      series.map views.polars = t.columns.map (Column.view .polars) :=
  exists_mapM_ok fun c hc => (h.columns c hc).toPolars hstores

theorem names_of_series {series : List libraries.polars.Series}
    (h : series.map views.polars = t.columns.map (Column.view .polars)) :
    (series.map fun s => (views.polars s).name) = t.names := by
  have hnames := congrArg (List.map (·.name)) h
  rwa [List.map_map, List.map_map] at hnames

/-- **Polars shows a table that is admitted under names of its own**, when these differ. -/
theorem Table.Admits.toPolars (h : t.Admits) (hstores : views.PolarsStores)
    (hnodup : (columnNames t.names).Nodup) : ∃ f, t.toPolars libraries.polars = .ok f ∧
      (views.frame f).Shows .polars (columnNames t.names) t := by
  obtain ⟨series, hseries, hviews⟩ := h.exists_series hstores
  have hnames := names_of_series hviews
  have hne : series ≠ [] := by
    rintro rfl
    exact h.declared (List.map_eq_nil_iff.1 hviews.symm)
  have hheights : ∀ s ∈ series, (views.polars s).cells.length = t.rowCount := by
    intro s hs
    obtain ⟨c, hc, heq⟩ := List.mem_map.1 (hviews ▸ List.mem_map_of_mem hs)
    rw [← heq]
    exact c.length_toList.trans (h.rows c hc)
  obtain ⟨f, hf, hview⟩ := hstores.frame series t.rowCount hne hheights (hnames ▸ hnodup)
  refine ⟨f, ?_, ?_⟩
  · show (t.columns.mapM (Column.toPolars libraries.polars) >>= fun series => _) = _
    rw [hseries]
    exact hf
  · rw [hview, hviews]
    have hshows := shows_of_views h.rows (forall₂_renamed .polars t.columns)
    rwa [map_name_renamed, List.map_map] at hshows

/-- Where the names clash there is no frame. -/
theorem Table.Admits.toPolars_error (h : t.Admits) (hstores : views.PolarsStores)
    (hclash : ¬(columnNames t.names).Nodup) : ∃ e, t.toPolars libraries.polars = .error e := by
  obtain ⟨series, hseries, hviews⟩ := h.exists_series hstores
  obtain ⟨e, he⟩ := hstores.refuses series (by rwa [names_of_series hviews])
  refine ⟨e, ?_⟩
  show (t.columns.mapM (Column.toPolars libraries.polars) >>= fun series => _) = _
  rw [hseries]
  exact he

end Tables

/-! ### Coerced tables -/

namespace Coercion

open Arff

/-- The counts of a column that stands for its cells have 64 bits, and so have the fillers. -/
theorem fitsInt64_of_slots {cells : List Cell} {missing : List Bool} {ns : List Int}
    (hlength : ns.length = missing.length) (h : Slots StandsForCount 0 cells missing ns) {n : Int}
    (hn : n ∈ ns) : fitsInt64 n = true := by
  obtain ⟨i, hi, rfl⟩ := List.getElem_of_mem hn
  have hvalue : ns[i]? = some ns[i] := List.getElem?_eq_getElem hi
  have hbound : i < missing.length := hlength ▸ hi
  have hbit : missing[i]? = some missing[i] := List.getElem?_eq_getElem hbound
  cases hm : missing[i] with
  | true =>
    rw [h.filled i _ hvalue (hbit.trans (congrArg some hm))]
    decide
  | false =>
    obtain ⟨s, -, hstands⟩ := h.present i _ hvalue (hbit.trans (congrArg some hm))
    exact hstands.1

theorem admits_of_coerceColumn {settings : Settings} {attr : Attribute} {cells : List Cell}
    {c : Column} (hattr : attr.levels.Nodup) (h : coerceColumn settings attr cells = .ok c) :
    c.Admits := by
  obtain ⟨-, hmeans⟩ := means_of_coerceColumn hattr h
  have hvalues := hmeans.values
  refine ⟨?_, numbersOnly_of_coerceColumn h, ?_⟩
  · unfold Column.levels
    cases hc : c.values with
    | finite ordered levels codes =>
      rw [hc] at hvalues
      exact hvalues.2.1
    | continuous | count | textual => exact List.nodup_nil
  · intro ns hns n hn
    have hlength := c.length_eq
    rw [hns] at hvalues hlength
    exact fitsInt64_of_slots hlength hvalues hn

theorem admits_of_coerce {p : ParsedTable} (hread : p.IsRead) {settings : Settings} {t : Table}
    (h : coerce settings p = .ok t) : t.Admits := by
  obtain ⟨strict, hwf⟩ := hread.wellFormed
  obtain ⟨columns, hcolumns, ht⟩ := exists_columns_of_coerce h
  obtain ⟨rfl, hnames, hrows⟩ := Table.ofColumns_spec ht
  have hbeside := coerceColumns_eq_ok_iff.1 hcolumns
  refine ⟨hnames, hrows, ?_, ?_⟩
  · intro c hc
    obtain ⟨⟨attr, j⟩, hattr, cells, -, hcoerce⟩ := exists_of_forall₂_mem hbeside hc
    have hlevels := (hwf.attributes attr (List.fst_mem_of_mem_zipIdx hattr)).levels_nodup
    exact admits_of_coerceColumn hlevels hcoerce
  · intro hnil
    have hlength := hbeside.length_eq
    rw [hnil, List.length_zipIdx, List.length_nil] at hlength
    exact hwf.declared (List.length_eq_zero_iff.1 hlength)

/-- How the libraries show a table. -/
structure Shown {libraries : FrameLibraries} (views : Views libraries) (t : Table) : Prop where
  pandas : ∃ f, t.toPandas libraries.pandas = .ok f ∧ (views.frame f).Shows .pandas t.names t
  /-- Polars shows it under its own names exactly when none of them is empty. -/
  polars_iff : (∃ f, t.toPolars libraries.polars = .ok f ∧
    (views.frame f).Shows .polars t.names t) ↔ "" ∉ t.names
  /-- Otherwise everything but a name is shown, if the name that is put in its place is free. -/
  renamed : (columnNames t.names).Nodup → ∃ f, t.toPolars libraries.polars = .ok f ∧
    (views.frame f).Shows .polars (columnNames t.names) t
  clash : ¬(columnNames t.names).Nodup → ∃ e, t.toPolars libraries.polars = .error e

/-- **Both libraries show the table, up to an empty name.** In every mode, under every policy and
    with any types forced, a table that is coerced from one that was read has a frame in each
    library. The frame has the names and rows of the table; a cell is null exactly where it is
    missing, and is what the column lists everywhere else; and categories are the levels in order.
    Only polars puts another name in the place of an empty one, and has no frame when that name is
    taken. -/
theorem shows_of_coerce {p : ParsedTable} (hread : p.IsRead) {settings : Settings} {t : Table}
    (h : coerce settings p = .ok t) {libraries : FrameLibraries} {views : Views libraries}
    (hpandas : views.PandasStores) (hpolars : views.PolarsStores) : Shown views t := by
  have hadmits := admits_of_coerce hread h
  refine ⟨hadmits.toPandas hpandas, ⟨?_, ?_⟩, hadmits.toPolars hpolars,
    hadmits.toPolars_error hpolars⟩
  · rintro ⟨f, hf, hshows⟩
    -- the names of the frame are those that polars gives
    by_cases hnodup : (columnNames t.names).Nodup
    · obtain ⟨f', hf', hshows'⟩ := hadmits.toPolars hpolars hnodup
      obtain rfl := Except.ok.inj (hf.symm.trans hf')
      exact columnNames_eq_iff.1 (hshows'.names.symm.trans hshows.names)
    · obtain ⟨e, he⟩ := hadmits.toPolars_error hpolars hnodup
      exact absurd (hf.symm.trans he) nofun
  · intro hnonempty
    have hnames := columnNames_eq_iff.2 hnonempty
    have hframe := hadmits.toPolars hpolars (by rw [hnames]; exact hadmits.names)
    rwa [hnames] at hframe

end Coercion

/-! ### Plain frames -/

namespace PlainFrame

/-- The categories of a storage type, and whether they have an order. -/
def categories? : FrameType → Option (List String × Bool)
  | .category levels ordered => some (levels, ordered)
  | _ => none

/-- How plain columns and frames are looked at. -/
def views : Views .plain where
  pandas := fun c => ⟨c.name, categories? c.type, c.cells⟩
  polars := fun c => ⟨c.name, categories? c.type, c.cells⟩
  frame := fun f => ⟨f.rowCount, f.columns.map fun c => ⟨c.name, categories? c.type, c.cells⟩⟩

theorem nanAsNull_float (x : Binary64) :
    nanAsNull (some (.number (.float x))) = DatasetCatalog.floatCell x := by
  cases x <;> rfl

theorem pandasStores : views.PandasStores where
  series := by
    intro name data hproper
    cases data with
    | floats xs =>
      refine ⟨_, rfl, ?_⟩
      show SeriesView.mk _ _ (xs.map _) = ⟨_, _, xs.map _⟩
      rw [List.map_congr_left fun x _ => nanAsNull_float x]
      rfl
    | integers ns null => exact ⟨_, rfl, rfl⟩
    | categories codes levels ordered =>
      exact ⟨⟨name, .category levels ordered, _⟩, if_pos hproper.1, rfl⟩
    | strings cells => exact ⟨_, rfl, rfl⟩
  frame := by
    intro columns n hnames hheights
    exact ⟨_, rfl, congrArg (FrameView.mk n) List.map_map⟩

theorem map_name_positioned (series : List FrameColumn) :
    (positioned series).map (·.name) = columnNames (series.map (·.name)) := by
  rw [positioned, columnNames, List.zipIdx_map, List.map_map, List.map_map]
  rfl

theorem polarsStores : views.PolarsStores where
  series := by
    intro name cells type hproper htakes
    cases type with
    | float64 | int64 | utf8 => exact ⟨_, rfl, rfl⟩
    | enum levels => exact ⟨⟨name, .category levels true, cells⟩, if_pos hproper, rfl⟩
  categorical := fun s _ => ⟨{ s with type := .labels }, rfl, rfl⟩
  frame := by
    intro series n hne hheights hnames
    obtain ⟨c, rest, rfl⟩ := List.exists_cons_of_ne_nil hne
    refine ⟨_, if_pos ((map_name_positioned (c :: rest)).symm ▸ hnames), ?_⟩
    have hheight : c.cells.length = n := hheights c List.mem_cons_self
    show FrameView.mk c.cells.length ((positioned (c :: rest)).map _) = _
    rw [hheight, SeriesView.renamed, List.zipIdx_map, List.map_map, positioned, List.map_map]
    rfl
  refuses := fun series hclash =>
    ⟨_, if_neg fun hnodup => hclash (map_name_positioned series ▸ hnodup)⟩

end PlainFrame

namespace Coercion

open Arff

/-- An ordered column with a missing cell, one of counts with a text that says "not a number", one
    of texts that is forced to be one of levels, and one with an empty name. -/
theorem shows_of_coerce_odd_cells :
    let settings : Settings :=
      { mode := .auto, forced := [("a", .count), ("s", .multiclass), ("", .count)] }
    ∃ (p : ParsedTable) (t : Table), p.IsRead ∧ coerce settings p = .ok t ∧
      Shown PlainFrame.views t ∧
      (t.toPandas FrameLibraries.plain.pandas).toOption.map PlainFrame.views.frame =
        some ⟨3, [⟨"n", some (["1"], true), [some (.text "1"), none, some (.text "1")]⟩,
          ⟨"a", none, [some (.number (.int 1000)), none, some (.number (.int 7))]⟩,
          ⟨"s", some ([""], false), [some (.text ""), some (.text ""), none]⟩,
          ⟨"", none, [some (.number (.int 1)), none, some (.number (.int 2))]⟩]⟩ ∧
      (t.toPolars FrameLibraries.plain.polars).toOption.map PlainFrame.views.frame =
        some ⟨3, [⟨"n", some (["1"], true), [some (.text "1"), none, some (.text "1")]⟩,
          ⟨"a", none, [some (.number (.int 1000)), none, some (.number (.int 7))]⟩,
          ⟨"s", none, [some (.text ""), some (.text ""), none]⟩,
          ⟨"column_3", none, [some (.number (.int 1)), none, some (.number (.int 2))]⟩]⟩ := by
  intro settings
  let p : ParsedTable :=
    { relation := ""
      attributes := [{ name := "n", kind := .nominal, levels := ["1", "1.0", "nan"] },
        { name := "a", kind := .numeric }, { name := "s", kind := .string },
        { name := "", kind := .numeric }]
      rows := [[.text "1", .text "1e3", .text "", .text "1"],
        [.unknownLevel, .text "nan", .text "", .missing],
        [.text "1.0", .text "7", .missing, .text "2"]] }
  have hread : read { strict := false } ("@attribute n \x7b1,'1.0',nan\x7d\n" ++
      "@attribute a numeric\n@attribute s string\n@attribute '' numeric\n@data\n" ++
      "1,1e3,'',1\n2, nan ,'',?\n'1.0',7,?,2\n").toList = .ok p := by
    decide +kernel
  have hp : p.IsRead := ⟨_, .inl ⟨_, hread⟩⟩
  obtain ⟨t, ht⟩ : ∃ t, coerce settings p = .ok t := exists_eq_ok (by decide +kernel)
  have hpandas : (coerce settings p).toOption.bind (fun t =>
      (t.toPandas FrameLibraries.plain.pandas).toOption.map PlainFrame.views.frame) =
      some ⟨3, [⟨"n", some (["1"], true), [some (.text "1"), none, some (.text "1")]⟩,
        ⟨"a", none, [some (.number (.int 1000)), none, some (.number (.int 7))]⟩,
        ⟨"s", some ([""], false), [some (.text ""), some (.text ""), none]⟩,
        ⟨"", none, [some (.number (.int 1)), none, some (.number (.int 2))]⟩]⟩ := by
    decide +kernel
  have hpolars : (coerce settings p).toOption.bind (fun t =>
      (t.toPolars FrameLibraries.plain.polars).toOption.map PlainFrame.views.frame) =
      some ⟨3, [⟨"n", some (["1"], true), [some (.text "1"), none, some (.text "1")]⟩,
        ⟨"a", none, [some (.number (.int 1000)), none, some (.number (.int 7))]⟩,
        ⟨"s", none, [some (.text ""), some (.text ""), none]⟩,
        ⟨"column_3", none, [some (.number (.int 1)), none, some (.number (.int 2))]⟩]⟩ := by
    decide +kernel
  rw [ht, Except.toOption, Option.bind_some] at hpandas hpolars
  exact ⟨p, t, hp, ht, shows_of_coerce hp ht PlainFrame.pandasStores PlainFrame.polarsStores,
    hpandas, hpolars⟩

end Coercion

end DatasetCatalog
