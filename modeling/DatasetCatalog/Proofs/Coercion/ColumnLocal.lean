import DatasetCatalog.Proofs.Coercion.Total

/-! # Columns coerced apart

  A column is made of its own attribute, its own cells and the type that is forced on it, if there
  is one. So the columns of a table do not depend on each other: selecting columns of a coerced
  table is the same as coercing what was selected, forcing a type on one column leaves all others
  alone, and where a type is forced neither the mode nor the policy matters.
-/

namespace DatasetCatalog

open Arff

/-! ### Selected attributes -/

namespace Arff.ParsedTable

/-- The table with the attributes at these positions only, in this order. -/
def pick (p : ParsedTable) (positions : List Nat) : ParsedTable :=
  { p with
    attributes := positions.filterMap (p.attributes[·]?)
    rows := p.rows.map fun row => positions.filterMap (row[·]?) }

/-- The table with the named attributes only, in the order of the names. -/
def only (p : ParsedTable) (names : List String) : ParsedTable := p.pick (names.map p.names.idxOf)

/-- The cells below a picked attribute are those that were below it. -/
theorem column?_pick {p : ParsedTable} {positions : List Nat}
    (h : ∀ j ∈ positions, ∃ cells, p.column? j = some cells) {k j : Nat}
    (hk : positions[k]? = some j) : (p.pick positions).column? k = p.column? j := by
  obtain ⟨cells, hcells⟩ := h j (List.mem_of_getElem? hk)
  have hrow : ∀ row ∈ p.rows, (positions.filterMap (row[·]?))[k]? = row[j]? := by
    intro row hrow
    obtain ⟨picked, hpicked⟩ : ∃ picked,
        List.Forall₂ (fun i cell => row[i]? = some cell) positions picked := by
      refine exists_forall₂ fun i hi => ?_
      obtain ⟨cells, hcells⟩ := h i hi
      obtain ⟨cell, -, hcell⟩ := exists_of_mem_forall₂ (mapM_eq_some_iff.1 hcells) hrow
      exact ⟨cell, hcell⟩
    obtain ⟨cell, hat, hcell⟩ := exists_getElem?_of_forall₂ hpicked.flip hk
    rw [filterMap_eq_of_forall₂ hpicked, hat, hcell]
  rw [hcells]
  unfold column? pick
  rw [mapM_eq_some_iff, List.forall₂_map_left_iff]
  refine (forall₂_congr_of_mem fun row hmem cell => ?_).1 (mapM_eq_some_iff.1 hcells)
  rw [hrow row hmem]

end Arff.ParsedTable

namespace Coercion

/-- The settings without the types that are forced on other columns. -/
def Settings.only (settings : Settings) (names : List String) : Settings :=
  { settings with forced := settings.forced.filter fun f => decide (f.1 ∈ names) }

/-- The settings with a type forced on one column more. -/
def Settings.force (settings : Settings) (name : String) (type : Scitype) : Settings :=
  { settings with forced := (name, type) :: settings.forced }

theorem lookup_only {settings : Settings} {names : List String} {name : String}
    (h : name ∈ names) : (settings.only names).forced.lookup name = settings.forced.lookup name := by
  unfold Settings.only
  induction settings.forced with
  | nil => rfl
  | cons f forced ih =>
    rw [List.filter_cons, List.lookup_cons]
    split
    · rw [List.lookup_cons, ih]
    · next hout =>
      -- the types that are left out are not those of the name
      have hne : (name == f.1) = false := by
        rw [beq_eq_false_iff_ne]
        rintro rfl
        exact hout (decide_eq_true h)
      rw [ih, hne]

/-! ### One column -/

section Columns

variable {settings settings' : Settings} {attr : Attribute}

/-- A column depends on the mode, on the policy and on the type that is forced on it. -/
theorem coerceColumn_congr (hmode : settings'.mode = settings.mode)
    (hpolicy : settings'.policy = settings.policy)
    (hforced : settings'.forced.lookup attr.name = settings.forced.lookup attr.name)
    (cells : List Cell) : coerceColumn settings' attr cells = coerceColumn settings attr cells := by
  unfold coerceColumn
  rw [hmode, hpolicy, hforced]

/-- Types that are forced on other columns do not matter. -/
theorem coerceColumn_only {names : List String} (h : attr.name ∈ names) (cells : List Cell) :
    coerceColumn (settings.only names) attr cells = coerceColumn settings attr cells := by
  apply coerceColumn_congr
  · rfl
  · rfl
  · exact lookup_only h

/-- One type more that is forced on another column does not matter. -/
theorem coerceColumn_force {name : String} {type : Scitype} (h : attr.name ≠ name)
    (cells : List Cell) :
    coerceColumn (settings.force name type) attr cells = coerceColumn settings attr cells := by
  have hforced : (settings.force name type).forced.lookup attr.name =
      settings.forced.lookup attr.name := by
    show ((name, type) :: settings.forced).lookup attr.name = _
    rw [List.lookup_cons, beq_eq_false_iff_ne.2 h]
  apply coerceColumn_congr
  · rfl
  · rfl
  · exact hforced

/-- Where a type is forced, the mode and the policy do not matter. -/
theorem coerceColumn_forced {type : Scitype} (h : settings.forced.lookup attr.name = some type)
    (h' : settings'.forced.lookup attr.name = some type) (cells : List Cell) :
    coerceColumn settings' attr cells = coerceColumn settings attr cells := by
  unfold coerceColumn
  rw [h, h']

end Columns

/-! ### All columns -/

section Tables

variable {settings : Settings} {p : ParsedTable} {t : Table} {names : List String}

/-- Every attribute of a coerced table has its own column, which is found by its name. -/
theorem exists_column_of_attribute (h : coerce settings p = .ok t) {j : Nat} {attr : Attribute}
    (hattr : p.attributes[j]? = some attr) : ∃ cells c, p.column? j = some cells ∧
      coerceColumn settings attr cells = .ok c ∧ t.column? attr.name = some c := by
  obtain ⟨cells, c, hcells, hc, hcoerce⟩ := exists_column_of_coerce h hattr
  obtain ⟨columns, -, ht⟩ := exists_columns_of_coerce h
  refine ⟨cells, c, hcells, hcoerce, ?_⟩
  rw [← (name_length_of_coerceColumn hcoerce).1]
  exact Table.column?_of_getElem? (Table.ofColumns_spec ht).2.1 hc

/-- The names of a coerced table are those of the attributes. -/
theorem names_of_coerce (h : coerce settings p = .ok t) : t.names = p.names := by
  obtain ⟨columns, hcolumns, ht⟩ := exists_columns_of_coerce h
  obtain ⟨rfl, -, -⟩ := Table.ofColumns_spec ht
  exact names_of_coerceColumns hcolumns

/-- A selected attribute, and the column that it has with the others and without them. -/
structure Selected (settings : Settings) (p : ParsedTable) (t : Table) (name : String)
    (entry : Attribute × Column) : Prop where
  /-- The attribute stands at the position of its name. -/
  declared : p.attributes[p.names.idxOf name]? = some entry.1
  /-- It has the name. -/
  name_eq : entry.1.name = name
  /-- The column is made of the cells at that position. -/
  coerced : ∃ cells, p.column? (p.names.idxOf name) = some cells ∧
    coerceColumn settings entry.1 cells = .ok entry.2
  /-- It is the one of the table. -/
  column : t.column? name = some entry.2

theorem Selected.column_name {name : String} {entry : Attribute × Column}
    (h : Selected settings p t name entry) : entry.2.name = name := by
  obtain ⟨cells, -, hcoerce⟩ := h.coerced
  rw [(name_length_of_coerceColumn hcoerce).1, h.name_eq]

theorem exists_selected (h : coerce settings p = .ok t) {name : String} (hname : name ∈ p.names) :
    ∃ entry, Selected settings p t name entry := by
  have hlt := List.idxOf_lt_length_iff.2 hname
  have hat := List.getElem_idxOf hlt
  unfold ParsedTable.names at hlt hat
  rw [List.getElem_map] at hat
  rw [List.length_map] at hlt
  have hattr := List.getElem?_eq_getElem hlt
  obtain ⟨cells, c, hcells, hcoerce, hfound⟩ := exists_column_of_attribute h hattr
  rw [hat] at hfound
  exact ⟨(_, c), hattr, hat, ⟨cells, hcells, hcoerce⟩, hfound⟩

variable {entries : List (Attribute × Column)}

theorem attributes_only (h : List.Forall₂ (Selected settings p t) names entries) :
    (p.only names).attributes = entries.map (·.1) := by
  show (names.map p.names.idxOf).filterMap (p.attributes[·]?) = _
  apply filterMap_eq_of_forall₂
  rw [List.forall₂_map_left_iff, List.forall₂_map_right_iff]
  exact h.imp fun _ _ hentry => hentry.declared

/-- What is selected of the table is coerced to the columns that were selected. -/
theorem coerceColumns_only (h : List.Forall₂ (Selected settings p t) names entries) :
    coerceColumns (settings.only names) (p.only names) 0 (p.only names).attributes =
      .ok (entries.map (·.2)) := by
  have hpositions : ∀ j ∈ names.map p.names.idxOf, ∃ cells, p.column? j = some cells := by
    intro j hj
    obtain ⟨n, hn, rfl⟩ := List.mem_map.1 hj
    obtain ⟨entry, -, hentry⟩ := exists_of_mem_forall₂ h hn
    obtain ⟨cells, hcells, -⟩ := hentry.coerced
    exact ⟨cells, hcells⟩
  have hentries : entries.map (·.2) = entries.zipIdx.map fun entry => entry.1.2 := by
    rw [← List.zipIdx_map_fst 0 entries, List.map_map, List.zipIdx_map_fst]
    rfl
  rw [attributes_only h, coerceColumns_eq_ok_iff, List.zipIdx_map, hentries,
    List.forall₂_map_left_iff, List.forall₂_map_right_iff, List.forall₂_same]
  rintro ⟨entry, k⟩ hmem
  obtain ⟨n, hn, hentry⟩ := exists_getElem?_of_forall₂ h (List.mem_zipIdx_iff_getElem?.1 hmem)
  obtain ⟨cells, hcells, hcoerce⟩ := hentry.coerced
  refine ⟨cells, ?_, ?_⟩
  · have hk : (names.map p.names.idxOf)[k]? = some (p.names.idxOf n) := by
      rw [List.getElem?_map, hn]
      rfl
    exact (ParsedTable.column?_pick hpositions hk).trans hcells
  · have hname : entry.1.name ∈ names := hentry.name_eq ▸ List.mem_of_getElem? hn
    exact (coerceColumn_only hname cells).trans hcoerce

/-- The selected columns have the names that were selected. -/
theorem names_of_selected (h : List.Forall₂ (Selected settings p t) names entries) :
    (entries.map (·.2)).map (·.name) = names := by
  have hbeside : List.Forall₂ (· = ·) names (entries.map fun entry => entry.2.name) :=
    List.forall₂_map_right_iff.2 (h.imp fun _ _ hentry => hentry.column_name.symm)
  rw [List.forall₂_eq_eq_eq] at hbeside
  rw [List.map_map]
  exact hbeside.symm

theorem select_of_selected (h : List.Forall₂ (Selected settings p t) names entries) :
    t.select names = Table.ofColumns (entries.map (·.2)) := by
  have hfound : ∀ n ∈ names, ¬(t.column? n).isNone = true := by
    intro n hn
    obtain ⟨entry, -, hentry⟩ := exists_of_mem_forall₂ h hn
    rw [hentry.column]
    exact Bool.false_ne_true
  have hselected : names.filterMap t.column? = entries.map (·.2) := by
    apply filterMap_eq_of_forall₂
    rw [List.forall₂_map_right_iff]
    exact h.imp fun _ _ hentry => hentry.column
  unfold Table.select
  rw [List.filter_eq_nil_iff.2 hfound, hselected]

/-- **Selecting columns is coercing what was selected.** -/
theorem coerce_only (h : coerce settings p = .ok t) (hnames : names.Nodup)
    (hknown : ∀ n ∈ names, n ∈ p.names) : ∃ t', t.select names = .ok t' ∧
      coerce (settings.only names) (p.only names) = .ok t' := by
  obtain ⟨entries, hentries⟩ := exists_forall₂ fun n hn => exists_selected h (hknown n hn)
  -- the columns that are selected come from the table, and form one
  have hfrom : ∀ c ∈ entries.map (·.2), c ∈ t.columns := by
    intro c hc
    obtain ⟨entry, hmem, rfl⟩ := List.mem_map.1 hc
    obtain ⟨n, -, hentry⟩ := exists_of_forall₂_mem hentries hmem
    exact List.mem_of_find?_eq_some hentry.column
  obtain ⟨columns, -, ht⟩ := exists_columns_of_coerce h
  obtain ⟨rfl, -, hlengths⟩ := Table.ofColumns_spec ht
  obtain ⟨t', ht'⟩ := Table.exists_ofColumns_of_nodup ((names_of_selected hentries).symm ▸ hnames)
    fun c hc => hlengths c (hfrom c hc)
  refine ⟨t', (select_of_selected hentries).trans ht', ?_⟩
  refine coerce_eq_ok_iff_known.2 ⟨?_, _, coerceColumns_only hentries, ht'⟩
  -- only types of selected columns are still forced
  intro f hf
  have hf' : f.1 ∈ names := of_decide_eq_true (List.mem_filter.1 hf).2
  obtain ⟨entry, hmem, hentry⟩ := exists_of_mem_forall₂ hentries hf'
  rw [ParsedTable.names, attributes_only hentries, List.map_map, List.mem_map]
  exact ⟨entry, hmem, hentry.name_eq⟩

/-! ### Locality -/

theorem same_self_of_coerce (h : coerce settings p = .ok t) : t.same t = true := by
  obtain ⟨columns, hcolumns, ht⟩ := exists_columns_of_coerce h
  obtain ⟨rfl, -, -⟩ := Table.ofColumns_spec ht
  rw [Table.same_iff, List.forall₂_same]
  intro c hc
  obtain ⟨a, -, cells, -, hcoerce⟩ := exists_of_forall₂_mem (coerceColumns_eq_ok_iff.1 hcolumns) hc
  exact Column.same_self (numbersOnly_of_coerceColumn hcoerce)

/-- The columns of a coerced table do not depend on each other. -/
structure ColumnLocal (settings : Settings) (p : ParsedTable) (t : Table) : Prop where
  /-- In the same mode and under the same policy, an attribute has the same column in every table
      where it has the same cells and the same type is forced on it. -/
  determined : ∀ settings' p' t', settings'.mode = settings.mode →
    settings'.policy = settings.policy → coerce settings' p' = .ok t' →
    ∀ j j' attr, p.attributes[j]? = some attr → p'.attributes[j']? = some attr →
      p'.column? j' = p.column? j →
      settings'.forced.lookup attr.name = settings.forced.lookup attr.name →
      ∃ c, t.column? attr.name = some c ∧ t'.column? attr.name = some c
  /-- Selecting columns is coercing the selected attributes, in the order of the selection. -/
  selects : ∀ names, names.Nodup → (∀ n ∈ names, n ∈ p.names) → ∃ t', t.select names = .ok t' ∧
    coerce (settings.only names) (p.only names) = .ok t' ∧ t'.same t' = true
  /-- A type that is forced on one column more changes no other column. If the table cannot be
      coerced any more, it is that column which cannot have the type. -/
  forces : ∀ name ∈ p.names, ∀ type,
    (∃ t', coerce (settings.force name type) p = .ok t' ∧ t'.names = t.names ∧
      ∀ other, other ≠ name → t'.column? other = t.column? other) ∨
    ∃ j attr cells e, p.attributes[j]? = some attr ∧ attr.name = name ∧
      p.column? j = some cells ∧ coerceColumn (settings.force name type) attr cells = .error e ∧
      coerce (settings.force name type) p = .error e
  /-- A column that a type is forced on is the same in every mode and under every policy. -/
  modes : ∀ mode policy t', coerce { settings with mode, policy } p = .ok t' →
    ∀ name type, settings.forced.lookup name = some type → t'.column? name = t.column? name

/-- Two tables have one column of a name when their attributes of the name are coerced alike. -/
theorem column?_congr {settings' : Settings} {p' : ParsedTable} {t' : Table}
    (h : coerce settings p = .ok t) (h' : coerce settings' p' = .ok t') {j j' : Nat}
    {attr : Attribute} (hattr : p.attributes[j]? = some attr)
    (hattr' : p'.attributes[j']? = some attr) (hcells : p'.column? j' = p.column? j)
    (hsame : ∀ cells, coerceColumn settings' attr cells = coerceColumn settings attr cells) :
    ∃ c, t.column? attr.name = some c ∧ t'.column? attr.name = some c := by
  obtain ⟨cells, c, hat, hcoerce, hfound⟩ := exists_column_of_attribute h hattr
  obtain ⟨cells', c', hat', hcoerce', hfound'⟩ := exists_column_of_attribute h' hattr'
  obtain rfl := Option.some.inj (hat.symm.trans (hcells.symm.trans hat'))
  obtain rfl := Except.ok.inj (hcoerce.symm.trans ((hsame cells).symm.trans hcoerce'))
  exact ⟨c, hfound, hfound'⟩

theorem column?_eq_of_settings {settings' : Settings} {t' : Table}
    (h : coerce settings p = .ok t) (h' : coerce settings' p = .ok t') {name : String}
    (hsame : ∀ attr : Attribute, attr.name = name → ∀ cells,
      coerceColumn settings' attr cells = coerceColumn settings attr cells) :
    t'.column? name = t.column? name := by
  by_cases hname : name ∈ p.names
  · obtain ⟨attr, hmem, rfl⟩ := List.mem_map.1 hname
    obtain ⟨j, hattr⟩ := List.mem_iff_getElem?.1 hmem
    obtain ⟨c, hc, hc'⟩ := column?_congr h h' hattr hattr rfl (hsame attr rfl)
    rw [hc, hc']
  · rw [Table.column?_eq_none (names_of_coerce h' ▸ hname),
      Table.column?_eq_none (names_of_coerce h ▸ hname)]

/-- Columns that are built for the attributes of a coerced table form a table, too. -/
theorem exists_ofColumns_of_coerce {settings' : Settings} {columns : List Column}
    (h : coerce settings p = .ok t)
    (hcolumns : coerceColumns settings' p 0 p.attributes = .ok columns) :
    ∃ t', Table.ofColumns columns = .ok t' := by
  obtain ⟨built, hbuilt, ht⟩ := exists_columns_of_coerce h
  obtain ⟨rfl, hnodup, hlengths⟩ := Table.ofColumns_spec ht
  have hnodup' : (columns.map (·.name)).Nodup := by
    rw [names_of_coerceColumns hcolumns, ← names_of_coerce h]
    exact hnodup
  have hlengths' : ∀ c ∈ columns, c.length = t.rowCount := by
    intro c hc
    -- the column is as long as the one that was built of the same cells
    obtain ⟨a, ha, cells, hcells, hcoerce⟩ :=
      exists_of_forall₂_mem (coerceColumns_eq_ok_iff.1 hcolumns) hc
    obtain ⟨d, hd, cells', hcells', hcoerce'⟩ :=
      exists_of_mem_forall₂ (coerceColumns_eq_ok_iff.1 hbuilt) ha
    obtain rfl := Option.some.inj (hcells.symm.trans hcells')
    rw [(name_length_of_coerceColumn hcoerce).2, ← (name_length_of_coerceColumn hcoerce').2]
    exact hlengths d hd
  exact Table.exists_ofColumns_of_nodup hnodup' hlengths'

/-- A type that is forced on one column more can only fail for that column. -/
theorem exists_of_force_error (h : coerce settings p = .ok t) {name : String}
    (hname : name ∈ p.names) {type : Scitype} {e : CoerceError}
    (he : coerce (settings.force name type) p = .error e) :
    ∃ j attr cells, p.attributes[j]? = some attr ∧ attr.name = name ∧
      p.column? j = some cells ∧ coerceColumn (settings.force name type) attr cells = .error e := by
  have hknown : ∀ f ∈ (settings.force name type).forced, f.1 ∈ p.names := by
    intro f hf
    rcases List.mem_cons.1 hf with rfl | hf
    · exact hname
    · exact (coerce_eq_ok_iff_known.1 h).1 f hf
  have hcolumns := (coerce_eq_error_iff hknown fun _ => exists_ofColumns_of_coerce h).1 he
  obtain ⟨j, attr, hattr, -, hbad⟩ := exists_of_coerceColumns_error hcolumns
  rw [Nat.zero_add] at hbad
  obtain ⟨cells, c, hcells, hcoerce, -⟩ := exists_column_of_attribute h hattr
  obtain ⟨hnone, -⟩ | ⟨cells', hcells', hbad⟩ := hbad
  · rw [hcells] at hnone
    cases hnone
  obtain rfl := Option.some.inj (hcells.symm.trans hcells')
  refine ⟨j, attr, cells, hattr, ?_, hcells, hbad⟩
  -- every other column is built as before
  by_contra hother
  rw [coerceColumn_force hother, hcoerce] at hbad
  cases hbad

/-- **Coercion is local to the columns.** In every mode, under every policy and with any types
    forced. -/
theorem columnLocal_of_coerce (h : coerce settings p = .ok t) : ColumnLocal settings p t where
  determined := by
    intro settings' p' t' hmode hpolicy h' j j' attr hattr hattr' hcells hforced
    exact column?_congr h h' hattr hattr' hcells (coerceColumn_congr hmode hpolicy hforced)
  selects := by
    intro names hnames hknown
    obtain ⟨t', hselect, hcoerce⟩ := coerce_only h hnames hknown
    exact ⟨t', hselect, hcoerce, same_self_of_coerce hcoerce⟩
  forces := by
    intro name hname type
    cases h' : coerce (settings.force name type) p with
    | ok t' =>
      refine .inl ⟨t', rfl, (names_of_coerce h').trans (names_of_coerce h).symm, ?_⟩
      exact fun other hother => column?_eq_of_settings h h' fun attr hattr =>
        coerceColumn_force (hattr ▸ hother)
    | error e =>
      obtain ⟨j, attr, cells, hattr, hat, hcells, hbad⟩ := exists_of_force_error h hname h'
      exact .inr ⟨j, attr, cells, e, hattr, hat, hcells, hbad, rfl⟩
  modes := by
    intro mode policy t' h' name type hforced
    refine column?_eq_of_settings h h' fun attr hattr => ?_
    exact coerceColumn_forced (hattr.symm ▸ hforced) (hattr.symm ▸ hforced)

/-- Two of three columns in another order, of which one has its type forced. -/
theorem columnLocal_of_reordered :
    let settings : Settings := { mode := .auto, forced := [("a", .continuous), ("n", .multiclass)] }
    ∃ p t t', read {} ("@attribute a numeric\n@attribute n \x7bx,y\x7d\n@attribute s string\n@data\n" ++
        "1,x,u\n2,?,v\nnan,y,'1'\n").toList = .ok p ∧
      coerce settings p = .ok t ∧ ["s", "a"].Nodup ∧ (∀ n ∈ ["s", "a"], n ∈ p.names) ∧
      t.select ["s", "a"] = .ok t' ∧ (settings.only ["s", "a"]).forced = [("a", .continuous)] ∧
      (p.only ["s", "a"]).rows =
        [[.text "u", .text "1"], [.text "v", .text "2"], [.text "1", .text "nan"]] ∧
      coerce (settings.only ["s", "a"]) (p.only ["s", "a"]) = .ok t' := by
  intro settings
  let p : ParsedTable :=
    { relation := ""
      attributes := [{ name := "a", kind := .numeric },
        { name := "n", kind := .nominal, levels := ["x", "y"] }, { name := "s", kind := .string }]
      rows := [[.text "1", .text "x", .text "u"], [.text "2", .missing, .text "v"],
        [.text "nan", .text "y", .text "1"]] }
  have hread : read {} ("@attribute a numeric\n@attribute n \x7bx,y\x7d\n@attribute s string\n" ++
      "@data\n1,x,u\n2,?,v\nnan,y,'1'\n").toList = .ok p := by
    decide +kernel
  obtain ⟨t, ht⟩ : ∃ t, coerce settings p = .ok t := exists_eq_ok (by decide +kernel)
  have hnames : ["s", "a"].Nodup := by decide
  have hknown : ∀ n ∈ ["s", "a"], n ∈ p.names := by decide
  obtain ⟨t', hselect, hcoerce, -⟩ := (columnLocal_of_coerce ht).selects ["s", "a"] hnames hknown
  exact ⟨p, t, t', hread, ht, hnames, hknown, hselect, rfl, rfl, hcoerce⟩

end Tables

end Coercion

end DatasetCatalog
