import DatasetCatalog.Proofs.Coercion.Meaning
import Mathlib.Data.List.Sort

/-! # The order of the rows

  A column is typed by what its cells are, and not by where they stand. Its profile counts values
  that differ, and its levels are sorted, so neither depends on the order of the rows, although one
  number may be spelled in several ways and the spelling that comes first stands for all of them
  while they are collected. The other values are converted cell by cell. So a table with its rows
  in another order is coerced to the same columns with their slots in that order.
-/

namespace DatasetCatalog

/-! ### Another order -/

section Rearranged

variable {α β : Type} {xs : List α} {ys : List β} {order : List Nat}

/-- The elements at these positions, one after the other. -/
def rearrange {α : Type} (order : List Nat) (xs : List α) : List α := order.filterMap (xs[·]?)

theorem rearrange_map (order : List Nat) (f : α → β) (xs : List α) :
    rearrange order (xs.map f) = (rearrange order xs).map f := by
  unfold rearrange
  rw [List.map_filterMap]
  simp only [List.getElem?_map]

theorem forall₂_rearrange {R : α → β → Prop} (h : List.Forall₂ R xs ys) (order : List Nat) :
    List.Forall₂ R (rearrange order xs) (rearrange order ys) := by
  unfold rearrange
  induction order with
  | nil => exact .nil
  | cons i order ih =>
    rw [List.filterMap_cons, List.filterMap_cons]
    cases hx : xs[i]? with
    | none =>
      rw [List.getElem?_eq_none_iff, h.length_eq, ← List.getElem?_eq_none_iff] at hx
      rw [hx]
      exact ih
    | some x =>
      obtain ⟨y, hy, hxy⟩ := exists_getElem?_of_forall₂ h.flip hx
      rw [hy]
      exact .cons hxy ih

theorem mem_of_mem_rearrange {x : α} (h : x ∈ rearrange order xs) : x ∈ xs := by
  obtain ⟨i, -, hi⟩ := List.mem_filterMap.1 h
  exact List.mem_of_getElem? hi

theorem zip_rearrange (order : List Nat) (h : xs.length = ys.length) :
    (rearrange order xs).zip (rearrange order ys) = rearrange order (xs.zip ys) := by
  -- both lists are the sides of the list of pairs
  have hxs : rearrange order xs = (rearrange order (xs.zip ys)).map Prod.fst := by
    rw [← rearrange_map, List.map_fst_zip h.le]
  have hys : rearrange order ys = (rearrange order (xs.zip ys)).map Prod.snd := by
    rw [← rearrange_map, List.map_snd_zip h.ge]
  rw [hxs, hys, List.zip_map']
  exact List.map_id _

theorem length_rearrange_eq (order : List Nat) (h : xs.length = ys.length) :
    (rearrange order xs).length = (rearrange order ys).length := by
  have hbeside : List.Forall₂ (fun (_ : α) (_ : β) => True) xs ys :=
    List.forall₂_iff_get.2 ⟨h, fun _ _ _ => trivial⟩
  exact (forall₂_rearrange hbeside order).length_eq

theorem rearrange_range (xs : List α) : rearrange (List.range xs.length) xs = xs := by
  apply filterMap_eq_of_forall₂
  refine List.forall₂_iff_get.2 ⟨List.length_range, fun i _ hi => ?_⟩
  simp

/-- Nothing is lost and nothing is added. -/
theorem perm_rearrange (h : order.Perm (List.range xs.length)) : (rearrange order xs).Perm xs := by
  have hperm := h.filterMap (xs[·]?)
  rwa [← rearrange, ← rearrange, rearrange_range] at hperm

/-- The order that leads back. -/
def inverse (order : List Nat) : List Nat := (List.range order.length).map order.idxOf

theorem perm_inverse {n : Nat} (h : order.Perm (List.range n)) :
    (inverse order).Perm (List.range n) := by
  have hnodup : order.Nodup := h.nodup_iff.2 List.nodup_range
  have hn : order.length = n := h.length_eq.trans List.length_range
  have hpositions : order.map order.idxOf = List.range order.length := by
    refine List.ext_getElem (by simp) fun i _ _ => ?_
    rw [List.getElem_map, List.getElem_range, hnodup.idxOf_getElem]
  unfold inverse
  rw [hn]
  calc ((List.range n).map order.idxOf).Perm (order.map order.idxOf) := (h.map _).symm
    _ = List.range n := by rw [hpositions, hn]

theorem rearrange_inverse (h : order.Perm (List.range xs.length)) :
    rearrange (inverse order) (rearrange order xs) = xs := by
  have hn : order.length = xs.length := h.length_eq.trans List.length_range
  -- what stands beside a position is the element there
  have hbeside : List.Forall₂ (fun i x => xs[i]? = some x) order (rearrange order xs) := by
    obtain ⟨zs, hzs⟩ : ∃ zs, List.Forall₂ (fun i x => xs[i]? = some x) order zs := by
      refine exists_forall₂ fun i hi => ?_
      have hlt : i < xs.length := List.mem_range.1 (h.mem_iff.1 hi)
      exact ⟨_, List.getElem?_eq_getElem hlt⟩
    unfold rearrange
    rwa [filterMap_eq_of_forall₂ hzs]
  apply filterMap_eq_of_forall₂
  unfold inverse
  rw [List.forall₂_map_left_iff]
  refine List.forall₂_iff_get.2 ⟨by simpa using hn, fun i hi hx => ?_⟩
  have hmem : i ∈ order := h.mem_iff.2 (List.mem_range.2 hx)
  have hat : order[order.idxOf i]? = some i := List.getElem?_idxOf hmem
  obtain ⟨x, hx', hget⟩ := exists_getElem?_of_forall₂ hbeside.flip hat
  simp only [List.get_eq_getElem, List.getElem_range]
  rw [hx', ← hget]
  exact List.getElem?_eq_getElem hx

end Rearranged

/-! ### Columns and tables in another order -/

/-- Dense values in another order. -/
def Values.rearrange (order : List Nat) : Values → Values
  | continuous xs => continuous (DatasetCatalog.rearrange order xs)
  | count xs => count (DatasetCatalog.rearrange order xs)
  | finite ordered levels codes => finite ordered levels (DatasetCatalog.rearrange order codes)
  | textual xs => textual (DatasetCatalog.rearrange order xs)

section Columns

open Coercion

variable (order : List Nat) (c : Column) (v : Values)

theorem shownValues_rearrange :
    shownValues (v.rearrange order) = rearrange order (shownValues v) := by
  cases v <;> exact (rearrange_map order _ _).symm

/-- A column with its slots in another order. -/
def Column.rearrange : Column where
  name := c.name
  values := c.values.rearrange order
  missing := DatasetCatalog.rearrange order c.missing
  length_eq := by
    rw [← length_shownValues, shownValues_rearrange]
    apply length_rearrange_eq
    rw [length_shownValues, c.length_eq]
  codes_valid := by
    have hlength := c.length_eq
    have hvalid := c.codes_valid
    cases hv : c.values with
    | continuous _ | count _ | textual _ => trivial
    | finite ordered levels codes =>
      rw [hv] at hlength hvalid
      intro slot hslot
      rw [zip_rearrange order hlength] at hslot
      exact hvalid slot (mem_of_mem_rearrange hslot)

/-- The column `c'` is the column `c` with its slots in another order. -/
structure Column.Reordered (order : List Nat) (c c' : Column) : Prop where
  name : c'.name = c.name
  scitype : c'.scitype = c.scitype
  /-- The same levels in the same order. -/
  levels : c'.levels = c.levels
  /-- The values, fillers included. -/
  values : c'.values = c.values.rearrange order
  missing : c'.missing = DatasetCatalog.rearrange order c.missing
  /-- The cells that the column shows. -/
  cells : c'.toList = DatasetCatalog.rearrange order c.toList

theorem Column.reordered_rearrange : c.Reordered order (c.rearrange order) where
  name := rfl
  scitype := by
    show (c.values.rearrange order).scitype = c.values.scitype
    cases c.values <;> rfl
  levels := by
    show (c.values.rearrange order).levels = c.values.levels
    cases c.values <;> rfl
  values := rfl
  missing := rfl
  cells := by
    have hlength : (shownValues c.values).length = c.missing.length := by
      rw [length_shownValues, c.length_eq]
    rw [toList_eq_hide, toList_eq_hide]
    show hide (DatasetCatalog.rearrange order c.missing)
      (shownValues (c.values.rearrange order)) = _
    rw [shownValues_rearrange]
    unfold hide
    rw [zip_rearrange order hlength, rearrange_map]

end Columns

namespace Arff.ParsedTable

variable {p : ParsedTable} {order : List Nat}

/-- The table with its rows in another order. -/
def reorder (p : ParsedTable) (order : List Nat) : ParsedTable :=
  { p with rows := rearrange order p.rows }

theorem reorder_inverse (h : order.Perm (List.range p.rows.length)) :
    (p.reorder order).reorder (inverse order) = p := by
  unfold reorder
  rw [rearrange_inverse h]

/-- The cells below an attribute are in the order of the rows. -/
theorem column?_reorder {i : Nat} {cells : List Cell} (h : p.column? i = some cells)
    (order : List Nat) : (p.reorder order).column? i = some (rearrange order cells) :=
  mapM_eq_some_iff.2 (forall₂_rearrange (mapM_eq_some_iff.1 h) order)

end Arff.ParsedTable

namespace Coercion

open Arff Packing

/-! ### What does not depend on the order -/

section Orderless

variable {cells cells' : List Cell}

/-- When equality compares keys, the elements that are kept have the keys of all elements, each of
    them once. -/
theorem nodup_mem_map_dedupBy {α β : Type} {eq : α → α → Bool} (key : α → β) {xs : List α}
    (hkey : ∀ x ∈ xs, ∀ y ∈ xs, eq x y = true ↔ key x = key y) :
    ((dedupBy eq xs).map key).Nodup ∧ ∀ k, k ∈ (dedupBy eq xs).map key ↔ k ∈ xs.map key := by
  obtain ⟨hpairwise, hfrom⟩ := pairwise_dedupBy eq xs
  constructor
  · refine List.pairwise_map.2 (hpairwise.imp_of_mem fun {x y} hx hy hne hsame => ?_)
    rw [(hkey y (hfrom y hy) x (hfrom x hx)).2 hsame.symm] at hne
    exact absurd hne nofun
  · intro k
    rw [List.mem_map, List.mem_map]
    constructor
    · rintro ⟨x, hx, rfl⟩
      exact ⟨x, hfrom x hx, rfl⟩
    · rintro ⟨x, hx, rfl⟩
      obtain ⟨y, hy, rfl | heq⟩ := exists_mem_dedupBy hx
      · exact ⟨y, hy, rfl⟩
      · exact ⟨y, hy, ((hkey x hx y (hfrom y hy)).1 heq).symm⟩

/-- Whichever of equal elements come first, those that are kept have the same keys. -/
theorem perm_map_dedupBy {α β : Type} {eq : α → α → Bool} (key : α → β) {xs ys : List α}
    (h : xs.Perm ys) (hkey : ∀ x ∈ xs, ∀ y ∈ xs, eq x y = true ↔ key x = key y) :
    ((dedupBy eq xs).map key).Perm ((dedupBy eq ys).map key) := by
  have hkey' : ∀ x ∈ ys, ∀ y ∈ ys, eq x y = true ↔ key x = key y :=
    fun x hx y hy => hkey x (h.mem_iff.2 hx) y (h.mem_iff.2 hy)
  obtain ⟨hnodup, hmem⟩ := nodup_mem_map_dedupBy key hkey
  obtain ⟨hnodup', hmem'⟩ := nodup_mem_map_dedupBy key hkey'
  rw [List.perm_ext_iff_of_nodup hnodup hnodup']
  intro k
  rw [hmem, hmem', (h.map key).mem_iff]

theorem perm_dedupBy {α : Type} [DecidableEq α] {xs ys : List α} (h : xs.Perm ys) :
    (dedupBy (· == ·) xs).Perm (dedupBy (· == ·) ys) := by
  have hkey : ∀ x ∈ xs, ∀ y ∈ xs, (x == y) = true ↔ id x = id y := fun x _ y _ => beq_iff_eq
  have hperm := perm_map_dedupBy id h hkey
  rwa [List.map_id, List.map_id] at hperm

theorem perm_presentTexts (h : cells.Perm cells') :
    (presentTexts cells).Perm (presentTexts cells') :=
  (h.filterMap _).filter _

/-- Doubles that are counted as one lie at one place. -/
theorem length_dedupBy_sameReal {xs ys : List Binary64} (h : xs.Perm ys)
    (hnan : ∀ x ∈ xs, x.isNaN = false) :
    (dedupBy sameReal xs).length = (dedupBy sameReal ys).length := by
  have hkey : ∀ x ∈ xs, ∀ y ∈ xs, sameReal x y = true ↔
      (Number.float x).value = (Number.float y).value := fun x hx y hy =>
    Number.same_iff_value_eq (hnan x hx) (hnan y hy)
  have hperm := perm_map_dedupBy (fun x => (Number.float x).value) h hkey
  simpa using hperm.length_eq

/-- **A profile does not depend on the order of the cells.** -/
theorem profile_eq_of_perm (attr : Attribute) (h : cells.Perm cells') :
    profile attr cells = profile attr cells' := by
  have htexts := perm_presentTexts h
  have hempty : presentTexts cells = [] ↔ presentTexts cells' = [] :=
    ⟨fun hnil => (hnil ▸ htexts).nil_eq.symm, fun hnil => (hnil ▸ htexts).eq_nil⟩
  have hnumeric : (profile attr cells).allNumeric = (profile attr cells').allNumeric := by
    rw [Bool.eq_iff_iff, allNumeric_eq_true_iff, allNumeric_eq_true_iff, Ne, hempty]
    simp only [htexts.mem_iff]
  have hintegral : (profile attr cells).allIntegral = (profile attr cells').allIntegral := by
    rw [Bool.eq_iff_iff, allIntegral_eq_true_iff, allIntegral_eq_true_iff, Ne, hempty]
    simp only [htexts.mem_iff]
  have hdistinct : (profile attr cells).distinct = (profile attr cells').distinct := by
    rw [distinct_eq, distinct_eq, hnumeric, hintegral]
    split
    · exact (perm_dedupBy (htexts.filterMap _)).length_eq
    · split
      · refine length_dedupBy_sameReal (htexts.filterMap _) fun x hx => ?_
        obtain ⟨s, -, hs⟩ := List.mem_filterMap.1 hx
        exact isNaN_of_realOf? hs
      · exact (perm_dedupBy htexts).length_eq
  have hpresent : (profile attr cells).present = (profile attr cells').present := htexts.length_eq
  have hfields : ∀ cells, profile attr cells = ⟨attr.name, attr.kind, attr.ordered,
      (profile attr cells).present, (profile attr cells).distinct,
      (profile attr cells).allNumeric, (profile attr cells).allIntegral⟩ := fun _ => rfl
  rw [hfields cells, hpresent, hdistinct, hnumeric, hintegral, ← hfields cells']

theorem textLevels_eq_of_perm (attr : Attribute) (h : cells.Perm cells') :
    textLevels attr cells = textLevels attr cells' := by
  unfold textLevels
  split
  · rfl
  · have hsorted : ∀ texts : List String,
        (texts.mergeSort fun a b => decide (a ≤ b)).Pairwise (· ≤ ·) := fun texts =>
      (List.pairwise_mergeSort (by simpa using fun _ _ _ => String.le_trans)
        (by simpa using String.le_total) texts).imp of_decide_eq_true
    -- there is only one way to sort the texts
    have hperm := perm_dedupBy (h.filterMap Cell.text?)
    refine List.Perm.eq_of_pairwise (fun _ _ _ _ => String.le_antisymm) (hsorted _) (hsorted _) ?_
    exact (List.mergeSort_perm _ _).trans (hperm.trans (List.mergeSort_perm _ _).symm)

theorem numericLevels_eq_of_perm (h : cells.Perm cells') :
    numericLevels cells = numericLevels cells' := by
  have hmem : (sortedNumbers cells).Perm (sortedNumbers cells') := by
    rw [List.perm_ext_iff_of_nodup (nodup_sortedNumbers cells) (nodup_sortedNumbers cells')]
    intro y
    simp only [mem_sortedNumbers, (perm_presentTexts h).mem_iff]
  have hsame : sortedNumbers cells = sortedNumbers cells' := by
    refine hmem.eq_of_pairwise (fun a b _ _ hlt hgt => absurd hgt (lt_asymm hlt))
      (List.pairwise_map.1 (sortedLT_sortedNumbers cells).pairwise)
      (List.pairwise_map.1 (sortedLT_sortedNumbers cells').pairwise)
  rw [numericLevels_eq_map, numericLevels_eq_map, hsame]

end Orderless

/-! ### One column -/

section Columns

variable {attr : Attribute} {cells : List Cell} {c : Column} {order : List Nat}

theorem column_rearrange {α : Type} {P : Packing α}
    {convert : String → Except CoercionFault (Option α)}
    (hvalues : ∀ xs, (P.values xs).rearrange order = P.values (rearrange order xs))
    (h : P.column attr convert cells = .ok c) :
    P.column attr convert (rearrange order cells) = .ok (c.rearrange order) := by
  obtain ⟨vs, hvs, hname, hholds⟩ := column_eq_ok_iff.1 h
  refine column_eq_ok_iff.2 ⟨rearrange order vs, forall₂_rearrange hvs order, hname, ?_, ?_⟩
  · show c.values.rearrange order = _
    rw [hholds.values, hvalues, rearrange_map]
  · show rearrange order c.missing = _
    rw [hholds.missing, rearrange_map]

/-- Every builder takes the same levels from cells in another order, and converts them one by
    one. -/
theorem build_rearrange {type : Scitype} {numeric : Bool}
    (hperm : (rearrange order cells).Perm cells) (h : build attr cells type numeric = .ok c) :
    build attr (rearrange order cells) type numeric = .ok (c.rearrange order) := by
  have hfinite : ∀ ordered, build attr cells (.finite ordered) numeric = .ok c →
      build attr (rearrange order cells) (.finite ordered) numeric = .ok (c.rearrange order) := by
    intro ordered h
    cases numeric with
    | true =>
      rw [build_finite_numbers] at h ⊢
      rw [numericLevels_eq_of_perm hperm]
      exact column_rearrange (fun _ => rfl) h
    | false =>
      rw [build_finite_texts] at h ⊢
      rw [textLevels_eq_of_perm attr hperm]
      exact column_rearrange (fun _ => rfl) h
  cases type with
  | continuous => exact column_rearrange (P := reals) (fun _ => rfl) h
  | count => exact column_rearrange (P := counts) (fun _ => rfl) h
  | multiclass => exact hfinite false h
  | orderedFactor => exact hfinite true h
  | textual => exact column_rearrange (P := texts) (fun _ => rfl) h

theorem coerceColumn_rearrange {settings : Settings}
    (hperm : (rearrange order cells).Perm cells) (h : coerceColumn settings attr cells = .ok c) :
    coerceColumn settings attr (rearrange order cells) = .ok (c.rearrange order) := by
  have hprofile := profile_eq_of_perm attr hperm
  have htype : chosenType settings attr (rearrange order cells) =
      chosenType settings attr cells := by
    unfold chosenType
    rw [hprofile]
  have hsource : numericSource settings attr (rearrange order cells) =
      numericSource settings attr cells := by
    unfold numericSource
    rw [hprofile]
  rw [coerceColumn_eq_build] at h ⊢
  rw [htype, hsource]
  exact build_rearrange hperm h

end Columns

/-! ### All columns -/

section Tables

variable {settings : Settings} {p : ParsedTable} {t : Table} {order : List Nat}

theorem coerceColumns_reorder {columns : List Column} (h : order.Perm (List.range p.rows.length))
    (hcolumns : coerceColumns settings p 0 p.attributes = .ok columns) :
    coerceColumns settings (p.reorder order) 0 p.attributes =
      .ok (columns.map (·.rearrange order)) := by
  rw [coerceColumns_eq_ok_iff] at hcolumns ⊢
  refine List.forall₂_map_right_iff.2 (hcolumns.imp ?_)
  rintro a c ⟨cells, hcells, hc⟩
  have hlength : p.rows.length = cells.length := (mapM_eq_some_iff.1 hcells).length_eq
  rw [hlength] at h
  exact ⟨_, ParsedTable.column?_reorder hcells order, coerceColumn_rearrange (perm_rearrange h) hc⟩

/-- A table with its rows in another order is coerced when the table is, and to its columns in that
    order. -/
theorem exists_coerce_reorder (h : order.Perm (List.range p.rows.length))
    (ht : coerce settings p = .ok t) : ∃ t', coerce settings (p.reorder order) = .ok t' ∧
      t'.columns = t.columns.map (·.rearrange order) := by
  obtain ⟨hknown, columns, hcolumns, htable⟩ := coerce_eq_ok_iff_known.1 ht
  have hlengths : ∀ c ∈ columns, (c.rearrange order).length = c.length := by
    intro c hc
    obtain ⟨a, -, cells, hcells, hcoerce⟩ :=
      exists_of_forall₂_mem (coerceColumns_eq_ok_iff.1 hcolumns) hc
    have hrows : c.missing.length = p.rows.length :=
      (name_length_of_coerceColumn hcoerce).2.trans (mapM_eq_some_iff.1 hcells).length_eq.symm
    rw [← hrows] at h
    exact (perm_rearrange h).length_eq
  have hbeside : List.Forall₂ (fun c c' => c'.name = c.name ∧ c'.length = c.length) columns
      (columns.map (·.rearrange order)) := by
    rw [List.forall₂_map_right_iff, List.forall₂_same]
    exact fun c hc => ⟨rfl, hlengths c hc⟩
  obtain ⟨t', ht', hshape⟩ := Table.exists_ofColumns hbeside htable
  obtain ⟨rfl, -, -⟩ := Table.ofColumns_spec htable
  exact ⟨t', coerce_eq_ok_iff_known.2 ⟨hknown, _, coerceColumns_reorder h hcolumns, ht'⟩, hshape⟩

/-- **The order of the rows does not matter.** In every mode, under every policy and with any types
    forced, a table with its rows in another order is coerced exactly when the table is; then every
    column has its name, its type and its levels in their order, and its values, its bitmap and
    its cells are in the order of the rows. -/
theorem reordered_of_coerce (h : order.Perm (List.range p.rows.length)) :
    ((∃ t', coerce settings (p.reorder order) = .ok t') ↔ ∃ t, coerce settings p = .ok t) ∧
      ∀ t t', coerce settings p = .ok t → coerce settings (p.reorder order) = .ok t' →
        List.Forall₂ (Column.Reordered order) t.columns t'.columns := by
  refine ⟨⟨?_, ?_⟩, ?_⟩
  · rintro ⟨t', ht'⟩
    -- the table is its own reordering, put back
    have hback : (inverse order).Perm (List.range (p.reorder order).rows.length) := by
      have hrows : (p.reorder order).rows.length = p.rows.length := (perm_rearrange h).length_eq
      rw [hrows]
      exact perm_inverse h
    obtain ⟨t, ht, -⟩ := exists_coerce_reorder hback ht'
    rw [ParsedTable.reorder_inverse h] at ht
    exact ⟨t, ht⟩
  · rintro ⟨t, ht⟩
    obtain ⟨t', ht', -⟩ := exists_coerce_reorder h ht
    exact ⟨t', ht'⟩
  · intro t t' ht ht'
    obtain ⟨t'', ht'', hcolumns⟩ := exists_coerce_reorder h ht
    obtain rfl := Except.ok.inj (ht'.symm.trans ht'')
    rw [hcolumns, List.forall₂_map_right_iff, List.forall₂_same]
    exact fun c _ => Column.reordered_rearrange order c

/-- Zero, and one, in two spellings each, in a column that is forced to have ordered levels. -/
theorem reordered_of_mixed_spellings :
    let attr : Attribute := { name := "s", kind := .string }
    let settings : Settings := { forced := [("s", .orderedFactor)] }
    let p : ParsedTable :=
      { relation := "", attributes := [attr]
        rows := ["10", "-0.0", "NaN", "1e0", "inf", "01", "0", "0.5"].map fun s => [.text s] }
    let order := [5, 2, 7, 0, 6, 4, 1, 3]
    order.Perm (List.range p.rows.length) ∧ ∃ t t' c, coerce settings p = .ok t ∧
      coerce settings (p.reorder order) = .ok t' ∧
      List.Forall₂ (Column.Reordered order) t.columns t'.columns ∧ t.columns[0]? = some c ∧
      c.scitype = .orderedFactor ∧ c.levels = ["0", "0.5", "1", "10", "inf"] := by
  intro attr settings p order
  obtain ⟨cells, hcells⟩ : ∃ cells, p.column? 0 = some cells := ⟨_, rfl⟩
  have hcells' := Option.some.inj hcells
  have hnumeric : (profile attr cells).allNumeric = true := by
    subst hcells'
    decide +kernel
  have hall := (allNumeric_eq_true_iff.1 hnumeric).2
  have hsource : numericSource settings attr cells = true := Bool.and_eq_true_iff.2 ⟨hnumeric, rfl⟩
  have hnumbers : sortedNumbers cells =
      [.int 0, .float (Binary64.ofDecimal false 5 (-1)), .int 1, .int 10,
        .float (.infinite false)] := by
    refine sortedNumbers_eq_of_perm ?_ (by decide +kernel) (by decide +kernel)
    subst hcells'
    decide +kernel
  -- the column is built whatever its numbers are, and alone in the table
  obtain ⟨c, hc⟩ := exists_numbers_column attr true hall
  have hcolumn : coerceColumn settings attr cells = .ok c := by
    rw [coerceColumn_eq_build, hsource]
    exact hc
  obtain ⟨t, ht, hat⟩ := exists_coerce_of_single (p := p) rfl hcells (by decide) hcolumn
  have horder : order.Perm (List.range p.rows.length) := by decide
  obtain ⟨hiff, hcolumns⟩ := @reordered_of_coerce settings p order horder
  obtain ⟨t', ht'⟩ := hiff.2 ⟨t, ht⟩
  refine ⟨horder, t, t', c, ht, ht', hcolumns t t' ht ht', hat, ?_, ?_⟩
  · exact scitype_of_column (P := codes true (numericLevels cells)) (fun _ => rfl) hc
  · rw [levels_of_column hc, numericLevels_eq_map, hnumbers]
    decide +kernel

end Tables

end Coercion

end DatasetCatalog
