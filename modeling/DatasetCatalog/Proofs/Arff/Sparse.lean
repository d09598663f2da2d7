import DatasetCatalog.Proofs.Arff.Items
import DatasetCatalog.Proofs.Arff.Sections
import DatasetCatalog.Proofs.Keyed
import Mathlib.Data.List.ModifyLast

/-! # Sparse and dense rows

  A sparse row means the dense row in which every attribute it leaves out has its default. The two
  are read by different code, which resolves the values that are written in both in the same way.
  They come apart at one place: the default of an attribute is resolved as if it had been
  written without quotes, so a first level that is the missing marker becomes a missing cell.
-/

namespace DatasetCatalog.Arff

open Text

/-! ### The two lines of a row -/

/-- The sparse line of the items. -/
def sparseLine (items : List Item) : List Char :=
  '{' :: joinWith [',', ' '] (items.map itemText) ++ ['}']

/-- The default of an attribute, written as a value; the bare marker where there is none. -/
def defaultText (attr : Attribute) : List Char :=
  match sparseDefault attr with
  | some value => quoted value.toList
  | none => ['?']

/-- The cell that a written default is read as. -/
def defaultCell (attr : Attribute) : RawCell :=
  match sparseDefault attr with
  | some value => ⟨value.toList, true⟩
  | none => ⟨['?'], false⟩

/-- What a dense row writes at a position: the value of the item there, or the default. -/
def denseText (items : List Item) (i : Nat) (attr : Attribute) : List Char :=
  match items.lookup i with
  | some value => valueText value
  | none => defaultText attr

/-- The cell at a position of a dense row. -/
def denseCell (items : List Item) (i : Nat) (attr : Attribute) : RawCell :=
  match items.lookup i with
  | some value => valueCell value
  | none => defaultCell attr

/-- The dense line of the items, in which nothing is left out. -/
def denseLine (attrs : List Attribute) (items : List Item) : List Char :=
  joinWith [','] (attrs.mapIdx (denseText items))

/-- The attribute at a position is left out, and its default is the marker. -/
def TakesMarker (items : List Item) (i : Nat) (attr : Attribute) : Prop :=
  items.lookup i = none ∧ sparseDefault attr = some "?"

instance (items : List Item) (i : Nat) (attr : Attribute) : Decidable (TakesMarker items i attr) :=
  inferInstanceAs (Decidable (_ ∧ _))

/-- The cell at a position, or a missing one where the default is the marker. -/
def markCell (items : List Item) (i : Nat) (attr : Attribute) (cell : Cell) : Cell :=
  if TakesMarker items i attr then .missing else cell

/-- The row in which an attribute that is left out is missing when its default is the marker. -/
def markOmitted (items : List Item) (attrs : List Attribute) (row : List Cell) : List Cell :=
  (attrs.zip row).mapIdx fun i (attr, cell) => markCell items i attr cell

theorem writes_defaultText (attr : Attribute) : Writes (defaultText attr) (defaultCell attr) := by
  unfold defaultText defaultCell
  split
  · exact .quoted _
  · exact .bare bare_questionMark

theorem writes_denseText (items : List Item) (i : Nat) (attr : Attribute) :
    Writes (denseText items i attr) (denseCell items i attr) := by
  unfold denseText denseCell
  split
  · exact writes_valueText _
  · exact writes_defaultText attr

theorem writes_denseTexts (items : List Item) (attrs : List Attribute) :
    List.Forall₂ Writes (attrs.mapIdx (denseText items)) (attrs.mapIdx (denseCell items)) := by
  rw [List.forall₂_iff_get]
  refine ⟨by simp, ?_⟩
  intro i hi hi'
  simpa using writes_denseText items i _

/-! ### The dense line -/

section Rows

variable {rules : RowRules} {place : RowPlace} {attrs : List Attribute} {items : List Item}

theorem dataLine_denseLine (hne : attrs ≠ []) : DataLine (denseLine attrs items) :=
  dataLine_cells (writes_denseTexts items attrs) (by simpa using hne)

theorem readRow_denseLine (hne : attrs ≠ []) :
    readRow rules place attrs (denseLine attrs items) =
      resolveAll rules place attrs (attrs.mapIdx (denseCell items)) :=
  readRow_cells (writes_denseTexts items attrs) (by simpa using hne) rules place (by simp)

/-! ### The sparse line -/

/-- The items of a sparse line are solid, and apart from each other. -/
theorem solid_inner (hne : items ≠ []) : Solid (joinWith [',', ' '] (items.map itemText)) := by
  apply solid_joinWith (by simpa using hne)
  intro text htext
  obtain ⟨item, -, rfl⟩ := List.mem_map.1 htext
  exact solid_itemText item

theorem dataLine_sparseLine (items : List Item) : DataLine (sparseLine items) := by
  have hhead : (sparseLine items).head? = some '{' := rfl
  have hlast : (sparseLine items).getLast? = some '}' := by
    rw [sparseLine, List.getLast?_concat]
  have hsolid : Solid (sparseLine items) := by
    refine ⟨by simp [sparseLine], ?_, ?_⟩
    · intro c hc
      rw [hhead] at hc
      obtain rfl := Option.some.inj hc
      decide
    · intro c hc
      rw [hlast] at hc
      obtain rfl := Option.some.inj hc
      decide
  refine ⟨hsolid, ?_, ?_⟩
  · intro hn
    simp only [sparseLine, List.cons_append, List.mem_cons, List.mem_append, List.not_mem_nil,
      or_false] at hn
    rcases hn with hopen | hinner | hclose
    · exact absurd hopen (by decide)
    · rcases mem_joinWith hinner with hsep | ⟨text, htext, hmem⟩
      · exact absurd hsep (by decide)
      · obtain ⟨item, -, rfl⟩ := List.mem_map.1 htext
        exact newline_notMem_itemText item hmem
    · exact absurd hclose (by decide)
  · unfold lineKind
    rw [hsolid.strip_eq]
    rfl

/-- A sparse line is read item by item, and then filled. -/
theorem readRow_sparseLine (rules : RowRules) (place : RowPlace) (attrs : List Attribute)
    (items : List Item) :
    ∃ texts, List.Forall₂ (fun text item => strip text = itemText item) texts items ∧
      readRow rules place attrs (sparseLine items) =
        (readItems rules place attrs [] texts).bind fun given =>
          fillSparse rules place given 0 attrs := by
  have hbraced : isBraced (sparseLine items) = true := by
    unfold isBraced sparseLine
    rw [List.getLast?_concat]
    rfl
  have hinner : (sparseLine items).tail.dropLast = joinWith [',', ' '] (items.map itemText) := by
    rw [sparseLine, List.cons_append, List.tail_cons, List.dropLast_concat]
  unfold readRow
  rw [if_pos hbraced, hinner]
  unfold readSparse
  cases items with
  | nil => exact ⟨[], .nil, rfl⟩
  | cons item items =>
    refine ⟨itemText item :: items.map fun other => ' ' :: itemText other, ?_, ?_⟩
    · refine .cons (solid_itemText item).strip_eq ?_
      rw [List.forall₂_map_left_iff, List.forall₂_same]
      intro other _
      rw [strip_cons_of_blank (by decide), (solid_itemText other).strip_eq]
    · have hsolid := solid_inner (List.cons_ne_nil item items)
      -- the blank behind a comma belongs to the item behind it
      have hjoin : joinWith [',', ' '] ((item :: items).map itemText) =
          joinWith [','] (itemText item :: items.map fun other => ' ' :: itemText other) := by
        rw [List.map_cons]
        have h := joinWith_append [','] [' '] (itemText item) (items.map itemText)
        rw [List.map_map] at h
        exact h
      have hpassed : ∀ text ∈ itemText item :: items.map fun other => ' ' :: itemText other,
          Passed text := by
        rw [List.forall_mem_cons]
        refine ⟨passed_itemText item, ?_⟩
        intro text htext
        obtain ⟨other, -, rfl⟩ := List.mem_map.1 htext
        exact (passed_singleton (by decide) (by decide)).append (passed_itemText other)
      rw [hsolid.strip_eq, if_neg hsolid.ne_nil, hjoin, sparseItems,
        sparseItemsFrom_joinWith (List.cons_ne_nil _ _) hpassed]
      simp only [bind, Except.bind]

/-! ### Filling -/

/-- The cell that a sparse row is filled with at a position. -/
def fillCell (rules : RowRules) (place : RowPlace) (given : List (Nat × Cell)) (i : Nat)
    (attr : Attribute) : Except FormatError Cell :=
  match given.lookup i with
  | some cell => .ok cell
  | none => match sparseDefault attr with
    | some value => resolveCell rules place attr ⟨value.toList, false⟩
    | none => .ok .missing

theorem fillSparse_cons (given : List (Nat × Cell)) (i : Nat) (attr : Attribute) :
    fillSparse rules place given i (attr :: attrs) = do
      let cell ← fillCell rules place given i attr
      let rest ← fillSparse rules place given (i + 1) attrs
      return cell :: rest := by
  rw [fillSparse, fillCell]
  cases given.lookup i with
  | some cell => rfl
  | none => cases sparseDefault attr <;> rfl

/-- A default is never outside the declared levels. -/
theorem declared_of_sparseDefault {attr : Attribute} {value : String}
    (h : sparseDefault attr = some value) : ¬(attr.kind = .nominal ∧ value ∉ attr.levels) := by
  rintro ⟨hkind, hmem⟩
  unfold sparseDefault at h
  rw [hkind] at h
  exact hmem (List.mem_of_head? h)

/-- A default is resolved to itself, or to a missing cell when it is the marker. -/
theorem resolveCell_default {attr : Attribute} {value : String}
    (h : sparseDefault attr = some value) :
    resolveCell rules place attr ⟨value.toList, false⟩ =
      .ok (if value = rules.missingMarker then .missing else .text value) := by
  unfold resolveCell
  simp only [String.ofList_toList, true_and, if_neg (declared_of_sparseDefault h)]
  split
  · rfl
  · rfl

/-- A default that is left out is resolved as it is when it is written, unless it is the marker. -/
theorem fillCell_of_omitted (hmarker : rules.missingMarker = "?") (place : RowPlace) {i : Nat}
    {attr : Attribute} (hitem : items.lookup i = none) {given : List (Nat × Cell)}
    (hgiven : given.lookup i = none) :
    ∃ cell, resolveCell rules place attr (denseCell items i attr) = .ok cell ∧
      fillCell rules place given i attr = .ok (markCell items i attr cell) ∧
      (TakesMarker items i attr → cell ≠ .missing) := by
  cases hdefault : sparseDefault attr with
  | none =>
    refine ⟨.missing, ?_, ?_, by simp [TakesMarker, hdefault]⟩
    · simp [denseCell, defaultCell, hitem, hdefault, resolveCell, hmarker]
    · simp [fillCell, hgiven, hdefault, markCell]
  | some value =>
    have hdeclared := declared_of_sparseDefault hdefault
    refine ⟨.text value, ?_, ?_, by simp⟩
    · simp [denseCell, defaultCell, hitem, hdefault, resolveCell, if_neg hdeclared]
    · simp only [fillCell, hgiven, hdefault, resolveCell, String.ofList_toList, hmarker, true_and,
        if_neg hdeclared, markCell, TakesMarker, hitem, Option.some.injEq]
      split
      · rfl
      · rfl

/-- The given cells are those of the items: each is resolved as its value is in the dense row. -/
structure GivenBy (rules : RowRules) (place : RowPlace) (attrs : List Attribute)
    (items : List Item) (given : List (Nat × Cell)) (i : Nat) : Prop where
  /-- What an item gives is given. -/
  resolved : ∀ j attr value, attrs[j]? = some attr → items.lookup (i + j) = some value →
    ∃ cell, given.lookup (i + j) = some cell ∧
      resolveCell rules place attr (valueCell value) = .ok cell
  /-- Nothing else is given. -/
  omitted : ∀ j, items.lookup (i + j) = none → given.lookup (i + j) = none

theorem GivenBy.tail {attr : Attribute} {given : List (Nat × Cell)} {i : Nat}
    (h : GivenBy rules place (attr :: attrs) items given i) :
    GivenBy rules place attrs items given (i + 1) where
  resolved := by
    intro j attr' value
    rw [Nat.add_right_comm i 1 j]
    exact h.resolved (j + 1) attr' value
  omitted := by
    intro j
    rw [Nat.add_right_comm i 1 j]
    exact h.omitted (j + 1)

/-- The first cell, as the one and as the other row has it. -/
theorem GivenBy.fillCell_eq (hmarker : rules.missingMarker = "?") {attr : Attribute}
    {given : List (Nat × Cell)} {i : Nat} (h : GivenBy rules place (attr :: attrs) items given i) :
    ∃ cell, resolveCell rules place attr (denseCell items i attr) = .ok cell ∧
      fillCell rules place given i attr = .ok (markCell items i attr cell) := by
  cases hitem : items.lookup i with
  | some value =>
    obtain ⟨cell, hcell, hresolve⟩ := h.resolved 0 attr value rfl hitem
    refine ⟨cell, ?_, ?_⟩
    · rw [denseCell, hitem]
      exact hresolve
    · rw [Nat.add_zero] at hcell
      simp [fillCell, hcell, markCell, TakesMarker, hitem]
  | none =>
    obtain ⟨cell, hresolve, hfill, -⟩ :=
      fillCell_of_omitted hmarker place hitem (h.omitted 0 hitem)
    exact ⟨cell, hresolve, hfill⟩

/-- Counting from the next position on. -/
theorem shift_next {α : Type} (f : Nat → α) (i : Nat) :
    (fun j => f (i + (j + 1))) = fun j => f (i + 1 + j) := by
  funext j
  rw [Nat.add_right_comm, Nat.add_assoc]

/-- When the items are resolved, the dense row is read, and the sparse row is filled to it, up to
    defaults that are the marker. -/
theorem GivenBy.fillSparse_eq (hmarker : rules.missingMarker = "?") {given : List (Nat × Cell)}
    {i : Nat} (h : GivenBy rules place attrs items given i) :
    ∃ row, resolveAll rules place attrs (attrs.mapIdx fun j => denseCell items (i + j)) = .ok row ∧
      fillSparse rules place given i attrs =
        .ok ((attrs.zip row).mapIdx fun j (attr, cell) => markCell items (i + j) attr cell) := by
  induction attrs generalizing i with
  | nil => exact ⟨[], rfl, rfl⟩
  | cons attr attrs ih =>
    obtain ⟨cell, hresolve, hfill⟩ := h.fillCell_eq hmarker
    obtain ⟨row, hdense, hsparse⟩ := ih h.tail
    refine ⟨cell :: row, ?_, ?_⟩
    · rw [List.mapIdx_cons, resolveAll, Nat.add_zero, hresolve, shift_next (denseCell items),
        hdense]
      rfl
    · rw [fillSparse_cons, hfill, hsparse, List.zip_cons_cons, List.mapIdx_cons,
        shift_next fun j (x : Attribute × Cell) => markCell items j x.1 x.2]
      rfl

/-! ### Rows that are refused -/

/-- Each value of a row that is read is resolved. -/
theorem getElem?_of_resolveAll {raws : List RawCell} {row : List Cell}
    (h : resolveAll rules place attrs raws = .ok row) {i : Nat} {attr : Attribute} {raw : RawCell}
    (hattr : attrs[i]? = some attr) (hraw : raws[i]? = some raw) :
    ∃ cell, row[i]? = some cell ∧ resolveCell rules place attr raw = .ok cell := by
  induction attrs generalizing raws row i with
  | nil => simp at hattr
  | cons a attrs ih =>
    cases raws with
    | nil => simp at hraw
    | cons r raws =>
      rw [resolveAll] at h
      obtain ⟨cell, hcell, h⟩ := bind_eq_ok_iff.1 h
      obtain ⟨rest, hrest, h⟩ := bind_eq_ok_iff.1 h
      obtain rfl := Except.ok.inj h
      cases i with
      | zero =>
        obtain rfl := Option.some.inj hattr
        obtain rfl := Option.some.inj hraw
        exact ⟨cell, rfl, hcell⟩
      | succ i => exact ih hrest hattr hraw

/-- The cells of items that are read are those that the dense row has at their positions. -/
theorem givenBy_of_readItems {texts : List (List Char)} {given : List (Nat × Cell)}
    (hlists : Lists attrs [] texts items)
    (h : readItems rules place attrs [] texts = .ok given) :
    GivenBy rules place attrs items given 0 := by
  obtain ⟨hcells, hothers⟩ := resolves_of_readItems hlists h
  refine ⟨?_, ?_⟩
  · intro j attr value hattr hvalue
    rw [Nat.zero_add] at hvalue ⊢
    obtain ⟨cell, hcell, -, attr', hattr', hresolve⟩ :=
      hcells (j, value) (mem_of_lookup hvalue)
    obtain rfl := Option.some.inj (hattr.symm.trans hattr')
    exact ⟨cell, hcell, hresolve⟩
  · intro j hnone
    rw [Nat.zero_add] at hnone ⊢
    apply hothers j
    intro hmem
    obtain ⟨item, hitem, rfl⟩ := List.mem_map.1 hmem
    rw [lookup_of_mem hlists.nodup hitem] at hnone
    cases hnone

/-- The dense row is read when every item of it is resolved. -/
theorem exists_resolves_of_dense (hnodup : (items.map Prod.fst).Nodup)
    (hdeclared : ∀ item ∈ items, item.1 < attrs.length) {row : List Cell}
    (h : resolveAll rules place attrs (attrs.mapIdx (denseCell items)) = .ok row) {item : Item}
    (hmem : item ∈ items) (hread : Readable item) :
    ∃ cell, Resolves rules place attrs item cell := by
  have hin : item.1 < attrs.length := hdeclared item hmem
  have hattr : attrs[item.1]? = some attrs[item.1] := List.getElem?_eq_getElem hin
  have hraw : (attrs.mapIdx (denseCell items))[item.1]? = some (valueCell item.2) := by
    rw [List.getElem?_mapIdx, hattr, Option.map_some, denseCell, lookup_of_mem hnodup hmem]
  obtain ⟨cell, -, hcell⟩ := getElem?_of_resolveAll h hattr hraw
  exact ⟨cell, hread, _, hattr, hcell⟩

/-! ### Sparse and dense rows compared -/

/-- **A sparse row is the dense row with its defaults**, up to defaults that are the marker. It is
    refused when the dense row is, or when a position has more digits than a numeral may have. -/
theorem readRow_sparse_eq (place : RowPlace) (hmarker : rules.missingMarker = "?")
    (hne : attrs ≠ []) (hnodup : (items.map Prod.fst).Nodup)
    (hdeclared : ∀ item ∈ items, item.1 < attrs.length) :
    (readRow rules place attrs (sparseLine items)).toOption =
      if ∀ item ∈ items, Readable item then
        (readRow rules place attrs (denseLine attrs items)).toOption.map (markOmitted items attrs)
      else none := by
  obtain ⟨texts, htexts, hsparse⟩ := readRow_sparseLine rules place attrs items
  have hlists : Lists attrs [] texts items := ⟨htexts, hnodup, hdeclared, by simp⟩
  rw [hsparse, readRow_denseLine hne]
  by_cases hall : ∀ item ∈ items, ∃ cell, Resolves rules place attrs item cell
  · have hread : ∀ item ∈ items, Readable item := by
      intro item hmem
      obtain ⟨cell, hread, -⟩ := hall item hmem
      exact hread
    obtain ⟨given, hgiven⟩ := exists_readItems hlists hall
    obtain ⟨row, hdense, hfill⟩ := (givenBy_of_readItems hlists hgiven).fillSparse_eq hmarker
    simp only [Nat.zero_add] at hdense hfill
    rw [if_pos hread, hgiven, hdense]
    show (fillSparse rules place given 0 attrs).toOption = _
    rw [hfill]
    rfl
  · have hrefused : ∃ e, readItems rules place attrs [] texts = .error e := by
      cases h : readItems rules place attrs [] texts with
      | error e => exact ⟨e, rfl⟩
      | ok given =>
        refine absurd ?_ hall
        intro item hmem
        obtain ⟨cell, -, hcell⟩ := (resolves_of_readItems hlists h).1 item hmem
        exact ⟨cell, hcell⟩
    obtain ⟨e, he⟩ := hrefused
    rw [he]
    show none = _
    split
    · next hread =>
      cases hdense : resolveAll rules place attrs (attrs.mapIdx (denseCell items)) with
      | error e => rfl
      | ok row =>
        refine absurd ?_ hall
        intro item hmem
        exact exists_resolves_of_dense hnodup hdeclared hdense hmem (hread item hmem)
    · rfl

/-- Marking changes a dense row exactly when a default that is left out is the marker. -/
theorem markOmitted_eq_self_iff (hmarker : rules.missingMarker = "?") {row : List Cell}
    (h : resolveAll rules place attrs (attrs.mapIdx (denseCell items)) = .ok row) :
    markOmitted items attrs row = row ↔
      ∀ i attr, attrs[i]? = some attr → ¬ TakesMarker items i attr := by
  have hlen : attrs.length = row.length := (fits_of_resolveAll (by simp) h).length_eq
  have hget : ∀ i attr cell, attrs[i]? = some attr → row[i]? = some cell →
      (markOmitted items attrs row)[i]? = some (markCell items i attr cell) := by
    intro i attr cell hattr hcell
    have hzip : (attrs.zip row)[i]? = some (attr, cell) :=
      List.getElem?_zip_eq_some.2 ⟨hattr, hcell⟩
    rw [markOmitted, List.getElem?_mapIdx, hzip]
    rfl
  constructor
  · intro hsame i attr hattr hmark
    have hraw : (attrs.mapIdx (denseCell items))[i]? = some (denseCell items i attr) := by
      rw [List.getElem?_mapIdx, hattr]
      rfl
    obtain ⟨cell, hcell, hresolve⟩ := getElem?_of_resolveAll h hattr hraw
    -- the value that is written out is no missing cell
    have hempty : ([] : List (Nat × Cell)).lookup i = none := rfl
    obtain ⟨cell', hresolve', -, hpresent⟩ := fillCell_of_omitted hmarker place hmark.1 hempty
    obtain rfl := Except.ok.inj (hresolve.symm.trans hresolve')
    have hmissing := hget i attr cell hattr hcell
    rw [hsame, hcell, markCell, if_pos hmark] at hmissing
    exact hpresent hmark (Option.some.inj hmissing)
  · intro hnone
    apply List.ext_getElem?
    intro i
    cases hattr : attrs[i]? with
    | none =>
      have hout : attrs.length ≤ i := List.getElem?_eq_none_iff.1 hattr
      rw [List.getElem?_eq_none, List.getElem?_eq_none]
      · omega
      · simp [markOmitted]
        omega
    | some attr =>
      have hin : i < row.length := hlen ▸ (List.getElem?_eq_some_iff.1 hattr).1
      have hcell : row[i]? = some row[i] := List.getElem?_eq_getElem hin
      rw [hget i attr _ hattr hcell, hcell, markCell, if_neg (hnone i attr hattr)]

end Rows

/-! ### Whole documents -/

theorem lines_append_line {text line : List Char} (h : DataLine line) :
    lines (text ++ '\n' :: line) = lines text ++ [line] := by
  unfold lines
  rw [splitOn_append_sep, splitOn_of_notMem h.newline, List.map_append, List.map_singleton,
    dropReturn_of_solid h.solid]

/-- A data line at the end of a document adds its row, or ends the reading. -/
theorem exists_read_append {options : Options} (hrule : options.badRow = .fail) {text : List Char}
    {t : ParsedTable} (h : read options text = .ok t) :
    ∃ place, ∀ line, DataLine line → read options (text ++ '\n' :: line) =
      (readRow options.toRowRules place t.attributes line).map fun row =>
        { t with rows := t.rows ++ [row] } := by
  obtain ⟨last, hlast, hfinish⟩ := bind_eq_ok_iff.1 h
  obtain ⟨hdata, hnames, rfl⟩ := Progress.finish_eq_ok_iff.1 hfinish
  refine ⟨⟨1 + (lines text).length, last.rowIndex⟩, fun line hline => ?_⟩
  rw [read, lines_append_line hline, Progress.steps_append, hlast]
  simp only [Except.bind, Progress.steps, Progress.step, hdata, if_true, Progress.dataStep,
    hline.kind, hline.solid.strip_eq, hrule]
  cases readRow options.toRowRules ⟨1 + (lines text).length, last.rowIndex⟩ last.attributes line
  with
  | error e => rfl
  | ok row =>
    have hfinish : Progress.finish options
        ⟨last.relation, last.attributes, true, row :: last.rows, last.skipped⟩ =
        .ok ⟨last.relation, last.attributes, last.rows.reverse ++ [row], last.skipped⟩ := by
      rw [Progress.finish_eq_ok_iff]
      exact ⟨rfl, hnames, by simp⟩
    exact hfinish

/-- **Sparse and dense rows agree, except where a default is the marker.** Behind a document that
    is read, the sparse line of some items gives the row of their dense line, in which an attribute
    that is left out is missing when its default is the marker. So the two lines agree exactly when
    the dense one is refused, or no default that is left out is the marker and every position can
    be read. -/
theorem read_sparse_eq_dense_iff {options : Options} (hmarker : options.missingMarker = "?")
    (hrule : options.badRow = .fail) {text : List Char} {t : ParsedTable}
    (h : read options text = .ok t) {items : List Item} (hnodup : (items.map Prod.fst).Nodup)
    (hdeclared : ∀ item ∈ items, item.1 < t.attributes.length) :
    let sparse := (read options (text ++ '\n' :: sparseLine items)).toOption
    let dense := (read options (text ++ '\n' :: denseLine t.attributes items)).toOption
    (sparse = if ∀ item ∈ items, Readable item then
        dense.map fun d => { d with rows := d.rows.modifyLast (markOmitted items t.attributes) }
      else none) ∧
    (sparse = dense ↔ dense = none ∨ (∀ item ∈ items, Readable item) ∧
      ∀ i attr, t.attributes[i]? = some attr → ¬ TakesMarker items i attr) := by
  intro sparse dense
  have hne : t.attributes ≠ [] := (wellFormed_of_read h).1.declared
  obtain ⟨place, hplace⟩ := exists_read_append hrule h
  have hrows := readRow_sparse_eq place hmarker hne hnodup hdeclared
  have hsparse : sparse =
      (readRow options.toRowRules place t.attributes (sparseLine items)).toOption.map
        fun row => { t with rows := t.rows ++ [row] } := by
    rw [← toOption_map, ← hplace _ (dataLine_sparseLine items)]
  have hdense : dense =
      (readRow options.toRowRules place t.attributes (denseLine t.attributes items)).toOption.map
        fun row => { t with rows := t.rows ++ [row] } := by
    rw [← toOption_map, ← hplace _ (dataLine_denseLine hne)]
  rw [hrows] at hsparse
  rw [hsparse, hdense, readRow_denseLine hne]
  cases hrow : resolveAll options.toRowRules place t.attributes
      (t.attributes.mapIdx (denseCell items)) with
  | error e => simp [Except.toOption]
  | ok row =>
    have hmark := markOmitted_eq_self_iff hmarker hrow
    simp only [Except.toOption, Option.map_some, List.modifyLast_concat]
    rw [← hmark]
    by_cases hread : ∀ item ∈ items, Readable item
    · rw [if_pos hread, if_pos hread]
      refine ⟨rfl, ?_⟩
      constructor
      · intro hsame
        exact .inr ⟨hread, by simpa using hsame⟩
      · intro hor
        rcases hor with hrefused | ⟨-, hsame⟩
        · cases hrefused
        · rw [hsame]
          rfl
    · rw [if_neg hread, if_neg hread]
      refine ⟨rfl, ?_⟩
      constructor
      · intro hsame
        cases hsame
      · intro hor
        rcases hor with hrefused | ⟨hall, -⟩
        · cases hrefused
        · exact absurd hall hread

/-- The first level is the marker: written out between quotes it is the level, left out it is a
    missing cell. -/
theorem sparse_ne_dense_of_marker_level :
    let text := "@attribute x numeric\n@attribute c \x7b?,v\x7d\n@data".toList
    let items : List Item := [(0, some "1")]
    ∃ t, read {} text = .ok t ∧ sparseLine items = "\x7b0 1\x7d".toList ∧
      denseLine t.attributes items = "1,'?'".toList ∧
      (read {} (text ++ '\n' :: sparseLine items)).toOption =
        some { t with rows := [[.text "1", .missing]] } ∧
      (read {} (text ++ '\n' :: denseLine t.attributes items)).toOption =
        some { t with rows := [[.text "1", .text "?"]] } ∧
      (read {} (text ++ '\n' :: sparseLine items)).toOption ≠
        (read {} (text ++ '\n' :: denseLine t.attributes items)).toOption := by
  intro text items
  let t : ParsedTable := {
    relation := "",
    attributes := [{ name := "x", kind := .numeric },
      { name := "c", kind := .nominal, levels := ["?", "v"] }],
    rows := [] }
  have hread : read {} text = .ok t := by decide +kernel
  have hdense : (read {} (text ++ '\n' :: denseLine t.attributes items)).toOption =
      some { t with rows := [[.text "1", .text "?"]] } := by decide +kernel
  obtain ⟨hsparse, hsame⟩ :=
    @read_sparse_eq_dense_iff {} rfl rfl text t hread items (by decide) (by decide)
  have hmark : TakesMarker items 1 { name := "c", kind := .nominal, levels := ["?", "v"] } := by
    decide
  refine ⟨t, hread, by decide +kernel, by decide +kernel, ?_, hdense, ?_⟩
  · rw [hsparse, hdense, if_pos (by decide)]
    decide +kernel
  · rw [Ne, hsame, hdense]
    intro hor
    rcases hor with hrefused | ⟨-, hnone⟩
    · exact absurd hrefused nofun
    · exact hnone 1 _ rfl hmark

end DatasetCatalog.Arff
