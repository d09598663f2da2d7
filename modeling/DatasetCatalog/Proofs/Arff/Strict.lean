import DatasetCatalog.Proofs.Arff.Skipped
import DatasetCatalog.Proofs.Arff.Sparse

/-! # Strict and lenient reading

  Strict reading refuses a value outside the declared levels, and lenient reading makes an unknown
  level of it. That is all that separates the two: a row is read strictly when it is read leniently
  and holds no unknown level. A document is read strictly when the same can be said of all of its
  rows, or, when malformed rows are left out, as if the rows with unknown levels were malformed.
-/

namespace DatasetCatalog.Arff

open Text

/-! ### Cells -/

section Rows

variable (rules : RowRules) (place : RowPlace) (attrs : List Attribute)

theorem screens_resolveCell (attr : Attribute) (raw : RawCell) :
    Screens (· ≠ .unknownLevel) (resolveCell { rules with strict := false } place attr raw)
      (resolveCell { rules with strict := true } place attr raw) := by
  intro cell
  unfold resolveCell
  simp only
  split_ifs
  all_goals
    constructor
    all_goals simp +contextual [eq_comm]

/-! ### Dense rows -/

theorem screens_resolveAll (attrs : List Attribute) (raws : List RawCell) :
    Screens (Cell.unknownLevel ∉ ·) (resolveAll { rules with strict := false } place attrs raws)
      (resolveAll { rules with strict := true } place attrs raws) := by
  fun_induction resolveAll { rules with strict := false } place attrs raws with
  | case1 attr attrs raw raws ih =>
    rw [resolveAll]
    apply (screens_resolveCell rules place attr raw).bind
    · intro cell _ hcell
      apply ih.bind
      -- a row is known when its first cell is and the others are
      · intro rest _ hrest
        exact .of_ok (by simp [hcell.symm, hrest])
      · intro rest row _ hrow hknown
        obtain rfl := Except.ok.inj hrow
        exact fun hmem => hknown (List.mem_cons_of_mem cell hmem)
    · intro cell row _ hrow hknown
      obtain ⟨rest, -, hrow⟩ := bind_eq_ok_iff.1 hrow
      obtain rfl := Except.ok.inj hrow
      rintro rfl
      exact hknown List.mem_cons_self
  | case2 attrs raws hnil =>
    rw [resolveAll.eq_2 _ _ _ _ hnil]
    exact .of_ok List.not_mem_nil

theorem screens_readDense (s : List Char) :
    Screens (Cell.unknownLevel ∉ ·) (readDense { rules with strict := false } place attrs s)
      (readDense { rules with strict := true } place attrs s) := by
  unfold readDense
  apply Screens.bind_left
  intro raws
  split_ifs
  · exact screens_resolveAll rules place attrs raws
  · exact .of_error _ _
  · exact .of_error _ _

/-! ### Sparse rows -/

theorem screens_readItem (given : List (Nat × Cell)) (item : List Char) :
    Screens (·.2 ≠ .unknownLevel)
      (readItem { rules with strict := false } place attrs given item)
      (readItem { rules with strict := true } place attrs given item) := by
  unfold readItem
  simp only [throw_bind_eq]
  -- both readers give an item up at the same check, until its value is resolved
  split
  · exact .of_error _ _
  split
  · simp only [pure_bind]
    split
    · exact .of_error _ _
    split
    · exact .of_error _ _
    · next attr _ =>
      split
      · exact .of_error _ _
      apply Screens.bind_left
      intro raws
      split
      · next raw =>
        apply (screens_resolveCell rules place attr raw).bind
        · exact fun cell _ hcell => .of_ok hcell
        · intro cell pair _ hpair hknown
          obtain rfl := Except.ok.inj hpair
          exact hknown
      · exact .of_error _ _
  · exact .of_error _ _

/-- None of the given cells is an unknown level. -/
def GivenKnown (attrs : List Attribute) (given : List (Nat × Cell)) : Prop :=
  ∀ i < attrs.length, given.lookup i ≠ some .unknownLevel

variable {rules place attrs}

/-- A given cell stays at its position. -/
theorem lookup_of_readItems {given all : List (Nat × Cell)} {items : List (List Char)}
    (h : readItems rules place attrs given items = .ok all) {i : Nat} {cell : Cell}
    (hi : given.lookup i = some cell) : all.lookup i = some cell := by
  induction items generalizing given with
  | nil =>
    obtain rfl := Except.ok.inj h
    exact hi
  | cons item items ih =>
    rw [readItems] at h
    obtain ⟨⟨j, other⟩, hitem, h⟩ := bind_eq_ok_iff.1 h
    obtain ⟨hnew, -⟩ := of_readItem hitem
    apply ih h
    rw [lookup_cons_of_ne _ other, hi]
    rintro rfl
    rw [hi] at hnew
    cases hnew

theorem GivenKnown.cons {given : List (Nat × Cell)} (h : GivenKnown attrs given)
    {pair : Nat × Cell} (hpair : pair.2 ≠ .unknownLevel) : GivenKnown attrs (pair :: given) := by
  intro i hi
  by_cases hsame : i = pair.1
  · subst hsame
    rw [List.lookup_cons_self]
    exact fun hcell => hpair (Option.some.inj hcell)
  · rw [lookup_cons_of_ne hsame]
    exact h i hi

theorem screens_readItems {given : List (Nat × Cell)} (hgiven : GivenKnown attrs given)
    (items : List (List Char)) :
    Screens (GivenKnown attrs) (readItems { rules with strict := false } place attrs given items)
      (readItems { rules with strict := true } place attrs given items) := by
  induction items generalizing given with
  | nil => exact .of_ok hgiven
  | cons item items ih =>
    rw [readItems, readItems]
    apply (screens_readItem rules place attrs given item).bind
    · intro pair _ hpair
      exact ih (hgiven.cons hpair)
    · rintro ⟨i, cell⟩ all hitem hall hknown hcell
      -- the cell is still there when all items are read, so it is known
      obtain ⟨-, attr, raw, hattr, -⟩ := of_readItem hitem
      have hlookup : all.lookup i = some cell :=
        lookup_of_readItems hall List.lookup_cons_self
      obtain ⟨hi, -⟩ := List.getElem?_eq_some_iff.1 hattr
      exact hknown i hi (hlookup.trans (congrArg some hcell))

/-- Strict reading fills a row with the same defaults. -/
theorem fillSparse_strict (given : List (Nat × Cell)) (i : Nat) (attrs : List Attribute)
    (strict strict' : Bool) :
    fillSparse { rules with strict := strict } place given i attrs =
      fillSparse { rules with strict := strict' } place given i attrs := by
  induction attrs generalizing i with
  | nil => rfl
  | cons attr attrs ih =>
    have hcell : fillCell { rules with strict := strict } place given i attr =
        fillCell { rules with strict := strict' } place given i attr := by
      unfold fillCell
      split
      · rfl
      split
      -- what a default is resolved to does not mention the strictness
      · next value hvalue => rw [resolveCell_default hvalue, resolveCell_default hvalue]
      · rfl
    rw [fillSparse_cons, fillSparse_cons, hcell, ih]

theorem unknown_fillCell {given : List (Nat × Cell)} {i : Nat} {attr : Attribute} {cell : Cell}
    (h : fillCell rules place given i attr = .ok cell) :
    cell = .unknownLevel ↔ given.lookup i = some .unknownLevel := by
  unfold fillCell at h
  split at h
  · next hgiven =>
    obtain rfl := Except.ok.inj h
    rw [hgiven, Option.some.injEq]
  · next hgiven =>
    have hcell : cell ≠ .unknownLevel := by
      split at h
      · next value hvalue =>
        rw [resolveCell_default hvalue] at h
        obtain rfl := Except.ok.inj h
        split
        all_goals exact nofun
      · obtain rfl := Except.ok.inj h
        exact nofun
    rw [hgiven]
    exact iff_of_false hcell nofun

/-- The unknown levels of a sparse row have been given. -/
theorem unknown_mem_fillSparse {given : List (Nat × Cell)} {i : Nat} {row : List Cell}
    (h : fillSparse rules place given i attrs = .ok row) :
    .unknownLevel ∈ row ↔ ∃ j < attrs.length, given.lookup (i + j) = some .unknownLevel := by
  induction attrs generalizing i row with
  | nil =>
    obtain rfl := Except.ok.inj h
    simp
  | cons attr attrs ih =>
    rw [fillSparse_cons] at h
    obtain ⟨cell, hcell, h⟩ := bind_eq_ok_iff.1 h
    obtain ⟨rest, hrest, h⟩ := bind_eq_ok_iff.1 h
    obtain rfl := Except.ok.inj h
    rw [List.mem_cons, eq_comm, unknown_fillCell hcell, ih hrest, List.length_cons,
      Nat.exists_lt_succ_left, Nat.add_zero]
    simp only [Nat.add_right_comm i 1, Nat.add_assoc, Nat.add_zero]

theorem known_fillSparse {given : List (Nat × Cell)} {row : List Cell}
    (h : fillSparse rules place given 0 attrs = .ok row) :
    .unknownLevel ∉ row ↔ GivenKnown attrs given := by
  rw [unknown_mem_fillSparse h]
  simp [GivenKnown]

variable (rules place attrs)

theorem screens_readSparse (inner : List Char) :
    Screens (Cell.unknownLevel ∉ ·) (readSparse { rules with strict := false } place attrs inner)
      (readSparse { rules with strict := true } place attrs inner) := by
  have hnil : GivenKnown attrs [] := fun _ _ => nofun
  have hfill : ∀ given, GivenKnown attrs given →
      Screens (Cell.unknownLevel ∉ ·)
        (fillSparse { rules with strict := false } place given 0 attrs)
        (fillSparse { rules with strict := true } place given 0 attrs) := fun given hgiven =>
    .of_eq (fillSparse_strict given 0 attrs true false) fun row hrow =>
      (known_fillSparse hrow).2 hgiven
  unfold readSparse
  split
  · exact hfill [] hnil
  · apply Screens.bind_left
    intro items
    apply (screens_readItems hnil items).bind
    · intro given _
      exact hfill given
    · intro given row _ hrow
      exact (known_fillSparse hrow).1

/-! ### Data lines -/

/-- **A row is read strictly when it is read leniently and holds no unknown level.** -/
theorem screens_readRow (s : List Char) :
    Screens (Cell.unknownLevel ∉ ·) (readRow { rules with strict := false } place attrs s)
      (readRow { rules with strict := true } place attrs s) := by
  unfold readRow
  split
  · exact screens_readSparse rules place attrs _
  · exact screens_readDense rules place attrs s

end Rows

/-! ### Runs over lines -/

namespace Progress

/-- The progress without the rows that hold an unknown level, which are counted as left out. -/
def withoutUnknown (p : Progress) : Progress :=
  { p with
    rows := p.rows.filter (Cell.unknownLevel ∉ ·)
    skipped := p.skipped + (p.rows.filter (Cell.unknownLevel ∈ ·)).length }

variable {options : Options} {p : Progress} {number : Nat} {line : List Char}
  {ls : List (List Char)}

theorem attributes_withoutUnknown : p.withoutUnknown.attributes = p.attributes :=
  rfl

/-- Rows that are left out count like those that are kept. -/
theorem rowIndex_withoutUnknown : p.withoutUnknown.rowIndex = p.rowIndex := by
  have hlen := List.length_eq_length_filter_add (l := p.rows) (Cell.unknownLevel ∈ ·)
  simp only [← decide_not] at hlen
  unfold rowIndex withoutUnknown
  simp only
  omega

theorem headerStep_withoutUnknown :
    p.withoutUnknown.headerStep { options with strict := true } number line =
      (p.headerStep { options with strict := false } number line).map withoutUnknown := by
  unfold headerStep
  split
  · rfl
  · rfl
  · exact map_bind_congr (g := id) (by cases readRelation _ _ <;> rfl) fun _ => rfl
  · apply map_bind_congr (g := id)
    · cases readAttribute number options.ordered _ <;> rfl
    · intro attr
      by_cases htwice : p.attributes.any (·.name = attr.name)
      all_goals
        simp only [withoutUnknown, id_eq, htwice]
        rfl
  · by_cases hnone : p.attributes = []
    all_goals
      simp only [withoutUnknown, hnone]
      rfl
  · rfl
  · by_cases hnone : p.attributes = []
    all_goals
      simp only [withoutUnknown, hnone]
      rfl

theorem withoutUnknown_cons_of_mem {row : List Cell} (h : .unknownLevel ∈ row) :
    withoutUnknown { p with rows := row :: p.rows } =
      { p.withoutUnknown with skipped := p.withoutUnknown.skipped + 1 } := by
  simp [withoutUnknown, h, Nat.add_assoc]

theorem withoutUnknown_cons_of_notMem {row : List Cell} (h : .unknownLevel ∉ row) :
    withoutUnknown { p with rows := row :: p.rows } =
      { p.withoutUnknown with rows := row :: p.withoutUnknown.rows } := by
  simp [withoutUnknown, h]

theorem withoutUnknown_skipped (k : Nat) :
    withoutUnknown { p with skipped := p.skipped + k } =
      { p.withoutUnknown with skipped := p.withoutUnknown.skipped + k } := by
  simp [withoutUnknown, Nat.add_right_comm]

/-- Strict reading leaves a row with an unknown level out. -/
theorem dataStep_withoutUnknown :
    p.withoutUnknown.dataStep { options with strict := true, badRow := .skip } number line =
      (p.dataStep { options with strict := false, badRow := .skip } number line).map
        withoutUnknown := by
  -- both readers see the row at the same place, since the rows left out are counted
  have hscreens := screens_readRow options.toRowRules ⟨number, p.rowIndex⟩ p.attributes
    (strip line)
  unfold dataStep
  rw [rowIndex_withoutUnknown, attributes_withoutUnknown]
  cases lineKind line with
  | row =>
    cases hlenient : readRow { options.toRowRules with strict := false } ⟨number, p.rowIndex⟩
        p.attributes (strip line) with
    | error e =>
      rw [hlenient] at hscreens
      obtain ⟨e', hstrict⟩ := hscreens.exists_error fun _ => nofun
      simp only [hstrict]
      exact congrArg Except.ok (withoutUnknown_skipped 1).symm
    | ok row =>
      by_cases hunknown : .unknownLevel ∈ row
      · obtain ⟨e', hstrict⟩ := hscreens.exists_error fun other hother hknown => by
          obtain rfl := Except.ok.inj (hlenient.symm.trans hother)
          exact hknown hunknown
        simp only [hstrict]
        exact congrArg Except.ok (withoutUnknown_cons_of_mem hunknown).symm
      · have hstrict := (hscreens row).2 ⟨hlenient, hunknown⟩
        simp only [hstrict]
        exact congrArg Except.ok (withoutUnknown_cons_of_notMem hunknown).symm
  | _ => rfl

theorem steps_withoutUnknown :
    p.withoutUnknown.steps { options with strict := true, badRow := .skip } number ls =
      (p.steps { options with strict := false, badRow := .skip } number ls).map
        withoutUnknown := by
  induction ls generalizing p number with
  | nil => rfl
  | cons line ls ih =>
    have hstep : p.withoutUnknown.step { options with strict := true, badRow := .skip } number
          line =
        (p.step { options with strict := false, badRow := .skip } number line).map
          withoutUnknown := by
      unfold step
      cases hp : p.inData with
      | true =>
        rw [if_pos rfl, if_pos (show p.withoutUnknown.inData = true from hp)]
        exact dataStep_withoutUnknown
      | false =>
        rw [if_neg Bool.false_ne_true,
          if_neg (show ¬p.withoutUnknown.inData = true by simpa [withoutUnknown] using hp)]
        exact headerStep_withoutUnknown
    exact map_bind_congr hstep fun next => ih

end Progress

/-! ### Whole documents -/

/-- The table without the rows that hold an unknown level, which are counted as left out. -/
def ParsedTable.withoutUnknown (t : ParsedTable) : ParsedTable :=
  { t with
    rows := t.rows.filter (Cell.unknownLevel ∉ ·)
    skipped := t.skipped + (t.rows.filter (Cell.unknownLevel ∈ ·)).length }

theorem Progress.finish_withoutUnknown {options : Options} {p : Progress} :
    p.withoutUnknown.finish { options with strict := true, badRow := .skip } =
      (p.finish { options with strict := false, badRow := .skip }).map
        ParsedTable.withoutUnknown := by
  have hundeclared : p.withoutUnknown.undeclared { options with strict := true, badRow := .skip } =
      p.undeclared { options with strict := false, badRow := .skip } := rfl
  unfold finish
  rw [hundeclared]
  cases hp : p.inData with
  | true =>
    rw [if_pos (show p.withoutUnknown.inData = true from hp)]
    cases p.undeclared _ with
    | nil => simp [withoutUnknown, ParsedTable.withoutUnknown, Except.map]
    | cons name names => rfl
  | false =>
    rw [if_neg (show ¬p.withoutUnknown.inData = true by simpa [withoutUnknown] using hp)]
    by_cases hnone : p.attributes = []
    all_goals
      simp only [withoutUnknown, hnone]
      rfl

/-- When malformed rows are left out, strict reading leaves the rows with unknown levels out. -/
theorem read_strict_skip (options : Options) (text : List Char) :
    read { options with strict := true, badRow := .skip } text =
      (read { options with strict := false, badRow := .skip } text).map (·.withoutUnknown) :=
  map_bind_congr (Progress.steps_withoutUnknown (p := {})) fun _ => Progress.finish_withoutUnknown

namespace ParsedTable

variable {t : ParsedTable}

theorem withoutUnknown_eq_self (h : ∀ row ∈ t.rows, .unknownLevel ∉ row) :
    t.withoutUnknown = t := by
  have hknown : t.rows.filter (Cell.unknownLevel ∉ ·) = t.rows :=
    List.filter_eq_self.2 (by simpa using h)
  have hunknown : t.rows.filter (Cell.unknownLevel ∈ ·) = [] :=
    List.filter_eq_nil_iff.2 (by simpa using h)
  rw [withoutUnknown, hknown, hunknown]
  rfl

/-- When nothing is counted as left out, no row has held an unknown level. -/
theorem of_withoutUnknown (h : t.withoutUnknown.skipped = 0) :
    t.withoutUnknown = t ∧ t.skipped = 0 ∧ ∀ row ∈ t.rows, .unknownLevel ∉ row := by
  obtain ⟨hskipped, hlen⟩ := Nat.add_eq_zero_iff.1 h
  have hknown : ∀ row ∈ t.rows, .unknownLevel ∉ row := by
    simpa using List.filter_eq_nil_iff.1 (List.length_eq_zero_iff.1 hlen)
  exact ⟨withoutUnknown_eq_self hknown, hskipped, hknown⟩

end ParsedTable

/-- **Strict reading is lenient reading without unknown levels.** When a malformed row ends the
    reading, the strict reader gives exactly the tables of the lenient one in which no row holds an
    unknown level. When malformed rows are left out, the two fail alike, or the strict table is the
    lenient one without the rows that hold an unknown level, and these are counted as left out. -/
theorem read_strict (options : Options) (text : List Char) :
    (∀ t, read { options with strict := true, badRow := .fail } text = .ok t ↔
      read { options with strict := false, badRow := .fail } text = .ok t ∧
        ∀ row ∈ t.rows, .unknownLevel ∉ row) ∧
    read { options with strict := true, badRow := .skip } text =
      (read { options with strict := false, badRow := .skip } text).map (·.withoutUnknown) := by
  refine ⟨fun t => ?_, read_strict_skip options text⟩
  have hstrict := @read_fail_eq_ok_iff { options with strict := true } text t
  have hlenient := @read_fail_eq_ok_iff { options with strict := false } text t
  -- what ends the reading is what would be left out, so both rules tell of one run
  refine hstrict.trans (.trans ?_ (and_congr_left' hlenient.symm))
  rw [read_strict_skip, map_eq_ok_iff]
  constructor
  · rintro ⟨⟨t', hread, rfl⟩, hskipped⟩
    obtain ⟨hsame, hnone, hknown⟩ := ParsedTable.of_withoutUnknown hskipped
    rw [hsame]
    exact ⟨⟨hread, hnone⟩, hknown⟩
  · rintro ⟨⟨hread, hskipped⟩, hknown⟩
    exact ⟨⟨t, hread, ParsedTable.withoutUnknown_eq_self hknown⟩, hskipped⟩

/-- Of the five data lines of this document two hold an unknown level, a dense and a sparse one, and
    the last has a value too few. The strict reader leaves out all three, and refuses the document
    when malformed rows are not left out, even without the last line. -/
theorem read_strict_two_unknown :
    let text := "@attribute c \x7ba,b\x7d\n@attribute x numeric\n@data\n".toList
    let rows := "a,1\nz,2\n\x7b0 z,1 3\x7d\n\x7b1 4\x7d".toList
    ∃ t, read { strict := false, badRow := .skip } (text ++ rows ++ "\nb".toList) = .ok t ∧
      t.rows = [[.text "a", .text "1"], [.unknownLevel, .text "2"], [.unknownLevel, .text "3"],
        [.text "a", .text "4"]] ∧ t.skipped = 1 ∧
      read { badRow := .skip } (text ++ rows ++ "\nb".toList) =
        .ok { t with rows := [[.text "a", .text "1"], [.text "a", .text "4"]], skipped := 3 } ∧
      read { strict := false } (text ++ rows) = .ok { t with skipped := 0 } ∧
      read {} (text ++ rows) ≠ .ok { t with skipped := 0 } := by
  intro text rows
  let t : ParsedTable := {
    relation := ""
    attributes := [
      { name := "c", kind := .nominal, levels := ["a", "b"] }, { name := "x", kind := .numeric }]
    rows := [[.text "a", .text "1"], [.unknownLevel, .text "2"], [.unknownLevel, .text "3"],
      [.text "a", .text "4"]]
    skipped := 1 }
  have hskip : read { strict := false, badRow := .skip } (text ++ rows ++ "\nb".toList) =
      .ok t := by
    decide +kernel
  have hfail : read { strict := false } (text ++ rows) = .ok { t with skipped := 0 } := by
    decide +kernel
  obtain ⟨-, hstrict⟩ := read_strict {} (text ++ rows ++ "\nb".toList)
  obtain ⟨hiff, -⟩ := read_strict {} (text ++ rows)
  refine ⟨t, hskip, rfl, rfl, ?_, hfail, ?_⟩
  · rw [hskip] at hstrict
    exact hstrict
  · intro h
    obtain ⟨-, hknown⟩ := (hiff _).1 h
    exact hknown [.unknownLevel, .text "2"] (by simp [t]) List.mem_cons_self

end DatasetCatalog.Arff
