import DatasetCatalog.Proofs.Coercion.Total

/-! # What a coerced column means

  Whatever type a column is given, its slots stand for the cells they come from. A present slot
  holds the double, the integer, the text or the level of the text of its cell; a missing one
  holds a filler. What is missing is told by the cell and by whether the column holds numbers, since
  a text that says "not a number" is no number; it is an ordinary text elsewhere.
-/

namespace DatasetCatalog

open Arff

/-! ### Tables that were read -/

/-- The table was read from a document, given as text or as bytes. -/
def Arff.ParsedTable.IsRead (p : ParsedTable) : Prop :=
  ∃ options, (∃ text, read options text = .ok p) ∨ ∃ bytes, readBytes options bytes = .ok p

theorem Arff.ParsedTable.IsRead.wellFormed {p : ParsedTable} (h : p.IsRead) :
    ∃ strict, p.WellFormed strict := by
  obtain ⟨options, ⟨text, hread⟩ | ⟨bytes, hread⟩⟩ := h
  · exact ⟨_, (wellFormed_of_read hread).1⟩
  · unfold readBytes at hread
    split at hread
    · exact absurd hread nofun
    · exact ⟨_, (wellFormed_of_read hread).1⟩

namespace Coercion

open Packing

/-! ### Levels that differ -/

theorem nodup_textLevels {attr : Attribute} (h : attr.levels.Nodup) (cells : List Cell) :
    (textLevels attr cells).Nodup := by
  unfold textLevels
  split
  · exact h
  · exact (List.mergeSort_perm _ _).nodup_iff.2 (nodup_dedupBy fun s _ => beq_self_eq_true s).1

/-! ### What a text stands for -/

/-- The double that a text stands for is the one it is read as. -/
def StandsForReal (s : String) (x : Binary64) : Prop :=
  Binary64.ofText? s.toList = some x ∧ x.isNaN = false

/-- The stored integer that a text stands for is the one it is read as, or else the double that it
    is read as, when this is an integer. -/
def StandsForCount (s : String) (n : Int) : Prop :=
  fitsInt64 n = true ∧ match Numeral.integer s.toList with
    | .ok m => n = m
    | .error _ => ∃ x, Binary64.ofText? s.toList = some x ∧ x.toInt? = some n

/-- The label of a text: the text itself, or its number, written plainly. -/
def labelOf? (numeric : Bool) (s : String) : Option String :=
  if numeric then (numberOf? s).map Number.plain else some s

/-- The code that a text stands for is a position of its label in the levels. -/
def StandsForLevel (numeric : Bool) (levels : List String) (s : String) (code : Int) : Prop :=
  (0 ≤ code ∧ code < levels.length) ∧
    ∃ label, labelOf? numeric s = some label ∧ Column.labelAt levels code = label

/-- The slots of a column hold what the texts of its cells stand for. -/
structure Slots {α : Type} (stands : String → α → Prop) (filler : α) (cells : List Cell)
    (missing : List Bool) (xs : List α) : Prop where
  /-- There is a slot for each cell. -/
  length : xs.length = cells.length
  /-- A present slot holds what the text of its cell stands for. -/
  present : ∀ (i : Nat) x, xs[i]? = some x → missing[i]? = some false →
    ∃ s, cells[i]? = some (Cell.text s) ∧ stands s x
  /-- A missing slot holds the filler. -/
  filled : ∀ (i : Nat) x, xs[i]? = some x → missing[i]? = some true → x = filler

/-! ### What a column means -/

/-- A text that says "not a number" is missing from the column. -/
def hidesNaN (numeric : Bool) : Values → Bool
  | .continuous _ | .count _ => true
  | .finite _ _ _ => numeric
  | .textual _ => false

/-- The cell has no value, or none that the column can hold. -/
def isAbsent (hidden : Bool) : Cell → Bool
  | .text s => hidden && isNaNText s
  | .missing | .unknownLevel => true

/-- The values stand for the cells, in the way of their type. -/
def ValuesMean (numeric : Bool) (attr : Attribute) (cells : List Cell) (missing : List Bool) :
    Values → Prop
  | .continuous xs => Slots StandsForReal (.zero false) cells missing xs
  | .count ns => Slots StandsForCount 0 cells missing ns
  | .finite _ levels codes =>
    levels = (if numeric then numericLevels cells else textLevels attr cells) ∧ levels.Nodup ∧
      Slots (StandsForLevel numeric levels) 0 cells missing codes
  | .textual texts => Slots (fun s t => t = s) "" cells missing texts

/-- The column means the cells below the attribute. Its levels are those of numbers when `numeric`
    says so. -/
structure Means (numeric : Bool) (attr : Attribute) (cells : List Cell) (c : Column) : Prop where
  /-- It has the name of the attribute. -/
  name : c.name = attr.name
  /-- Exactly the cells are missing that have no value in the column. -/
  missing : c.missing = cells.map (isAbsent (hidesNaN numeric c.values))
  /-- Its values stand for the cells. -/
  values : ValuesMean numeric attr cells c.missing c.values
  /-- Only columns of a finite type have levels. -/
  levels : c.scitype.isFinite = false → c.levels = []

section Columns

variable {α : Type} {P : Packing α} {attr : Attribute} {cells : List Cell} {c : Column}
  {convert : String → Except CoercionFault (Option α)} {numeric : Bool}

theorem slots_of_holds {vs : List (Option α)} (hvs : List.Forall₂ (Converts convert) cells vs)
    (h : P.Holds c vs) {stands : String → α → Prop}
    (hstands : ∀ s a, convert s = .ok (some a) → stands s a) :
    Slots stands P.filler cells c.missing (vs.map (·.getD P.filler)) := by
  rw [h.missing]
  refine ⟨by rw [List.length_map, hvs.length_eq], ?_, ?_⟩
  -- value and bit of a slot are made of one optional value, which stands beside the cell
  · intro i x hx hpresent
    rw [List.getElem?_map, Option.map_eq_some_iff] at hx hpresent
    obtain ⟨v, hv, rfl⟩ := hx
    obtain ⟨w, hw, hsome⟩ := hpresent
    obtain rfl := Option.some.inj (hv.symm.trans hw)
    obtain ⟨a, rfl⟩ := Option.isSome_iff_exists.1 (Option.isNone_eq_false_iff.1 hsome)
    obtain ⟨cell, hcell, hconverts⟩ := exists_getElem?_of_forall₂ hvs hv
    cases cell with
    | missing | unknownLevel => exact absurd hconverts nofun
    | text s => exact ⟨s, hcell, hstands s a hconverts⟩
  · intro i x hx hmissing
    rw [List.getElem?_map, Option.map_eq_some_iff] at hx hmissing
    obtain ⟨v, hv, rfl⟩ := hx
    obtain ⟨w, hw, hnone⟩ := hmissing
    obtain rfl := Option.some.inj (hv.symm.trans hw)
    obtain rfl := Option.isNone_iff_eq_none.1 hnone
    rfl

theorem missing_of_holds {vs : List (Option α)} (hvs : List.Forall₂ (Converts convert) cells vs)
    (h : P.Holds c vs) {hidden : Bool} (hhidden : ∀ s v, Cell.text s ∈ cells →
      convert s = .ok v → v.isNone = (hidden && isNaNText s)) :
    c.missing = cells.map (isAbsent hidden) := by
  rw [h.missing]
  clear h
  -- cell by cell, since a text has to be one of the column
  induction hvs with
  | nil => rfl
  | @cons cell v cells vs hcell _ ih =>
    rw [List.map_cons, List.map_cons,
      ih fun s w hs => hhidden s w (List.mem_cons_of_mem cell hs)]
    congr 1
    cases cell with
    | missing | unknownLevel =>
      obtain rfl : v = none := hcell
      rfl
    | text s => exact hhidden s v List.mem_cons_self hcell

/-- A column means its cells when the conversion of a text is what the text stands for, or nothing
    where the text is hidden. -/
theorem means_of_column (hidden : Bool) (stands : String → α → Prop)
    (h : P.column attr convert cells = .ok c)
    (hhides : ∀ xs, hidesNaN numeric (P.values xs) = hidden)
    (hhidden : ∀ s v, Cell.text s ∈ cells → convert s = .ok v →
      v.isNone = (hidden && isNaNText s))
    (hstands : ∀ s a, convert s = .ok (some a) → stands s a)
    (hvalues : ∀ xs, Slots stands P.filler cells c.missing xs →
      ValuesMean numeric attr cells c.missing (P.values xs)) :
    Means numeric attr cells c := by
  obtain ⟨vs, hvs, hname, hholds⟩ := column_eq_ok_iff.1 h
  refine ⟨hname, ?_, ?_, ?_⟩
  · rw [hholds.values, hhides]
    exact missing_of_holds hvs hholds hhidden
  · rw [hholds.values]
    exact hvalues _ (slots_of_holds hvs hholds hstands)
  · unfold Column.scitype Column.levels
    cases c.values with
    | finite ordered levels codes => cases ordered <;> exact nofun
    | _ => exact fun _ => rfl

/-! ### The builders -/

theorem means_of_reals (h : reals.column attr toReal cells = .ok c) :
    Means numeric attr cells c := by
  refine means_of_column true StandsForReal h (fun _ => rfl) ?_ ?_ fun _ => id
  · exact fun s v _ hv => isNone_of_toReal hv
  · exact fun s x hx => realOf?_eq_some_iff.1 (realOf?_of_toReal hx)

theorem means_of_counts (h : counts.column attr toCount cells = .ok c) :
    Means numeric attr cells c := by
  refine means_of_column true StandsForCount h (fun _ => rfl) ?_ ?_ fun _ => id
  · exact fun s v _ hv => isNone_of_toCount hv
  · intro s n hn
    obtain ⟨hwhole, hfits⟩ := wholeOf?_of_toCount hn
    refine ⟨hfits, ?_⟩
    unfold wholeOf? at hwhole
    cases hinteger : Numeral.integer s.toList with
    | ok m =>
      rw [hinteger] at hwhole
      exact (Option.some.inj hwhole).symm
    | error e =>
      rw [hinteger] at hwhole
      obtain ⟨x, hx, hint⟩ := Option.bind_eq_some_iff.1 hwhole
      exact ⟨x, (realOf?_eq_some_iff.1 hx).1, hint⟩

theorem means_of_texts (h : texts.column attr (fun s => .ok (some s)) cells = .ok c) :
    Means numeric attr cells c := by
  refine means_of_column false (fun s t => t = s) h (fun _ => rfl) ?_ ?_ fun _ => id
  · intro s v _ hv
    obtain rfl := Except.ok.inj hv
    rfl
  · intro s t ht
    exact (Option.some.inj (Except.ok.inj ht)).symm

theorem means_of_labels {ordered : Bool} (hattr : attr.levels.Nodup)
    (h : (codes ordered (textLevels attr cells)).column attr (toCode (textLevels attr cells))
      cells = .ok c) : Means false attr cells c := by
  refine means_of_column false (StandsForLevel false (textLevels attr cells)) h (fun _ => rfl) ?_ ?_
    fun _ hslots => ⟨rfl, nodup_textLevels hattr cells, hslots⟩
  · intro s v _ hv
    obtain ⟨code, rfl, -⟩ := toCode_eq_ok_iff.1 hv
    rfl
  · intro s code hcode
    obtain ⟨code', hsame, hcode⟩ := toCode_eq_ok_iff.1 hcode
    obtain rfl := Option.some.inj hsame
    obtain ⟨hrange, hlabel⟩ := codeOf?_spec hcode
    exact ⟨hrange, s, rfl, hlabel⟩

/-- A text is converted to nothing where it has no numeric label, and to the code of its label
    otherwise. -/
theorem toNumericCode_eq_ok {levels : List String} {s : String} {v : Option Int}
    (h : toNumericCode levels s = .ok v) :
    (numericLabel? s = none ∧ v = none) ∨ ∃ code label, numericLabel? s = some label ∧
      v = some code ∧ codeOf? levels label = some code := by
  unfold toNumericCode at h
  split at h
  · next hnone => exact .inl ⟨hnone, (Except.ok.inj h).symm⟩
  · next label hlabel =>
    obtain ⟨code, hv, hcode⟩ := toCode_eq_ok_iff.1 h
    exact .inr ⟨code, label, hlabel, hv, hcode⟩

theorem means_of_numbers {ordered : Bool}
    (hall : ∀ s ∈ presentTexts cells, ∃ x, realOf? s = some x)
    (h : (codes ordered (numericLevels cells)).column attr (toNumericCode (numericLevels cells))
      cells = .ok c) : Means true attr cells c := by
  refine means_of_column true (StandsForLevel true (numericLevels cells)) h (fun _ => rfl) ?_ ?_
    fun _ hslots => ⟨rfl, nodup_numericLevels cells, hslots⟩
  · intro s v hs hv
    -- every text but those that say "not a number" is one, so it has a label
    have hlabel : (numericLabel? s).isNone = isNaNText s := by
      unfold numericLabel?
      cases hnan : isNaNText s with
      | true => rfl
      | false =>
        obtain ⟨x, hx⟩ := hall s (mem_presentTexts.2 ⟨hs, hnan⟩)
        obtain ⟨y, hy⟩ := exists_numberOf? hx
        simp [hy]
    rw [Bool.true_and, ← hlabel]
    obtain ⟨hnone, rfl⟩ | ⟨code, label, hsome, rfl, -⟩ := toNumericCode_eq_ok hv
    · rw [hnone]
      rfl
    · rw [hsome]
      rfl
  · intro s code hcode
    obtain ⟨-, hnone⟩ | ⟨code', label, hlabel, hsame, hcode⟩ := toNumericCode_eq_ok hcode
    · exact absurd hnone nofun
    · obtain rfl := Option.some.inj hsame
      obtain ⟨hrange, hat⟩ := codeOf?_spec hcode
      refine ⟨hrange, label, ?_, hat⟩
      unfold numericLabel? at hlabel
      split at hlabel
      · exact absurd hlabel nofun
      · exact hlabel

/-- **Whatever a builder builds means the cells.** -/
theorem means_of_build {type : Scitype} (hattr : numeric = false → attr.levels.Nodup)
    (hall : numeric = true → ∀ s ∈ presentTexts cells, ∃ x, realOf? s = some x)
    (h : build attr cells type numeric = .ok c) :
    c.scitype = type ∧ Means numeric attr cells c := by
  have hfinite : ∀ ordered, build attr cells (.finite ordered) numeric = .ok c →
      c.scitype = .finite ordered ∧ Means numeric attr cells c := by
    intro ordered h
    cases numeric with
    | true =>
      rw [build_finite_numbers] at h
      exact ⟨scitype_of_column (fun _ => rfl) h, means_of_numbers (hall rfl) h⟩
    | false =>
      rw [build_finite_texts] at h
      exact ⟨scitype_of_column (fun _ => rfl) h, means_of_labels (hattr rfl) h⟩
  cases type with
  | continuous => exact ⟨scitype_of_column (P := reals) (fun _ => rfl) h, means_of_reals h⟩
  | count => exact ⟨scitype_of_column (P := counts) (fun _ => rfl) h, means_of_counts h⟩
  | multiclass => exact hfinite false h
  | orderedFactor => exact hfinite true h
  | textual => exact ⟨scitype_of_column (P := texts) (fun _ => rfl) h, means_of_texts h⟩

/-! ### The type of a column -/

/-- The type of a column: the one that is forced on it, the declared one, or the one that the policy
    chooses. -/
def chosenType (settings : Settings) (attr : Attribute) (cells : List Cell) : Scitype :=
  match settings.forced.lookup attr.name with
  | some type => type
  | none =>
    if settings.mode = .strict ∨ (profile attr cells).present = 0 then declaredType attr
    else settings.policy (profile attr cells)

/-- The levels of a column, if it has some, are numbers: it holds numbers only, and its type was
    chosen by the policy, or forced on an attribute that is not nominal. -/
def numericSource (settings : Settings) (attr : Attribute) (cells : List Cell) : Bool :=
  (profile attr cells).allNumeric && match settings.forced.lookup attr.name with
    | some _ => decide (attr.kind ≠ .nominal)
    | none => decide (settings.mode = .auto)

theorem coerceColumn_eq_build (settings : Settings) (attr : Attribute) (cells : List Cell) :
    coerceColumn settings attr cells =
      build attr cells (chosenType settings attr cells) (numericSource settings attr cells) := by
  unfold coerceColumn chosenType numericSource
  cases settings.forced.lookup attr.name with
  | some type =>
    simp only
    rw [Bool.and_comm]
  | none =>
    simp only
    split
    · next hdeclared =>
      -- without present values the column does not hold numbers, whatever the mode
      have hnumeric : ((profile attr cells).allNumeric && decide (settings.mode = .auto)) =
          false := by
        rw [Bool.and_eq_false_iff]
        rcases hdeclared with hstrict | habsent
        · exact .inr (by rw [hstrict]; rfl)
        · left
          rw [← Bool.not_eq_true, allNumeric_eq_true_iff]
          exact fun h => h.1 (List.length_eq_zero_iff.1 habsent)
      rw [hnumeric]
    · next hauto =>
      have hmode : settings.mode = .auto := by
        cases hmode : settings.mode with
        | strict => exact absurd (.inl hmode) hauto
        | auto => rfl
      rw [hmode, decide_eq_true rfl, Bool.and_true]

theorem means_of_coerceColumn {settings : Settings} (hattr : attr.levels.Nodup)
    (h : coerceColumn settings attr cells = .ok c) :
    c.scitype = chosenType settings attr cells ∧
      Means (numericSource settings attr cells) attr cells c := by
  rw [coerceColumn_eq_build] at h
  refine means_of_build (fun _ => hattr) (fun hnumeric => ?_) h
  have hall := (Bool.and_eq_true_iff.1 hnumeric).1
  exact (allNumeric_eq_true_iff.1 hall).2

end Columns

/-! ### Whole tables -/

/-- **What a coerced table means.** In every mode, under every policy and with any types forced, a
    table that was read is coerced, if it is at all, to one with the names of the attributes and
    as many rows; each column has the type chosen for it, and means the cells below its
    attribute. -/
theorem means_of_coerce {p : ParsedTable} (hread : p.IsRead) {settings : Settings} {t : Table}
    (h : coerce settings p = .ok t) :
    t.names = p.names ∧ t.rowCount = p.rows.length ∧
      ∀ j attr, p.attributes[j]? = some attr → ∃ cells c, p.column? j = some cells ∧
        cells.length = p.rows.length ∧ t.columns[j]? = some c ∧
        c.scitype = chosenType settings attr cells ∧
        Means (numericSource settings attr cells) attr cells c := by
  obtain ⟨strict, hwf⟩ := hread.wellFormed
  obtain ⟨columns, hcolumns, ht⟩ := exists_columns_of_coerce h
  obtain ⟨rfl, -, hlengths⟩ := Table.ofColumns_spec ht
  have hbeside := coerceColumns_eq_ok_iff.1 hcolumns
  -- the column at a position is built from the cells at that position of the rows
  have hcolumn : ∀ j attr, p.attributes[j]? = some attr → ∃ cells c, p.column? j = some cells ∧
      cells.length = p.rows.length ∧ t.columns[j]? = some c ∧
      coerceColumn settings attr cells = .ok c := by
    intro j attr hattr
    obtain ⟨cells', hcells', hlength, -⟩ := exists_column? hwf hattr
    have hzip : p.attributes.zipIdx[j]? = some (attr, j) := by
      rw [List.getElem?_zipIdx, hattr, Nat.zero_add]
      rfl
    obtain ⟨c, hc, cells, hcells, hcoerce⟩ := exists_getElem?_of_forall₂ hbeside.flip hzip
    obtain rfl := Option.some.inj (hcells'.symm.trans hcells)
    exact ⟨cells', c, hcells, hlength, hc, hcoerce⟩
  refine ⟨map_name_eq (hbeside.imp fun _ _ ⟨_, _, hc⟩ => (name_length_of_coerceColumn hc).1),
    ?_, ?_⟩
  · -- the table has as many rows as its first column
    obtain ⟨cells, c, -, hlength, hc, hcoerce⟩ := hcolumn 0 (p.attributes.head hwf.declared) (by
      rw [← List.head?_eq_getElem?, List.head?_eq_some_head])
    rw [← hlengths c (List.mem_of_getElem? hc), (name_length_of_coerceColumn hcoerce).2, hlength]
  · intro j attr hattr
    obtain ⟨cells, c, hcells, hlength, hc, hcoerce⟩ := hcolumn j attr hattr
    have hlevels := (hwf.attributes attr (List.mem_of_getElem? hattr)).levels_nodup
    exact ⟨cells, c, hcells, hlength, hc, means_of_coerceColumn hlevels hcoerce⟩

/-- A nominal attribute whose levels are equal numbers, a column of numbers that is forced to be one
    of counts, and one of texts that are numbers, which is forced to be one of levels. Of the
    texts that say "not a number" each counts as missing here. -/
theorem means_of_coerce_odd_cells :
    let settings : Settings :=
      { mode := .auto, forced := [("a", .count), ("s", .multiclass)] }
    ∃ p t, p.IsRead ∧ coerce settings p = .ok t ∧ t.names = ["n", "a", "s"] ∧ t.rowCount = 3 ∧
      t.columns.map (fun c => (c.scitype, c.missing, c.levels)) =
        [(.orderedFactor, [false, true, false], ["1"]), (.count, [false, true, false], []),
          (.multiclass, [true, false, false], ["0.5"])] ∧
      ∃ cells c, p.column? 2 = some cells ∧ t.columns[2]? = some c ∧
        Means true { name := "s", kind := .string } cells c := by
  intro settings
  let p : ParsedTable :=
    { relation := ""
      attributes := [{ name := "n", kind := .nominal, levels := ["1", "1.0", "nan"] },
        { name := "a", kind := .numeric }, { name := "s", kind := .string }]
      rows := [[.text "1", .text "1e3", .text "NaN"],
        [.unknownLevel, .text "nan", .text "0.50"], [.text "1.0", .text "7", .text "5e-1"]] }
  have hread : read { strict := false } ("@attribute n \x7b1,'1.0',nan\x7d\n" ++
      "@attribute a numeric\n@attribute s string\n@data\n" ++
      "1,1e3,NaN\n2, nan ,'0.50'\n'1.0',7,5e-1\n").toList = .ok p := by
    decide +kernel
  have hp : p.IsRead := ⟨_, .inl ⟨_, hread⟩⟩
  obtain ⟨t, ht⟩ : ∃ t, coerce settings p = .ok t := exists_eq_ok (by decide +kernel)
  have hshown : (coerce settings p).toOption.map (fun t =>
      t.columns.map fun c => (c.scitype, c.missing, c.levels)) =
        some [(.orderedFactor, [false, true, false], ["1"]), (.count, [false, true, false], []),
          (.multiclass, [true, false, false], ["0.5"])] := by
    decide +kernel
  rw [ht] at hshown
  obtain ⟨hnames, hrows, hcolumns⟩ := means_of_coerce hp ht
  obtain ⟨cells, c, hcells, -, hc, -, hmeans⟩ := hcolumns 2 _ rfl
  have hnumeric : numericSource settings { name := "s", kind := .string } cells = true := by
    obtain rfl := Option.some.inj hcells
    decide +kernel
  rw [hnumeric] at hmeans
  exact ⟨p, t, hp, ht, hnames, hrows, Option.some.inj hshown, cells, c, hcells, hc, hmeans⟩

end Coercion

end DatasetCatalog
