import DatasetCatalog.Proofs.Arff.RoundTrip
import DatasetCatalog.Proofs.Except

/-! # What reading accepts

  Whatever document is read, dense or sparse, the table is well formed and orders the attributes
  it was told to order. The part of this that concerns the lines read so far is an invariant of
  the reader: each line keeps it, so it holds at the end.
-/

namespace DatasetCatalog.Arff

open Text

/-! ### Rows -/

section Rows

variable {rules : RowRules} {place : RowPlace} {attrs : List Attribute}

theorem fits_of_resolveCell {attr : Attribute} {raw : RawCell} {c : Cell}
    (h : resolveCell rules place attr raw = .ok c) : c.Fits rules.strict attr := by
  unfold resolveCell at h
  simp only at h
  split at h
  -- the bare marker stands for a missing cell, which fits anywhere
  · obtain rfl := Except.ok.inj h
    trivial
  · split at h
    · next hlevel =>
      split at h
      · exact absurd h (by simp)
      · next hstrict =>
        obtain rfl := Except.ok.inj h
        exact ⟨by simpa using hstrict, hlevel.1⟩
    · next hlevel =>
      obtain rfl := Except.ok.inj h
      intro hkind
      by_contra hmem
      exact hlevel ⟨hkind, hmem⟩

theorem fits_of_resolveAll {raws : List RawCell} {row : List Cell}
    (hlen : raws.length = attrs.length) (h : resolveAll rules place attrs raws = .ok row) :
    List.Forall₂ (Cell.Fits rules.strict) attrs row := by
  induction attrs generalizing raws row with
  | nil =>
    rw [resolveAll] at h
    · obtain rfl := Except.ok.inj h
      exact .nil
    · simp
  | cons attr attrs ih =>
    cases raws with
    | nil => simp at hlen
    | cons raw raws =>
      rw [resolveAll] at h
      obtain ⟨cell, hcell, h⟩ := bind_eq_ok_iff.1 h
      obtain ⟨rest, hrest, h⟩ := bind_eq_ok_iff.1 h
      obtain rfl := Except.ok.inj h
      exact .cons (fits_of_resolveCell hcell) (ih (by simpa using hlen) hrest)

theorem fits_of_readDense {s : List Char} {row : List Cell}
    (h : readDense rules place attrs s = .ok row) :
    List.Forall₂ (Cell.Fits rules.strict) attrs row := by
  unfold readDense at h
  obtain ⟨raws, -, h⟩ := bind_eq_ok_iff.1 h
  split at h
  · next hlen => exact fits_of_resolveAll hlen h
  · split at h
    · exact absurd h (throw_ne_ok _ _)
    · exact absurd h (throw_ne_ok _ _)

/-- The cells given so far fit the attributes at their positions. -/
def GivenFit (strict : Bool) (attrs : List Attribute) (given : List (Nat × Cell)) : Prop :=
  ∀ i cell, given.lookup i = some cell → ∀ attr, attrs[i]? = some attr → cell.Fits strict attr

/-- An item that is read has a new position, that of an attribute, and a value that is resolved. -/
theorem of_readItem {given : List (Nat × Cell)} {item : List Char} {i : Nat} {cell : Cell}
    (h : readItem rules place attrs given item = .ok (i, cell)) :
    given.lookup i = none ∧ ∃ attr raw, attrs[i]? = some attr ∧
      resolveCell rules place attr raw = .ok cell := by
  unfold readItem at h
  simp only [throw_bind_eq] at h
  split at h
  · simp at h
  split at h
  · next n _ =>
    simp only [pure_bind] at h
    split at h
    · simp at h
    split at h
    · simp at h
    · next attr hattr =>
      split at h
      · simp at h
      · next hnew =>
        obtain ⟨raws, -, h⟩ := bind_eq_ok_iff.1 h
        split at h
        · next raw =>
          obtain ⟨c, hc, h⟩ := bind_eq_ok_iff.1 h
          obtain ⟨rfl, rfl⟩ := Prod.mk.inj (Except.ok.inj h)
          exact ⟨Option.not_isSome_iff_eq_none.1 hnew, attr, raw, hattr, hc⟩
        · exact absurd h (throw_ne_ok _ _)
  · simp at h

theorem givenFit_of_readItems {given given' : List (Nat × Cell)} {items : List (List Char)}
    (hg : GivenFit rules.strict attrs given)
    (h : readItems rules place attrs given items = .ok given') :
    GivenFit rules.strict attrs given' := by
  induction items generalizing given with
  | nil =>
    obtain rfl := Except.ok.inj h
    exact hg
  | cons item items ih =>
    rw [readItems] at h
    obtain ⟨⟨i, cell⟩, hitem, h⟩ := bind_eq_ok_iff.1 h
    refine ih ?_ h
    -- the new item is the first that is found at its position, the others stand behind it
    obtain ⟨-, attr, raw, hattr, hcell⟩ := of_readItem hitem
    intro j c hj
    rw [List.lookup_cons] at hj
    by_cases hij : j = i
    · subst hij
      obtain rfl : cell = c := by simpa using hj
      intro b hb
      obtain rfl := Option.some.inj (hattr.symm.trans hb)
      exact fits_of_resolveCell hcell
    · rw [beq_false_of_ne hij] at hj
      exact hg j c hj

theorem fits_of_fillSparse {given : List (Nat × Cell)} {i : Nat} {row : List Cell}
    (hg : ∀ j cell, given.lookup (i + j) = some cell → ∀ attr, attrs[j]? = some attr →
      cell.Fits rules.strict attr)
    (h : fillSparse rules place given i attrs = .ok row) :
    List.Forall₂ (Cell.Fits rules.strict) attrs row := by
  induction attrs generalizing i row with
  | nil =>
    obtain rfl := Except.ok.inj h
    exact .nil
  | cons attr attrs ih =>
    -- whichever way the first cell comes about, it fits, and the rest is filled behind it
    have hparts : ∃ (cell : Cell) (rest : List Cell), cell.Fits rules.strict attr ∧
        fillSparse rules place given (i + 1) attrs = .ok rest ∧ cell :: rest = row := by
      rw [fillSparse] at h
      split at h
      · next c hc =>
        rw [pure_bind] at h
        obtain ⟨rest, hrest, h⟩ := bind_eq_ok_iff.1 h
        exact ⟨c, rest, hg 0 c hc attr rfl, hrest, Except.ok.inj h⟩
      split at h
      · obtain ⟨c, hc, h⟩ := bind_eq_ok_iff.1 h
        obtain ⟨rest, hrest, h⟩ := bind_eq_ok_iff.1 h
        exact ⟨c, rest, fits_of_resolveCell hc, hrest, Except.ok.inj h⟩
      · rw [pure_bind] at h
        obtain ⟨rest, hrest, h⟩ := bind_eq_ok_iff.1 h
        exact ⟨.missing, rest, trivial, hrest, Except.ok.inj h⟩
    obtain ⟨cell, rest, hcell, hrest, rfl⟩ := hparts
    refine .cons hcell (ih (fun j c hj b hb => ?_) hrest)
    exact hg (j + 1) c (by rw [← hj, Nat.add_right_comm, Nat.add_assoc]) b hb

theorem fits_of_readSparse {inner : List Char} {row : List Cell}
    (h : readSparse rules place attrs inner = .ok row) :
    List.Forall₂ (Cell.Fits rules.strict) attrs row := by
  have hnone : GivenFit rules.strict attrs [] := by
    intro i cell hcell
    simp at hcell
  have hgiven : ∃ given, GivenFit rules.strict attrs given ∧
      fillSparse rules place given 0 attrs = .ok row := by
    unfold readSparse at h
    simp only [pure_bind] at h
    split at h
    · exact ⟨[], hnone, h⟩
    · obtain ⟨items, -, h⟩ := bind_eq_ok_iff.1 h
      obtain ⟨given, hgiven, h⟩ := bind_eq_ok_iff.1 h
      exact ⟨given, givenFit_of_readItems hnone hgiven, h⟩
  obtain ⟨given, hg, hfill⟩ := hgiven
  exact fits_of_fillSparse (fun j cell hj => hg j cell (by simpa using hj)) hfill

/-- A row that is read has one fitting cell per attribute. -/
theorem fits_of_readRow {s : List Char} {row : List Cell}
    (h : readRow rules place attrs s = .ok row) :
    List.Forall₂ (Cell.Fits rules.strict) attrs row := by
  unfold readRow at h
  split at h
  · exact fits_of_readSparse h
  · exact fits_of_readDense h

end Rows

/-! ### Declarations -/

section Declarations

variable {line : Nat} {name : String} {spec : List Char} {a : Attribute}

theorem readNominal_spec {ordered : Bool} (h : readNominal line name spec ordered = .ok a) :
    a.WellFormed ∧ a.name = name ∧ a.ordered = ordered := by
  unfold readNominal at h
  simp only [throw_bind_eq] at h
  split at h
  · simp at h
  obtain ⟨levels, -, h⟩ := bind_eq_ok_iff.1 h
  split at h
  · simp at h
  · next hnodup =>
    obtain rfl := Except.ok.inj h
    refine ⟨⟨?_, by simp, by simp, by simp⟩, rfl, rfl⟩
    exact (not_not.1 hnodup).map fun s t hst => String.ofList_injective hst

theorem readSimple_spec (h : readSimple line name spec = .ok a) :
    a.WellFormed ∧ a.name = name ∧ a.ordered = false := by
  unfold readSimple at h
  simp only [throw_bind_eq] at h
  split at h
  · obtain rfl := Except.ok.inj h
    exact ⟨⟨by simp, by simp, by simp, by simp⟩, rfl, rfl⟩
  split at h
  · obtain rfl := Except.ok.inj h
    exact ⟨⟨by simp, by simp, by simp, by simp⟩, rfl, rfl⟩
  split at h
  · split at h
    · obtain rfl := Except.ok.inj h
      exact ⟨⟨by simp, by simp, by simp, by simp⟩, rfl, rfl⟩
    obtain ⟨content, -, h⟩ := bind_eq_ok_iff.1 h
    split at h
    all_goals
      obtain rfl := Except.ok.inj h
      exact ⟨⟨by simp, by simp, by simp, by simp⟩, rfl, rfl⟩
  · split at h
    all_goals simp at h

/-- A declaration that is read is well formed, and ordered when its name is listed. -/
theorem readAttribute_spec {ordered : List String} {rest : List Char}
    (h : readAttribute line ordered rest = .ok a) :
    a.WellFormed ∧ a.ordered = ordered.contains a.name := by
  unfold readAttribute at h
  obtain ⟨⟨nameText, spec⟩, -, h⟩ := bind_eq_ok_iff.1 h
  simp only [throw_bind_eq] at h
  split at h
  · simp at h
  split at h
  · obtain ⟨hwf, hname, hord⟩ := readNominal_spec h
    exact ⟨hwf, by rw [hord, hname]⟩
  split at h
  · simp at h
  · next hlisted =>
    obtain ⟨hwf, hname, hord⟩ := readSimple_spec h
    refine ⟨hwf, ?_⟩
    rw [hord, hname]
    exact (by simpa using hlisted)

end Declarations

/-! ### Lines -/

namespace Progress

/-- What holds of everything read so far. -/
structure Valid (options : Options) (p : Progress) : Prop where
  /-- No name is declared twice. -/
  names_nodup : (p.attributes.map (·.name)).Nodup
  /-- Every declaration is well formed, and ordered when its name is listed. -/
  attributes : ∀ a ∈ p.attributes, a.WellFormed ∧ a.ordered = options.ordered.contains a.name
  /-- Every row has one fitting cell per attribute. -/
  rows : ∀ row ∈ p.rows, List.Forall₂ (Cell.Fits options.strict) p.attributes row
  /-- Rows come after the declarations. -/
  header : p.inData = false → p.rows = []
  /-- The data section begins when something is declared. -/
  declared : p.inData = true → p.attributes ≠ []

variable {options : Options} {p q : Progress} {number : Nat} {line : List Char}

theorem valid_init : Valid options {} where
  names_nodup := .nil
  attributes := by simp
  rows := by simp
  header _ := rfl
  declared := by simp

theorem Valid.headerStep (hp : p.Valid options) (hdata : p.inData = false)
    (h : p.headerStep options number line = .ok q) : q.Valid options := by
  have hnorows : p.rows = [] := hp.header hdata
  unfold Progress.headerStep at h
  simp only at h
  split at h
  -- blank lines and comments change nothing
  · obtain rfl := Except.ok.inj h
    exact hp
  · obtain rfl := Except.ok.inj h
    exact hp
  -- the relation is no part of the invariant
  · obtain ⟨name, -, h⟩ := bind_eq_ok_iff.1 h
    obtain rfl := Except.ok.inj h
    exact ⟨hp.names_nodup, hp.attributes, hp.rows, hp.header, hp.declared⟩
  -- a declaration comes before all rows, so there is no row that it could make too short
  · obtain ⟨a, ha, h⟩ := bind_eq_ok_iff.1 h
    obtain ⟨hwf, hord⟩ := readAttribute_spec ha
    split at h
    · simp at h
    · next hfresh =>
      obtain rfl := Except.ok.inj h
      refine ⟨?_, ?_, ?_, fun _ => hnorows, ?_⟩
      · rw [List.map_append, List.map_singleton, ← List.concat_eq_append]
        apply hp.names_nodup.concat
        intro hmem
        obtain ⟨b, hb, hba⟩ := List.mem_map.1 hmem
        exact hfresh (List.any_eq_true.2 ⟨b, hb, by simpa using hba⟩)
      · intro b hb
        rcases List.mem_append.1 hb with hb | hb
        · exact hp.attributes b hb
        · obtain rfl : b = a := by simpa using hb
          exact ⟨hwf, hord⟩
      · simp [hnorows]
      · simp [hdata]
  · split at h
    · simp at h
    · next hdeclared =>
      obtain rfl := Except.ok.inj h
      exact ⟨hp.names_nodup, hp.attributes, hp.rows, by simp, fun _ => hdeclared⟩
  · simp at h
  · split at h
    all_goals simp at h

theorem Valid.dataStep (hp : p.Valid options) (hdata : p.inData = true)
    (h : p.dataStep options number line = .ok q) : q.Valid options := by
  unfold Progress.dataStep at h
  split at h
  · obtain rfl := Except.ok.inj h
    exact hp
  · obtain rfl := Except.ok.inj h
    exact hp
  · split at h
    · next row hrow =>
      -- the new row fits, and the rows before it still do
      obtain rfl := Except.ok.inj h
      refine ⟨hp.names_nodup, hp.attributes, ?_, by simp [hdata], hp.declared⟩
      intro r hr
      rcases List.mem_cons.1 hr with rfl | hr
      · exact fits_of_readRow hrow
      · exact hp.rows r hr
    · split at h
      · simp at h
      -- a malformed row that is skipped is only counted
      · obtain rfl := Except.ok.inj h
        exact ⟨hp.names_nodup, hp.attributes, hp.rows, hp.header, hp.declared⟩
  · simp at h

/-- Every line keeps the invariant. -/
theorem Valid.step (hp : p.Valid options) (h : p.step options number line = .ok q) :
    q.Valid options := by
  unfold Progress.step at h
  split at h
  · next hdata => exact hp.dataStep hdata h
  · next hdata => exact hp.headerStep (by simpa using hdata) h

theorem Valid.steps {ls : List (List Char)} (hp : p.Valid options)
    (h : p.steps options number ls = .ok q) : q.Valid options := by
  induction ls generalizing p number with
  | nil =>
    obtain rfl := Except.ok.inj h
    exact hp
  | cons line ls ih =>
    rw [Progress.steps] at h
    obtain ⟨next, hnext, h⟩ := bind_eq_ok_iff.1 h
    exact ih (hp.step hnext) h

end Progress

/-! ### Whole documents -/

/-- What a document reads as is well formed, and orders the attributes that were named. -/
theorem wellFormed_of_read {options : Options} {text : List Char} {t : ParsedTable}
    (h : read options text = .ok t) : t.WellFormed options.strict ∧ t.OrderedBy options.ordered := by
  unfold read at h
  obtain ⟨last, hlast, h⟩ := bind_eq_ok_iff.1 h
  have hvalid : last.Valid options := Progress.valid_init.steps hlast
  unfold Progress.finish at h
  split at h
  · next hdata =>
    split at h
    · next hundeclared =>
      obtain rfl := Except.ok.inj h
      refine ⟨⟨hvalid.declared hdata, hvalid.names_nodup, fun a ha => (hvalid.attributes a ha).1,
        fun row hrow => hvalid.rows row (by simpa using hrow)⟩,
        fun a ha => (hvalid.attributes a ha).2, ?_⟩
      -- a listed name that is not declared would have been reported
      intro name hname
      by_contra hmem
      have hin : name ∈ last.undeclared options := by
        unfold Progress.undeclared
        rw [List.mem_mergeSort, List.mem_eraseDups, List.mem_filter]
        exact ⟨hname, by simpa [ParsedTable.names] using hmem⟩
      rw [hundeclared] at hin
      exact absurd hin List.not_mem_nil
    · simp at h
  · split at h
    all_goals simp at h

/-- **What was read survives being written**, except that an empty date format is lost: the
    table that is read back is the same one exactly when no date format is empty. -/
theorem same_of_read_write_read {ordered : List String} {text : List Char} {t : ParsedTable}
    (h : read { ordered } text = .ok t) :
    ∃ written back, write t = .ok written ∧ read { ordered } written = .ok back ∧
      back = { t with attributes := t.attributes.map Attribute.shown, skipped := 0 } ∧
      (back.same t = true ↔ ∀ a ∈ t.attributes, a.dateFormat ≠ some "") := by
  obtain ⟨hwf, hord⟩ := wellFormed_of_read h
  have hmarker : Bare "?".toList := bare_questionMark
  obtain ⟨written, hwritten, hread⟩ :=
    exists_write_read_shown hwf { ordered } hord hmarker
  refine ⟨written, _, hwritten, hread, rfl, ?_⟩
  rw [← map_shown_eq_self_iff]
  simp [ParsedTable.same]

/-- An empty format between quotes is read as a format, written as none, and so not read back. -/
theorem not_same_of_empty_date_format :
    ∃ t written back,
      read { ordered := [] } "@relation r\n@attribute x date ''\n@data\n?\n".toList = .ok t ∧
      write t = .ok written ∧ read { ordered := [] } written = .ok back ∧
      back.same t = false := by
  have hread : read { ordered := [] } "@relation r\n@attribute x date ''\n@data\n?\n".toList =
      .ok ⟨"r", [{ name := "x", kind := .date, dateFormat := some "" }], [[.missing]], 0⟩ := by
    decide +kernel
  obtain ⟨written, back, hwritten, hback, -, hsame⟩ := same_of_read_write_read hread
  refine ⟨_, written, back, hread, hwritten, hback, ?_⟩
  rw [← Bool.not_eq_true, hsame]
  simp

end DatasetCatalog.Arff
