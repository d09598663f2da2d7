import DatasetCatalog.Arff.Reader
import DatasetCatalog.Proofs.Arff.Token
import DatasetCatalog.Proofs.Except

/-! # The place of a line

  The reader carries the number of a line, and the index of a row among the data lines, along only
  to say in an error where the fault is. A line therefore reads the same at every place: it gives
  the same, or it has the same fault, told of the other place. Each function of the reader is
  compared with itself at another place. White space around a line does not matter either, since
  the line is stripped before it is read.
-/

namespace DatasetCatalog.Arff

open Text

/-! ### Faults of other places -/

/-- The fault, told of the data line with this index. -/
def FormatFault.onRow (row : Nat) : FormatFault → FormatFault
  | cellCount _ expected found => cellCount row expected found
  | weighted _ => weighted row
  | undeclaredValue _ value name levels => undeclaredValue row value name levels
  | malformedSparse _ item => malformedSparse row item
  | sparseIndex _ text => sparseIndex row text
  | sparseRange _ index => sparseRange row index
  | sparseRepeated _ index => sparseRepeated row index
  | fault => fault

/-- The error, told of another place. -/
def FormatError.relocate (place : RowPlace) (e : FormatError) : FormatError :=
  ⟨place.line, e.fault.onRow place.row⟩

/-! ### Tokens -/

section Tokens

variable (place place' : RowPlace)

theorem cellsFrom_relocate (total : Nat) (s : List Char) :
    cellsFrom place'.line total s =
      (cellsFrom place.line total s).mapError (·.relocate place') := by
  fun_induction cellsFrom place.line total s with
  | case1 s hs =>
    rw [cellsFrom_eq, hs]
    rfl
  | case2 s c body hs hc hq =>
    rw [cellsFrom_eq place'.line, hs]
    simp only [hc, if_true, hq]
    rfl
  | case3 s c body hs hc value after hq ha =>
    rw [cellsFrom_eq place'.line, hs]
    simp only [hc, if_true, hq, ha]
    rfl
  | case4 s c body hs hc value after hq more ha ih =>
    rw [cellsFrom_eq place'.line, hs]
    simp only [hc, if_true, hq, ha]
    exact mapError_map_congr ih _
  | case5 s c body hs hc value after hq d more ha hd =>
    rw [cellsFrom_eq place'.line, hs]
    simp only [hc, if_true, hq, ha, hd, if_false]
    rfl
  | case6 s c body hs hc cell hm =>
    rw [cellsFrom_eq place'.line, hs]
    simp only [hc, hm, Bool.false_eq_true, if_false]
    rfl
  | case7 s c body hs hc cell d more hm ih =>
    rw [cellsFrom_eq place'.line, hs]
    simp only [hc, hm, Bool.false_eq_true, if_false]
    exact mapError_map_congr ih _

theorem cells_relocate (s : List Char) :
    cells place'.line s = (cells place.line s).mapError (·.relocate place') :=
  cellsFrom_relocate place place' s.length s

theorem sparseItemsFrom_relocate (total : Nat) (s : List Char) :
    sparseItemsFrom place'.line total s =
      (sparseItemsFrom place.line total s).mapError (·.relocate place') := by
  fun_induction sparseItemsFrom place.line total s with
  | case1 =>
    rw [sparseItemsFrom]
    rfl
  | case2 c rest hc hq =>
    rw [sparseItemsFrom_cons, if_pos hc, hq]
    rfl
  | case3 c rest hc body after hq ih =>
    rw [sparseItemsFrom_cons, if_pos hc, hq]
    exact mapError_map_congr ih _
  | case4 rest hc ih =>
    rw [sparseItemsFrom_cons, if_neg hc, if_pos rfl]
    exact mapError_map_congr ih _
  | case5 c rest hc hcomma ih =>
    rw [sparseItemsFrom_cons, if_neg hc, if_neg hcomma]
    exact mapError_map_congr ih _

theorem sparseItems_relocate (s : List Char) :
    sparseItems place'.line s = (sparseItems place.line s).mapError (·.relocate place') :=
  sparseItemsFrom_relocate place place' s.length s

end Tokens

/-! ### Rows -/

section Rows

variable (rules : RowRules) (place place' : RowPlace)

theorem resolveCell_relocate (attr : Attribute) (raw : RawCell) :
    resolveCell rules place' attr raw =
      (resolveCell rules place attr raw).mapError (·.relocate place') := by
  unfold resolveCell
  simp only
  split_ifs
  all_goals rfl

theorem resolveAll_relocate (attrs : List Attribute) (raws : List RawCell) :
    resolveAll rules place' attrs raws =
      (resolveAll rules place attrs raws).mapError (·.relocate place') := by
  fun_induction resolveAll rules place attrs raws with
  | case1 attr attrs raw raws ih =>
    rw [resolveAll]
    apply mapError_bind_congr (resolveCell_relocate rules place place' attr raw)
    intro cell
    exact mapError_bind_congr ih fun _ => rfl
  | case2 attrs raws hnil =>
    rw [resolveAll.eq_2 _ _ _ _ hnil]
    rfl

theorem readDense_relocate (attrs : List Attribute) (s : List Char) :
    readDense rules place' attrs s =
      (readDense rules place attrs s).mapError (·.relocate place') := by
  unfold readDense
  apply mapError_bind_congr (cells_relocate place place' s)
  intro raws
  split_ifs
  · exact resolveAll_relocate rules place place' attrs raws
  · rfl
  · rfl

theorem readItem_relocate (attrs : List Attribute) (given : List (Nat × Cell)) (item : List Char) :
    readItem rules place' attrs given item =
      (readItem rules place attrs given item).mapError (·.relocate place') := by
  unfold readItem
  simp only [throw_bind_eq]
  -- an item is given up at the same check, whatever the line
  split
  · rfl
  split
  · simp only [pure_bind]
    split
    · rfl
    split
    · rfl
    · next attr _ =>
      split
      · rfl
      apply mapError_bind_congr (cells_relocate place place' _)
      intro raws
      split
      · next raw =>
        exact mapError_bind_congr (resolveCell_relocate rules place place' attr raw) fun _ => rfl
      · rfl
  · rfl

theorem readItems_relocate (attrs : List Attribute) (given : List (Nat × Cell))
    (items : List (List Char)) :
    readItems rules place' attrs given items =
      (readItems rules place attrs given items).mapError (·.relocate place') := by
  induction items generalizing given with
  | nil => rfl
  | cons item items ih =>
    rw [readItems, readItems]
    apply mapError_bind_congr (readItem_relocate rules place place' attrs given item)
    intro pair
    exact ih (pair :: given)

theorem fillSparse_relocate (given : List (Nat × Cell)) (i : Nat) (attrs : List Attribute) :
    fillSparse rules place' given i attrs =
      (fillSparse rules place given i attrs).mapError (·.relocate place') := by
  induction attrs generalizing i with
  | nil => rfl
  | cons attr attrs ih =>
    rw [fillSparse, fillSparse]
    split
    · exact mapError_bind_congr rfl fun _ => mapError_bind_congr (ih (i + 1)) fun _ => rfl
    split
    · apply mapError_bind_congr (resolveCell_relocate rules place place' attr _)
      intro cell
      exact mapError_bind_congr (ih (i + 1)) fun _ => rfl
    · exact mapError_bind_congr rfl fun _ => mapError_bind_congr (ih (i + 1)) fun _ => rfl

theorem readSparse_relocate (attrs : List Attribute) (inner : List Char) :
    readSparse rules place' attrs inner =
      (readSparse rules place attrs inner).mapError (·.relocate place') := by
  have hfill : ∀ given, fillSparse rules place' given 0 attrs =
      (fillSparse rules place given 0 attrs).mapError (·.relocate place') := fun given =>
    fillSparse_relocate rules place place' given 0 attrs
  unfold readSparse
  split
  · exact mapError_bind_congr rfl hfill
  · apply mapError_bind_congr (sparseItems_relocate place place' inner)
    intro items
    exact mapError_bind_congr (readItems_relocate rules place place' attrs [] items) hfill

/-- **A row reads the same at every place**, and what is wrong with it is the same. -/
theorem readRow_relocate (attrs : List Attribute) (s : List Char) :
    readRow rules place' attrs s =
      (readRow rules place attrs s).mapError (·.relocate place') := by
  unfold readRow
  split
  · exact readSparse_relocate rules place place' attrs _
  · exact readDense_relocate rules place place' attrs s

/-- What a row gives, and whether it gives anything, does not depend on the number of its line and
    on the rows before it. -/
theorem readRow_place (attrs : List Attribute) (s : List Char) :
    (readRow rules place attrs s).toOption = (readRow rules place' attrs s).toOption := by
  rw [readRow_relocate rules place place', toOption_mapError]

end Rows

/-! ### Declarations -/

section Declarations

variable (place place' : RowPlace)

theorem leadingQuoted_relocate (s : List Char) :
    leadingQuoted place'.line s = (leadingQuoted place.line s).mapError (·.relocate place') := by
  unfold leadingQuoted
  split
  · rfl
  split
  · split
    all_goals rfl
  · rfl

theorem readRelation_relocate (rest : List Char) :
    readRelation place'.line rest =
      (readRelation place.line rest).mapError (·.relocate place') := by
  unfold readRelation
  apply mapError_bind_congr (leadingQuoted_relocate place place' _)
  intro found
  split
  all_goals rfl

theorem splitName_relocate (rest : List Char) :
    splitName place'.line rest = (splitName place.line rest).mapError (·.relocate place') := by
  unfold splitName
  simp only [throw_bind_eq]
  split
  · rfl
  apply mapError_bind_congr (leadingQuoted_relocate place place' _)
  intro found
  split
  all_goals rfl

theorem readLevels_relocate (inner : List Char) :
    readLevels place'.line inner = (readLevels place.line inner).mapError (·.relocate place') := by
  unfold readLevels
  split
  · rfl
  · exact mapError_map_congr (cells_relocate place place' inner) _

theorem readNominal_relocate (name : String) (spec : List Char) (ordered : Bool) :
    readNominal place'.line name spec ordered =
      (readNominal place.line name spec ordered).mapError (·.relocate place') := by
  unfold readNominal
  simp only [throw_bind_eq]
  split
  · rfl
  apply mapError_bind_congr (readLevels_relocate place place' _)
  intro levels
  split
  all_goals rfl

theorem readSimple_relocate (name : String) (spec : List Char) :
    readSimple place'.line name spec =
      (readSimple place.line name spec).mapError (·.relocate place') := by
  unfold readSimple
  simp only
  split
  · rfl
  split
  · rfl
  split
  · split
    · rfl
    apply mapError_bind_congr (leadingQuoted_relocate place place' _)
    intro found
    split
    all_goals rfl
  · split
    all_goals rfl

theorem readAttribute_relocate (ordered : List String) (rest : List Char) :
    readAttribute place'.line ordered rest =
      (readAttribute place.line ordered rest).mapError (·.relocate place') := by
  unfold readAttribute
  apply mapError_bind_congr (splitName_relocate place place' rest)
  rintro ⟨nameText, spec⟩
  simp only [throw_bind_eq]
  split
  · rfl
  split
  · exact readNominal_relocate place place' _ spec _
  split
  · rfl
  · exact readSimple_relocate place place' _ spec

end Declarations

/-! ### Lines -/

theorem lineKind_congr {line line' : List Char} (h : strip line' = strip line) :
    lineKind line' = lineKind line := by
  rw [lineKind, h, lineKind]

theorem strip_dropReturn (line : List Char) : strip (dropReturn line) = strip line := by
  unfold dropReturn
  split
  · next hlast =>
    obtain ⟨front, rfl⟩ := List.getLast?_eq_some_iff.1 hlast
    rw [List.dropLast_concat]
    exact (strip_concat_of_blank front (by decide)).symm
  · rfl

theorem lineKind_dropReturn (line : List Char) : lineKind (dropReturn line) = lineKind line :=
  lineKind_congr (strip_dropReturn line)

namespace Progress

variable (options : Options) (p : Progress) (number number' : Nat) {line line' : List Char}

theorem headerStep_relocate (row : Nat) (h : strip line' = strip line) :
    p.headerStep options number' line' =
      (p.headerStep options number line).mapError (·.relocate ⟨number', row⟩) := by
  unfold headerStep
  simp only [lineKind_congr h, h]
  split
  · rfl
  · rfl
  · exact mapError_bind_congr (readRelation_relocate ⟨number, row⟩ ⟨number', row⟩ _) fun _ => rfl
  · apply mapError_bind_congr (readAttribute_relocate ⟨number, row⟩ ⟨number', row⟩ _ _)
    intro attr
    split
    all_goals rfl
  · split
    all_goals rfl
  · rfl
  · split
    all_goals rfl

theorem dataStep_relocate (h : strip line' = strip line) :
    p.dataStep options number' line' =
      (p.dataStep options number line).mapError (·.relocate ⟨number', p.rowIndex⟩) := by
  unfold dataStep
  rw [lineKind_congr h, h]
  split
  · rfl
  · rfl
  · rw [readRow_relocate options.toRowRules ⟨number, p.rowIndex⟩ ⟨number', p.rowIndex⟩]
    cases readRow options.toRowRules ⟨number, p.rowIndex⟩ p.attributes (strip line) with
    | ok row => rfl
    -- a malformed row is left out under the number of either line
    | error e => cases options.badRow <;> rfl
  · rfl

theorem step_relocate (h : strip line' = strip line) :
    p.step options number' line' =
      (p.step options number line).mapError (·.relocate ⟨number', p.rowIndex⟩) := by
  unfold step
  split
  · exact dataStep_relocate options p number number' h
  · exact headerStep_relocate options p number number' p.rowIndex h

variable {options p number}

/-- An error of a line bears its number, and names no other row than the one that is read. -/
theorem relocate_of_step {e : FormatError} (h : p.step options number line = .error e) :
    e.relocate ⟨number, p.rowIndex⟩ = e := by
  have hsame := step_relocate options p number number (rfl : strip line = strip line)
  rw [h] at hsame
  exact (Except.error.inj hsame).symm

theorem line_of_step {e : FormatError} (h : p.step options number line = .error e) :
    e.line = number := by
  rw [← relocate_of_step h]
  rfl

/-- **A line is the same step under every number and with any white space around it**: only the
    number in an error differs. -/
theorem step_onLine (h : strip line' = strip line) :
    p.step options number' line' =
      (p.step options number line).mapError fun e => { e with line := number' } := by
  rw [step_relocate options p number number' h]
  cases hstep : p.step options number line with
  | ok q => rfl
  | error e =>
    have hfault : e.fault.onRow p.rowIndex = e.fault :=
      congrArg FormatError.fault (relocate_of_step hstep)
    show Except.error (FormatError.mk number' (e.fault.onRow p.rowIndex)) = _
    rw [hfault]
    rfl

theorem step_congr (h : strip line' = strip line) :
    p.step options number line' = p.step options number line := by
  rw [step_onLine number h]
  cases hstep : p.step options number line with
  | ok q => rfl
  | error e =>
    rw [← line_of_step hstep]
    rfl

end Progress

end DatasetCatalog.Arff
