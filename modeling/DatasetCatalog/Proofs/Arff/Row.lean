import DatasetCatalog.Arff.Line
import DatasetCatalog.Arff.Row
import DatasetCatalog.Arff.Writer
import DatasetCatalog.Proofs.Arff.Token
import DatasetCatalog.Proofs.Arff.WellFormed
import DatasetCatalog.Proofs.Forall2

/-! # Rows read back

  A written cell is resolved to the cell it was written for, under every kind of attribute it fits:
  a missing cell is the only one that is written as the bare marker. A written row is recognised
  as a data line, is not sparse, and splits into its cells.
-/

namespace DatasetCatalog.Arff

open Text

/-! ### Cells -/

/-- A fitting cell has a text, and reading resolves that text to the cell. -/
theorem exists_writeCell {rules : RowRules} (hm : Bare rules.missingMarker.toList) {a : Attribute}
    {c : Cell} (hc : c.Fits true a) :
    ∃ text raw, writeCell rules.missingMarker.toList c = some text ∧ Writes text raw ∧
      ∀ place, resolveCell rules place a raw = .ok c := by
  cases c with
  | missing =>
    refine ⟨_, _, rfl, .bare hm, fun place => ?_⟩
    simp [resolveCell]
  | unknownLevel => exact absurd hc.1 (by simp)
  | text s =>
    -- the text is resolved to the value as soon as it is quoted or differs from the marker
    have resolve : ∀ quote : Bool, (quote = false → s ≠ rules.missingMarker) →
        ∀ place, resolveCell rules place a ⟨s.toList, quote⟩ = .ok (.text s) := by
      intro quote hq place
      have hmark : ¬(quote = false ∧ s = rules.missingMarker) := fun h => hq h.1 h.2
      have hlevel : ¬(a.kind = .nominal ∧ s ∉ a.levels) := fun h => h.2 (hc h.1)
      unfold resolveCell
      simp only [String.ofList_toList]
      rw [if_neg hmark, if_neg hlevel]
    by_cases hs : quoteValue s.toList = s.toList ∧ s.toList = rules.missingMarker.toList
    -- a bare text that is the marker is written between quotes all the same
    · refine ⟨quoted s.toList, ⟨s.toList, true⟩, ?_, .quoted _, resolve true (by simp)⟩
      have hbare : needsQuoting s.toList = false := by
        by_contra hn
        have hquoted := quoteValue_of_needsQuoting (by simpa using hn)
        rw [hs.1, hs.2] at hquoted
        have := hm.head '\'' (by rw [hquoted]; rfl)
        exact absurd this.1 (by decide)
      unfold writeCell
      simp only [if_pos hs, quoted, flatMap_escapeQuoted_of_bare hbare]
    · refine ⟨quoteValue s.toList, rawOf s.toList, ?_, writes_quoteValue _, resolve _ ?_⟩
      · unfold writeCell
        simp only [if_neg hs]
      · intro hn heq
        exact hs ⟨quoteValue_of_bare hn, congrArg String.toList heq⟩

/-- The cells of a fitting row have texts, which are resolved to the row. -/
theorem exists_mapM_writeCell {rules : RowRules} (hm : Bare rules.missingMarker.toList)
    {attrs : List Attribute} {row : List Cell} (h : List.Forall₂ (Cell.Fits true) attrs row) :
    ∃ texts raws, row.mapM (writeCell rules.missingMarker.toList) = some texts ∧
      List.Forall₂ Writes texts raws ∧ raws.length = attrs.length ∧
      ∀ place, resolveAll rules place attrs raws = .ok row := by
  induction h with
  | nil => exact ⟨[], [], rfl, .nil, rfl, fun _ => rfl⟩
  | @cons a c attrs row hc _ ih =>
    obtain ⟨text, raw, htext, hraw, hres⟩ := exists_writeCell hm hc
    obtain ⟨texts, raws, htexts, hraws, hlen, hall⟩ := ih
    refine ⟨text :: texts, raw :: raws, ?_, .cons hraw hraws, by simp [hlen], fun place => ?_⟩
    · rw [List.mapM_cons, htext, htexts]
      rfl
    · rw [resolveAll, hres place, hall place]
      rfl

/-! ### Lines -/

/-- The line is a data line. -/
structure DataLine (line : List Char) : Prop where
  /-- Stripping changes nothing. -/
  solid : Solid line
  /-- The line is one line. -/
  newline : '\n' ∉ line
  /-- The line is recognised as a data line. -/
  kind : lineKind line = .row

/-- The line is a data line that reads as the row. -/
structure RowLine (rules : RowRules) (attrs : List Attribute) (line : List Char)
    (row : List Cell) : Prop extends DataLine line where
  /-- The line reads as the row. -/
  reads : ∀ place, readRow rules place attrs line = .ok row

/-- A carriage return at the end would be blank. -/
theorem dropReturn_of_solid {line : List Char} (h : Solid line) : dropReturn line = line := by
  unfold dropReturn
  rw [if_neg]
  intro hlast
  exact absurd (h.last '\r' hlast) (by decide)

section Joined

variable {texts : List (List Char)} {raws : List RawCell} (h : List.Forall₂ Writes texts raws)
  (hne : texts ≠ [])
include h hne

theorem solid_cells : Solid (joinWith [','] texts) := by
  apply solid_joinWith hne
  intro text htext
  obtain ⟨raw, -, hraw⟩ := exists_of_mem_forall₂ h htext
  exact hraw.solid

/-- Joined cells begin no comment, no keyword and no braces. -/
theorem head_cells {c : Char} (hc : (joinWith [','] texts).head? = some c) :
    c ≠ '%' ∧ c ≠ '@' ∧ c ≠ '{' := by
  cases h with
  | nil => exact absurd rfl hne
  | cons htext _ =>
    rw [head?_joinWith htext.solid.ne_nil] at hc
    exact htext.head hc

/-- Joined cells are read as one value per attribute. -/
theorem readRow_cells (rules : RowRules) (place : RowPlace) {attrs : List Attribute}
    (hlen : raws.length = attrs.length) :
    readRow rules place attrs (joinWith [','] texts) = resolveAll rules place attrs raws := by
  have hbrace : isBraced (joinWith [','] texts) = false := by
    unfold isBraced
    rw [Bool.and_eq_false_iff]
    left
    rw [beq_eq_false_iff_ne]
    exact fun hc => (head_cells h hne hc).2.2 rfl
  unfold readRow readDense
  rw [hbrace, cells, cellsFrom_joinWith h hne]
  simp only [Bool.false_eq_true, if_false, bind, Except.bind, hlen, if_true]

/-- Joined cells are one data line. -/
theorem dataLine_cells : DataLine (joinWith [','] texts) where
  solid := solid_cells h hne
  newline := by
    -- neither the commas nor the cells break the line
    intro hn
    rcases mem_joinWith hn with hsep | ⟨text, htext, hmem⟩
    · exact absurd hsep (by decide)
    · obtain ⟨raw, -, hraw⟩ := exists_of_mem_forall₂ h htext
      exact hraw.newline hmem
  kind := by
    have hhead := fun c => head_cells h hne (c := c)
    unfold lineKind
    rw [(solid_cells h hne).strip_eq]
    split
    · next hnil => exact absurd hnil (solid_cells h hne).ne_nil
    · next hc => exact absurd rfl (hhead '%' (by rw [hc]; rfl)).1
    · next hc => exact absurd rfl (hhead '@' (by rw [hc]; rfl)).2.1
    · rfl

end Joined

/-- Joined cells that are resolved are the line of their row. -/
theorem rowLine_joinWith {rules : RowRules} {attrs : List Attribute} {row : List Cell}
    {texts : List (List Char)} {raws : List RawCell} (h : List.Forall₂ Writes texts raws)
    (hne : texts ≠ []) (hlen : raws.length = attrs.length)
    (hres : ∀ place, resolveAll rules place attrs raws = .ok row) :
    RowLine rules attrs (joinWith [','] texts) row where
  toDataLine := dataLine_cells h hne
  reads place := (readRow_cells h hne rules place hlen).trans (hres place)

/-- Fitting rows are written as data lines that read as those rows. -/
theorem exists_writeRows (rules : RowRules) (hm : Bare rules.missingMarker.toList)
    {attrs : List Attribute} (hne : attrs ≠ []) {rows : List (List Cell)}
    (h : ∀ row ∈ rows, List.Forall₂ (Cell.Fits true) attrs row) (index : Nat) :
    ∃ written, writeRows rules.missingMarker.toList index rows = .ok written ∧
      List.Forall₂ (RowLine rules attrs) written rows := by
  induction rows generalizing index with
  | nil => exact ⟨[], rfl, .nil⟩
  | cons row rows ih =>
    obtain ⟨texts, raws, htexts, hraws, hlen, hres⟩ := exists_mapM_writeCell hm (h row (by simp))
    obtain ⟨written, hwritten, hlines⟩ := ih (fun r hr => h r (by simp [hr])) (index + 1)
    have htexts_ne : texts ≠ [] := by
      intro hnil
      have := hraws.length_eq
      rw [hnil, hlen, List.length_nil] at this
      exact hne (List.length_eq_zero_iff.1 this.symm)
    refine ⟨joinWith [','] texts :: written, ?_, .cons ?_ hlines⟩
    · rw [writeRows, htexts, hwritten]
      rfl
    · exact rowLine_joinWith hraws htexts_ne hlen hres

end DatasetCatalog.Arff
