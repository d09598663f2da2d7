import DatasetCatalog.Proofs.Coercion.Total
import Mathlib.Data.Finset.Card

/-! # How many levels detection makes

  The counting policy makes a column finite when its profile has few distinct values. The levels are
  collected from the cells again, and by another rule: a profile drops every text that says "not a
  number", while a column of texts keeps them. So a column of numbers has one level for each value
  that was counted, and a column of texts has one more for each way in which its cells spell "not a
  number".
-/

namespace DatasetCatalog.Coercion

open Arff Packing

/-! ### Counting what is distinct -/

theorem length_dedupBy {α : Type} [DecidableEq α] (xs : List α) :
    (dedupBy (· == ·) xs).length = xs.toFinset.card := by
  obtain ⟨hnodup, hfrom⟩ :=
    nodup_dedupBy (fun x (_ : x ∈ xs) => beq_self_eq_true x)
  rw [← List.toFinset_card_of_nodup hnodup]
  congr 1
  ext x
  rw [List.mem_toFinset, List.mem_toFinset]
  exact ⟨hfrom x, fun hx => mem_dedupBy_of_eq hx fun _ _ heq => eq_of_beq heq⟩

/-- The ways in which the cells spell "not a number". -/
def nanSpellings (cells : List Cell) : Finset String :=
  ((cells.filterMap Cell.text?).filter isNaNText).toFinset

theorem nanSpellings_eq_empty_iff {cells : List Cell} :
    nanSpellings cells = ∅ ↔ ∀ s, Cell.text s ∈ cells → isNaNText s = false := by
  unfold nanSpellings
  rw [List.toFinset_eq_empty_iff, List.filter_eq_nil_iff]
  simp only [Bool.not_eq_true]
  constructor
  · exact fun h s hs => h s (List.mem_filterMap.2 ⟨_, hs, rfl⟩)
  · intro h s hs
    obtain ⟨cell, hcell, htext⟩ := List.mem_filterMap.1 hs
    cases cell with
    | text r =>
      obtain rfl := Option.some.inj htext
      exact h r hcell
    | missing | unknownLevel => exact absurd htext nofun

section Counts

variable {attr : Attribute} {cells : List Cell} {c : Column} {maxLevels : Int}

/-- Every text of the cells is counted, or says "not a number". -/
theorem length_textLevels (hkind : attr.kind ≠ .nominal)
    (hnumeric : (profile attr cells).allNumeric = false) :
    (textLevels attr cells).length =
      (profile attr cells).distinct + (nanSpellings cells).card := by
  have hintegral : (profile attr cells).allIntegral = false := by
    rw [← Bool.not_eq_true]
    exact fun h => absurd (allNumeric_of_allIntegral h) (by rw [hnumeric]; nofun)
  have hdistinct : (profile attr cells).distinct = (presentTexts cells).toFinset.card := by
    rw [distinct_eq, hintegral, hnumeric, ← length_dedupBy]
    rfl
  unfold textLevels
  rw [if_neg hkind, List.length_mergeSort, length_dedupBy, hdistinct]
  unfold presentTexts nanSpellings
  rw [List.toFinset_filter, List.toFinset_filter, add_comm]
  simp only [Bool.not_eq_true', ← Bool.not_eq_true]
  exact (Finset.card_filter_add_card_filter_not _).symm

/-- Every counted integer has one label. -/
theorem length_numericLevels (hintegral : (profile attr cells).allIntegral = true) :
    (numericLevels cells).length = (profile attr cells).distinct := by
  obtain ⟨ws, hws⟩ := exists_spellsIntegers hintegral
  obtain ⟨hnodup, hfrom⟩ := nodup_dedupBy (fun w (_ : w ∈ ws) => beq_self_eq_true w)
  rw [hws.distinct (allIntegral_eq_true_iff.1 hintegral).1, numericLevels_eq_map, List.length_map,
    ← List.length_map (Number.int)]
  apply List.Perm.length_eq
  rw [List.perm_ext_iff_of_nodup (nodup_sortedNumbers cells)
    (hnodup.map fun _ _ h => Number.int.inj h)]
  intro y
  rw [mem_sortedNumbers, List.mem_map]
  constructor
  · rintro ⟨s, hs, hy⟩
    obtain ⟨w, hw, hwhole, -⟩ := exists_of_mem_forall₂ hws hs
    rw [numberOf?_of_wholeOf? hwhole] at hy
    exact ⟨w, mem_dedupBy_of_eq hw fun _ _ heq => eq_of_beq heq, Option.some.inj hy⟩
  · rintro ⟨w, hw, rfl⟩
    obtain ⟨s, hs, hwhole, -⟩ := exists_of_forall₂_mem hws (hfrom w hw)
    exact ⟨s, hs, numberOf?_of_wholeOf? hwhole⟩

/-! ### Columns and tables -/

/-- How many levels a column has, beside what its profile counted. -/
structure LevelCount (maxLevels : Int) (attr : Attribute) (cells : List Cell) (c : Column) :
    Prop where
  /-- What was counted is below the limit. -/
  below : ((profile attr cells).distinct : Int) < maxLevels
  /-- One level for each counted value, and in a column of texts one more for each spelling of
      "not a number". -/
  length_eq : c.levels.length = (profile attr cells).distinct +
    if (profile attr cells).allNumeric then 0 else (nanSpellings cells).card
  /-- When the levels are as many as were counted. -/
  length_eq_iff : c.levels.length = (profile attr cells).distinct ↔
    (profile attr cells).allNumeric = true ∨ ∀ s, Cell.text s ∈ cells → isNaNText s = false

theorem levelCount_of_coerceColumn (h : coerceColumn (autoSettings maxLevels) attr cells = .ok c)
    (hsource : attr.kind ≠ .nominal ∨ (profile attr cells).allNumeric = true)
    (hfinite : c.scitype.isFinite = true) (hpresent : presentTexts cells ≠ []) :
    LevelCount maxLevels attr cells c := by
  cases hnumeric : (profile attr cells).allNumeric with
  | true =>
    -- only integers are made finite, and those have one label each
    cases hintegral : (profile attr cells).allIntegral with
    | false =>
      rw [coerceColumn_auto_real hnumeric hintegral] at h
      have htype : c.scitype = .continuous := scitype_of_column (fun _ => rfl) h
      rw [htype] at hfinite
      exact absurd hfinite nofun
    | true =>
      rw [coerceColumn_auto_integral hintegral] at h
      split at h
      · next hfew =>
        have hlength : c.levels.length = (profile attr cells).distinct := by
          rw [levels_of_column h, length_numericLevels hintegral]
        exact ⟨hfew, by rw [hlength, hnumeric]; rfl, iff_of_true hlength (.inl hnumeric)⟩
      · have htype : c.scitype = .count := scitype_of_column (fun _ => rfl) h
        rw [htype] at hfinite
        exact absurd hfinite nofun
  | false =>
    have hkind : attr.kind ≠ .nominal := hsource.resolve_right (by rw [hnumeric]; nofun)
    rw [coerceColumn_auto_text hpresent hnumeric, if_neg hkind] at h
    split at h
    · next hfew =>
      have hlength := length_textLevels hkind hnumeric
      rw [← levels_of_column h] at hlength
      refine ⟨hfew.1, by rw [hlength, hnumeric]; rfl, ?_⟩
      rw [hlength, hnumeric, ← nanSpellings_eq_empty_iff, ← Finset.card_eq_zero]
      simp
    · have htype : c.scitype = .textual := scitype_of_column (fun _ => rfl) h
      rw [htype] at hfinite
      exact absurd hfinite nofun

end Counts

/-- **How many levels detection makes.** Under every limit that is accepted, a column that was
    declared to be of numbers, texts or dates, or holds numbers only, and is made finite from present
    values, had fewer distinct values than the limit when it was profiled. It has one level for each
    of them, and where it does not hold numbers only, one more for each spelling of "not a number";
    its levels may therefore reach the limit and pass it. -/
theorem levelCount_of_coerce {maxLevels : Int} {policy : Policy}
    (hpolicy : Policy.ofLimit maxLevels = .ok policy) {p : ParsedTable} {t : Table}
    (h : coerce { mode := .auto, policy } p = .ok t) {j : Nat} {attr : Attribute}
    (hattr : p.attributes[j]? = some attr) : ∃ cells c, p.column? j = some cells ∧
      t.columns[j]? = some c ∧
      (attr.kind ≠ .nominal ∨ (profile attr cells).allNumeric = true →
        c.scitype.isFinite = true → (profile attr cells).present ≠ 0 →
        LevelCount maxLevels attr cells c) := by
  obtain rfl : countPolicy maxLevels = policy := by
    unfold Policy.ofLimit at hpolicy
    split at hpolicy
    · exact absurd hpolicy nofun
    · exact Except.ok.inj hpolicy
  obtain ⟨cells, c, hcells, hc, hcoerce⟩ := exists_column_of_coerce h hattr
  refine ⟨cells, c, hcells, hc, fun hsource hfinite hpresent => ?_⟩
  refine levelCount_of_coerceColumn hcoerce hsource hfinite fun hnil => hpresent ?_
  exact List.length_eq_zero_iff.2 hnil

/-- One value is counted below a limit of two, and the column has two levels. -/
theorem levelCount_reaches_limit :
    let attr : Attribute := { name := "a", kind := .string }
    ∃ p policy t cells c, read {} "@attribute a string\n@data\na\na\nnan\n".toList = .ok p ∧
      Policy.ofLimit 2 = .ok policy ∧ coerce { mode := .auto, policy } p = .ok t ∧
      p.attributes[0]? = some attr ∧ p.column? 0 = some cells ∧ t.columns[0]? = some c ∧
      c.scitype = .multiclass ∧ c.levels = ["a", "nan"] ∧ (profile attr cells).distinct = 1 ∧
      LevelCount 2 attr cells c := by
  intro attr
  let cells : List Cell := [.text "a", .text "a", .text "nan"]
  let p : ParsedTable :=
    { relation := "", attributes := [attr], rows := cells.map fun cell => [cell] }
  have hread : read {} "@attribute a string\n@data\na\na\nnan\n".toList = .ok p := by
    decide +kernel
  have hlevels : textLevels attr cells = ["a", "nan"] := by
    -- the distinct texts are in order as they stand
    show ["a", "nan"].mergeSort (fun a b => decide (a ≤ b)) = _
    exact List.mergeSort_of_pairwise (by decide +kernel)
  have hprofile : profile attr cells =
      { name := "a", declared := .string, ordered := false, present := 2, distinct := 1
        allNumeric := false, allIntegral := false } := by
    decide +kernel
  -- the column is made one of labels, and is alone in the table
  obtain ⟨c, hc⟩ : ∃ c, (codes false (textLevels attr cells)).column attr
      (toCode (textLevels attr cells)) cells = .ok c :=
    exists_labels_column attr fun s hs => mem_textLevels (by decide) hs
  have hcolumn : coerceColumn (autoSettings 2) attr cells = .ok c := by
    rw [coerceColumn_auto_text (by decide +kernel) (by rw [hprofile]), if_neg (by decide), hprofile]
    exact hc
  have hlimit : Policy.ofLimit 2 = .ok (countPolicy 2) := rfl
  obtain ⟨t, hcoerce, hat⟩ := exists_coerce_of_single (p := p) rfl rfl (by decide) hcolumn
  have hattr : p.attributes[0]? = some attr := rfl
  obtain ⟨cells', c', hcells, hat', hcount⟩ := levelCount_of_coerce hlimit hcoerce hattr
  obtain rfl : cells = cells' := Option.some.inj hcells
  obtain rfl := Option.some.inj (hat.symm.trans hat')
  have htype : c.scitype = .multiclass := scitype_of_column (fun _ => rfl) hc
  refine ⟨p, countPolicy 2, t, cells, c, hread, hlimit, hcoerce, rfl, rfl, hat, htype, ?_, ?_, ?_⟩
  · rw [levels_of_column hc, hlevels]
  · rw [hprofile]
  · exact hcount (.inl (by decide)) (by rw [htype]; rfl) (by rw [hprofile]; decide)

end DatasetCatalog.Coercion
