import DatasetCatalog.Proofs.Coercion.Rederive

/-! # Columns coerced again

  What coercion makes of the attribute and the cells that a coerced column is taken apart into.
  In strict mode it is the same column. In automatic mode the policy decides again from the new
  profile, and decides the same, except where a column of doubles loses its range: there every
  double is a 64-bit integer, and the column becomes one of integers or levels.
-/

namespace DatasetCatalog.Coercion

open Arff Packing

variable {attr : Attribute} {cells : List Cell} {c : Column} {maxLevels : Int}

/-! ### The declared type -/

/-- Building with the declared type is stable, and does not bring back absent values. -/
theorem declared_rederive (h : build attr cells (declaredType attr) false = .ok c) :
    build (attributeOf c) (columnCells c) (declaredType (attributeOf c)) false = .ok c ∧
      (presentTexts cells = [] → presentTexts (columnCells c) = []) := by
  unfold declaredType at h
  cases hkind : attr.kind with
  | numeric =>
    simp only [hkind] at h
    rw [build_continuous] at h
    obtain ⟨hattr, hagain, xs, hxs, htexts⟩ := reals_rederive h
    refine ⟨?_, fun hnil => ?_⟩
    · have htype : declaredType (attributeOf c) = .continuous := by rw [hattr]; rfl
      rw [htype, build_continuous]
      exact hagain
    · unfold SpellsReals at hxs
      rw [hnil, List.forall₂_nil_left_iff] at hxs
      rw [htexts, hxs]
      rfl
  | nominal =>
    simp only [hkind] at h
    rw [build_finite_texts] at h
    obtain ⟨hattr, hagain, htexts⟩ := labels_rederive h
    refine ⟨?_, fun hnil => htexts.trans hnil⟩
    have htype : declaredType (attributeOf c) = .finite attr.ordered := by rw [hattr]; rfl
    have hlevels : textLevels (attributeOf c) (columnCells c) = textLevels attr cells := by
      rw [hattr]
      rfl
    rw [htype, build_finite_texts, hlevels]
    exact hagain
  | string | date =>
    simp only [hkind] at h
    rw [build_textual] at h
    obtain ⟨hattr, hagain, htexts⟩ := texts_rederive h
    refine ⟨?_, fun hnil => htexts.trans hnil⟩
    have htype : declaredType (attributeOf c) = .textual := by rw [hattr]; rfl
    rw [htype, build_textual]
    exact hagain

theorem coerceColumn_strict (attr : Attribute) (cells : List Cell) :
    coerceColumn {} attr cells = build attr cells (declaredType attr) false := by
  unfold coerceColumn
  simp

/-- **In strict mode a column is coerced to itself again.** -/
theorem coerceColumn_strict_again (h : coerceColumn {} attr cells = .ok c) :
    coerceColumn {} (attributeOf c) (columnCells c) = .ok c := by
  rw [coerceColumn_strict] at h ⊢
  exact (declared_rederive h).1

/-! ### The counting policy -/

/-- Detection with the counting policy. -/
def autoSettings (maxLevels : Int) : Settings := { mode := .auto, policy := countPolicy maxLevels }

theorem coerceColumn_auto_absent (h : presentTexts cells = []) :
    coerceColumn (autoSettings maxLevels) attr cells =
      build attr cells (declaredType attr) false := by
  have hpresent : (profile attr cells).present = 0 := by
    unfold profile
    rw [h]
    rfl
  unfold coerceColumn autoSettings
  simp [hpresent]

theorem coerceColumn_auto_present (h : presentTexts cells ≠ []) :
    coerceColumn (autoSettings maxLevels) attr cells =
      build attr cells (countPolicy maxLevels (profile attr cells))
        (profile attr cells).allNumeric := by
  have hpresent : (profile attr cells).present ≠ 0 := by
    intro hzero
    exact h (List.length_eq_zero_iff.1 hzero)
  unfold coerceColumn autoSettings
  simp [hpresent]

/-- Detection for a column of 64-bit integers. -/
theorem coerceColumn_auto_integral (h : (profile attr cells).allIntegral = true) :
    coerceColumn (autoSettings maxLevels) attr cells =
      if ((profile attr cells).distinct : Int) < maxLevels then
        (codes true (numericLevels cells)).column attr (toNumericCode (numericLevels cells)) cells
      else counts.column attr toCount cells := by
  have hnumeric := allNumeric_of_allIntegral h
  have hpolicy : countPolicy maxLevels (profile attr cells) =
      if ((profile attr cells).distinct : Int) < maxLevels then .orderedFactor else .count := by
    unfold countPolicy
    simp [hnumeric, h]
  rw [coerceColumn_auto_present (allIntegral_eq_true_iff.1 h).1, hpolicy, hnumeric]
  split
  · exact build_finite_numbers attr cells true
  · rfl

/-- Detection for a column of other numbers. -/
theorem coerceColumn_auto_real (hnumeric : (profile attr cells).allNumeric = true)
    (h : (profile attr cells).allIntegral = false) :
    coerceColumn (autoSettings maxLevels) attr cells = reals.column attr toReal cells := by
  have hpolicy : countPolicy maxLevels (profile attr cells) = .continuous := by
    unfold countPolicy
    simp [hnumeric, h]
  rw [coerceColumn_auto_present (allNumeric_eq_true_iff.1 hnumeric).1, hpolicy]
  rfl

/-- Detection for a column that does not hold numbers only. -/
theorem coerceColumn_auto_text (hne : presentTexts cells ≠ [])
    (h : (profile attr cells).allNumeric = false) :
    coerceColumn (autoSettings maxLevels) attr cells =
      if attr.kind = .nominal then
        (codes attr.ordered attr.levels).column attr (toCode attr.levels) cells
      else if ((profile attr cells).distinct : Int) < maxLevels ∧
          (profile attr cells).hasRepeats = true then
        (codes false (textLevels attr cells)).column attr (toCode (textLevels attr cells)) cells
      else texts.column attr (fun s => .ok (some s)) cells := by
  rw [coerceColumn_auto_present hne, h]
  unfold countPolicy
  simp only [h, Bool.false_eq_true, if_false]
  by_cases hkind : attr.kind = .nominal
  · have hdeclared : (profile attr cells).declared = .nominal := hkind
    have hlevels : textLevels attr cells = attr.levels := if_pos hkind
    rw [if_pos hdeclared, if_pos hkind, ← hlevels]
    exact build_finite_texts attr cells attr.ordered
  · have hdeclared : ¬(profile attr cells).declared = .nominal := hkind
    rw [if_neg hdeclared, if_neg hkind]
    simp only [Bool.and_eq_true, decide_eq_true_eq]
    split
    · exact build_finite_texts attr cells false
    · rfl

/-! ### Detecting again -/

theorem auto_again_integral (hintegral : (profile attr cells).allIntegral = true)
    (h : coerceColumn (autoSettings maxLevels) attr cells = .ok c) :
    coerceColumn (autoSettings maxLevels) (attributeOf c) (columnCells c) = .ok c := by
  have hne := (allIntegral_eq_true_iff.1 hintegral).1
  -- the written integers are spelled again, so the new profile has the same decision
  have hagain : ∀ ws, SpellsIntegers cells ws → presentTexts (columnCells c) = ws.map integerText →
      SpellsIntegers (columnCells c) ws ∧
        (profile (attributeOf c) (columnCells c)).allIntegral = true ∧
        (profile (attributeOf c) (columnCells c)).distinct = (profile attr cells).distinct := by
    intro ws hws htexts
    have hws' := hws.of_written htexts
    have hne' : presentTexts (columnCells c) ≠ [] := ne_nil_of_forall₂ hws hws' hne
    exact ⟨hws', hws'.allIntegral hne', by rw [hws'.distinct hne', hws.distinct hne]⟩
  rw [coerceColumn_auto_integral hintegral] at h
  split at h
  · next hfew =>
    obtain ⟨ws, hws⟩ := exists_spellsIntegers hintegral
    obtain ⟨-, hcolumn, htexts⟩ := numbers_rederive h hws
    obtain ⟨hws', hintegral', hdistinct⟩ := hagain ws hws htexts
    rw [coerceColumn_auto_integral hintegral', hdistinct, if_pos hfew,
      ← numericLevels_congr hws.whole hws'.whole]
    exact hcolumn
  · next hmany =>
    obtain ⟨-, hcolumn, ws, hws, htexts⟩ := counts_rederive h
    obtain ⟨-, hintegral', hdistinct⟩ := hagain ws hws htexts
    rw [coerceColumn_auto_integral hintegral', hdistinct, if_neg hmany]
    exact hcolumn

theorem auto_again_text (hne : presentTexts cells ≠ [])
    (hnumeric : (profile attr cells).allNumeric = false)
    (h : coerceColumn (autoSettings maxLevels) attr cells = .ok c) :
    coerceColumn (autoSettings maxLevels) (attributeOf c) (columnCells c) = .ok c := by
  -- texts are not rewritten, so the new profile is the old one but for the declaration
  have hagain : presentTexts (columnCells c) = presentTexts cells →
      presentTexts (columnCells c) ≠ [] ∧
        (profile (attributeOf c) (columnCells c)).allNumeric = false := by
    intro htexts
    refine ⟨by rw [htexts]; exact hne, ?_⟩
    rw [profile_congr attr htexts]
    exact hnumeric
  rw [coerceColumn_auto_text hne hnumeric] at h
  split at h
  · obtain ⟨hattr, hcolumn, htexts⟩ := labels_rederive h
    obtain ⟨hne', hnumeric'⟩ := hagain htexts
    rw [coerceColumn_auto_text hne' hnumeric', if_pos (by rw [hattr])]
    rw [hattr] at hcolumn ⊢
    exact hcolumn
  · next hkind =>
    split at h
    -- repeated texts have become a nominal attribute, which keeps its levels from now on
    · obtain ⟨hattr, hcolumn, htexts⟩ := labels_rederive h
      obtain ⟨hne', hnumeric'⟩ := hagain htexts
      rw [coerceColumn_auto_text hne' hnumeric', if_pos (by rw [hattr])]
      rw [hattr] at hcolumn ⊢
      exact hcolumn
    · next hmany =>
      obtain ⟨hattr, hcolumn, htexts⟩ := texts_rederive h
      obtain ⟨hne', hnumeric'⟩ := hagain htexts
      have hmany' : ¬(((profile (attributeOf c) (columnCells c)).distinct : Int) < maxLevels ∧
          (profile (attributeOf c) (columnCells c)).hasRepeats = true) := by
        rw [profile_congr attr htexts]
        exact hmany
      rw [coerceColumn_auto_text hne' hnumeric', if_neg (by rw [hattr]; simp), if_neg hmany']
      exact hcolumn

/-- A column of doubles is detected as one again unless it loses its range. -/
theorem auto_again_real (hnumeric : (profile attr cells).allNumeric = true)
    (hintegral : (profile attr cells).allIntegral = false) (hrange : ¬LosesRange cells)
    (h : coerceColumn (autoSettings maxLevels) attr cells = .ok c) :
    coerceColumn (autoSettings maxLevels) (attributeOf c) (columnCells c) = .ok c := by
  have hne := (allNumeric_eq_true_iff.1 hnumeric).1
  rw [coerceColumn_auto_real hnumeric hintegral] at h
  obtain ⟨-, hcolumn, xs, hxs, htexts⟩ := reals_rederive h
  have hxs' := hxs.of_written htexts
  have hne' : presentTexts (columnCells c) ≠ [] := ne_nil_of_forall₂ hxs hxs' hne
  have hintegral' : (profile (attributeOf c) (columnCells c)).allIntegral = false := by
    rw [← Bool.not_eq_true, hxs.allIntegral_of_written hne htexts,
      hxs.fits_iff_losesRange hne hintegral]
    exact hrange
  rw [coerceColumn_auto_real (hxs'.allNumeric hne') hintegral']
  exact hcolumn

/-- **In automatic mode a column that does not lose its range is coerced to itself again.** -/
theorem coerceColumn_auto_again (hrange : ¬LosesRange cells)
    (h : coerceColumn (autoSettings maxLevels) attr cells = .ok c) :
    coerceColumn (autoSettings maxLevels) (attributeOf c) (columnCells c) = .ok c := by
  by_cases hpresent : presentTexts cells = []
  · rw [coerceColumn_auto_absent hpresent] at h
    obtain ⟨hagain, habsent⟩ := declared_rederive h
    rw [coerceColumn_auto_absent (habsent hpresent)]
    exact hagain
  · cases hnumeric : (profile attr cells).allNumeric with
    | false => exact auto_again_text hpresent hnumeric h
    | true =>
      cases hintegral : (profile attr cells).allIntegral with
      | false => exact auto_again_real hnumeric hintegral hrange h
      | true => exact auto_again_integral hintegral h

/-! ### Losing the range -/

/-- A column of levels is always built from numbers: each of them has a code. -/
theorem exists_numbers_column (attr : Attribute) (ordered : Bool)
    (hall : ∀ s ∈ presentTexts cells, ∃ x, realOf? s = some x) :
    ∃ c, (codes ordered (numericLevels cells)).column attr (toNumericCode (numericLevels cells))
      cells = .ok c := by
  apply exists_column
  · intro s hs
    cases hnan : isNaNText s with
    | true => exact ⟨none, toNumericCode_of_isNaNText hnan⟩
    | false =>
      have hmem := mem_presentTexts.2 ⟨hs, hnan⟩
      obtain ⟨x, hx⟩ := hall s hmem
      obtain ⟨y, hy⟩ := exists_numberOf? hx
      obtain ⟨code, hcode⟩ := exists_codeOf? (plain_mem_numericLevels hmem hy)
      rw [toNumericCode_of_numberOf? hnan hy]
      exact ⟨some code, toCode_eq_ok_iff.2 ⟨code, rfl, hcode⟩⟩
  · intro xs
    rfl
  · intro vs hvs
    apply codesValid_codes hvs
    intro s code hs
    unfold toNumericCode at hs
    split at hs
    · exact absurd hs (by simp)
    · next label _ =>
      obtain ⟨code', hcode', hlabel⟩ := toCode_eq_ok_iff.1 hs
      obtain rfl := Option.some.inj hcode'
      exact ⟨label, hlabel⟩

/-- A column of counts is always built from 64-bit integers. -/
theorem exists_counts_column (attr : Attribute)
    (hall : ∀ s ∈ presentTexts cells, ∃ w, wholeOf? s = some w ∧ fitsInt64 w = true) :
    ∃ c, counts.column attr toCount cells = .ok c := by
  apply exists_column
  · intro s hs
    cases hnan : isNaNText s with
    | true => exact ⟨none, toCount_of_isNaNText hnan⟩
    | false =>
      obtain ⟨w, hw, hfits⟩ := hall s (mem_presentTexts.2 ⟨hs, hnan⟩)
      exact ⟨some w, toCount_of_wholeOf? hnan hw hfits⟩
  · intro xs
    rfl
  · intro vs hvs
    trivial

/-- Whatever the policy counts, a column of 64-bit integers is built, and not as one of doubles. -/
theorem exists_column_of_integral (hintegral : (profile attr cells).allIntegral = true) :
    ∃ c, coerceColumn (autoSettings maxLevels) attr cells = .ok c ∧ c.name = attr.name ∧
      c.length = cells.length ∧ c.scitype ≠ .continuous := by
  obtain ⟨-, hall⟩ := allIntegral_eq_true_iff.1 hintegral
  rw [coerceColumn_auto_integral hintegral]
  split
  · obtain ⟨c, hc⟩ := exists_numbers_column attr true fun s hs =>
      realOf?_of_wholeOf? (hall s hs).choose_spec.1
    obtain ⟨hname, hlength⟩ := name_length_of_column hc
    refine ⟨c, hc, hname, hlength, ?_⟩
    have htype : c.scitype = .orderedFactor := scitype_of_column (fun _ => rfl) hc
    rw [htype]
    decide
  · obtain ⟨c, hc⟩ := exists_counts_column attr hall
    obtain ⟨hname, hlength⟩ := name_length_of_column hc
    refine ⟨c, hc, hname, hlength, ?_⟩
    have htype : c.scitype = .count := scitype_of_column (fun _ => rfl) hc
    rw [htype]
    decide

theorem scitype_eq_of_same {c c' : Column} (h : c'.same c = true) : c'.scitype = c.scitype := by
  unfold Column.same at h
  rw [Bool.and_eq_true] at h
  obtain ⟨-, h⟩ := h
  unfold Column.scitype
  split at h
  · next hc' hc => rw [hc', hc]; rfl
  · next hc' hc => rw [hc', hc]; rfl
  · next hc' hc =>
    simp only [Bool.and_eq_true, beq_iff_eq] at h
    rw [hc', hc, h.1.1]
    rfl
  · next hc' hc => rw [hc', hc]; rfl
  · exact absurd h (by simp)

/-- **A column that loses its range is coerced to another type.** -/
theorem coerceColumn_auto_losesRange (hrange : LosesRange cells)
    (h : coerceColumn (autoSettings maxLevels) attr cells = .ok c) :
    ∃ c', coerceColumn (autoSettings maxLevels) (attributeOf c) (columnCells c) = .ok c' ∧
      c'.name = c.name ∧ c'.length = c.length ∧ c'.same c = false := by
  have hintegral : (profile attr cells).allIntegral = false := hrange.not_allIntegral
  have hnumeric : (profile attr cells).allNumeric = true := hrange.allNumeric
  have hne := (allNumeric_eq_true_iff.1 hnumeric).1
  rw [coerceColumn_auto_real hnumeric hintegral] at h
  obtain ⟨hattr, -, xs, hxs, htexts⟩ := reals_rederive h
  -- all written doubles are 64-bit integers now
  have hintegral' : (profile (attributeOf c) (columnCells c)).allIntegral = true := by
    rw [hxs.allIntegral_of_written hne htexts, hxs.fits_iff_losesRange hne hintegral]
    exact hrange
  obtain ⟨c', hc', hname, hlength, htype⟩ := exists_column_of_integral hintegral'
  refine ⟨c', hc', by rw [hname, hattr], by rw [hlength, length_columnCells], ?_⟩
  have hreal : c.scitype = .continuous := scitype_of_column (fun _ => rfl) h
  rw [← Bool.not_eq_true]
  exact fun hsame => htype ((scitype_eq_of_same hsame).trans hreal)

end DatasetCatalog.Coercion
