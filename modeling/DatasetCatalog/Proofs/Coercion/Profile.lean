import DatasetCatalog.Coercion.Policy
import DatasetCatalog.Proofs.Coercion.CellNumber
import DatasetCatalog.Proofs.Forall2

/-! # Profiles of numbers

  A profile sees the present texts of a column only, and of numbers only their values. A column
  whose texts are replaced by other spellings of the same 64-bit integers has the same profile. A
  column of doubles that is written again has one, too, unless every number of it is rounded into
  the 64-bit range and one of them was outside before.
-/

namespace DatasetCatalog.Coercion

open Arff Binary64

/-! ### Spelled numbers -/

section Profiles

variable {attr attr' : Attribute} {cells cells' : List Cell} {ws : List Int} {xs : List Binary64}

/-- The present texts spell these doubles. -/
def SpellsReals (cells : List Cell) (xs : List Binary64) : Prop :=
  List.Forall₂ (fun s x => realOf? s = some x) (presentTexts cells) xs

/-- The present texts spell these integers, which fit into 64 bits. -/
def SpellsIntegers (cells : List Cell) (ws : List Int) : Prop :=
  List.Forall₂ (fun s w => wholeOf? s = some w ∧ fitsInt64 w = true) (presentTexts cells) ws

/-- Every present number is rounded into the range of the 64-bit integers, and one of them lies
    below that range. -/
def LosesRange (cells : List Cell) : Prop :=
  (∀ s ∈ presentTexts cells, ∃ w, wholeOf? s = some w ∧ RoundsIntoInt64 w) ∧
    ∃ s ∈ presentTexts cells, ∃ w, wholeOf? s = some w ∧ w < -2 ^ 63

theorem profile_congr (attr : Attribute) (h : presentTexts cells' = presentTexts cells) :
    profile attr' cells' = { profile attr cells with
      name := attr'.name, declared := attr'.kind, ordered := attr'.ordered } := by
  unfold profile
  rw [h]

theorem allNumeric_eq_true_iff : (profile attr cells).allNumeric = true ↔
    presentTexts cells ≠ [] ∧ ∀ s ∈ presentTexts cells, ∃ x, realOf? s = some x := by
  unfold profile
  simp [Option.isSome_iff_exists]

theorem allIntegral_eq_true_iff : (profile attr cells).allIntegral = true ↔
    presentTexts cells ≠ [] ∧
      ∀ s ∈ presentTexts cells, ∃ w, wholeOf? s = some w ∧ fitsInt64 w = true := by
  have hwhole : ∀ s, ((wholeOf? s).map fitsInt64).getD false = true ↔
      ∃ w, wholeOf? s = some w ∧ fitsInt64 w = true := by
    intro s
    cases wholeOf? s <;> simp
  have hintegral : (profile attr cells).allIntegral = ((profile attr cells).allNumeric &&
      (presentTexts cells).all fun s => ((wholeOf? s).map fitsInt64).getD false) := rfl
  rw [hintegral, Bool.and_eq_true, allNumeric_eq_true_iff, List.all_eq_true]
  simp only [hwhole]
  constructor
  · rintro ⟨⟨hne, -⟩, hall⟩
    exact ⟨hne, hall⟩
  · rintro ⟨hne, hall⟩
    refine ⟨⟨hne, fun s hs => ?_⟩, hall⟩
    obtain ⟨w, hw, -⟩ := hall s hs
    exact realOf?_of_wholeOf? hw

theorem allNumeric_of_allIntegral (h : (profile attr cells).allIntegral = true) :
    (profile attr cells).allNumeric = true := by
  obtain ⟨hne, hall⟩ := allIntegral_eq_true_iff.1 h
  refine allNumeric_eq_true_iff.2 ⟨hne, fun s hs => ?_⟩
  obtain ⟨w, hw, -⟩ := hall s hs
  exact realOf?_of_wholeOf? hw

/-- What is counted: integers by their values, other numbers as doubles, and texts as they are. -/
theorem distinct_eq : (profile attr cells).distinct =
    if (profile attr cells).allIntegral then
      (dedupBy (· == ·) ((presentTexts cells).filterMap wholeOf?)).length
    else if (profile attr cells).allNumeric then
      (dedupBy sameReal ((presentTexts cells).filterMap realOf?)).length
    else (dedupBy (· == ·) (presentTexts cells)).length := rfl

/-! ### Integers -/

theorem exists_spellsIntegers (h : (profile attr cells).allIntegral = true) :
    ∃ ws, SpellsIntegers cells ws := by
  obtain ⟨-, hall⟩ := allIntegral_eq_true_iff.1 h
  exact exists_forall₂ hall

theorem SpellsIntegers.whole (h : SpellsIntegers cells ws) :
    List.Forall₂ (fun s w => wholeOf? s = some w) (presentTexts cells) ws :=
  h.imp fun _ _ hw => hw.1

theorem SpellsIntegers.allIntegral (h : SpellsIntegers cells ws) (hne : presentTexts cells ≠ []) :
    (profile attr cells).allIntegral = true := by
  refine allIntegral_eq_true_iff.2 ⟨hne, fun s hs => ?_⟩
  obtain ⟨w, -, hw⟩ := exists_of_mem_forall₂ h hs
  exact ⟨w, hw⟩

/-- How many integers differ does not depend on how they are spelled. -/
theorem SpellsIntegers.distinct (h : SpellsIntegers cells ws) (hne : presentTexts cells ≠ []) :
    (profile attr cells).distinct = (dedupBy (· == ·) ws).length := by
  have hws : (presentTexts cells).filterMap wholeOf? = ws := filterMap_eq_of_forall₂ h.whole
  rw [distinct_eq, if_pos (h.allIntegral hne), hws]

/-- Integers that are written again are spelled again. -/
theorem SpellsIntegers.of_written (h : SpellsIntegers cells ws)
    (htexts : presentTexts cells' = ws.map integerText) : SpellsIntegers cells' ws := by
  unfold SpellsIntegers at h ⊢
  rw [htexts, List.forall₂_map_left_iff, List.forall₂_same]
  intro w hw
  obtain ⟨s, -, -, hfits⟩ := exists_of_forall₂_mem h hw
  exact ⟨wholeOf?_integerText hfits, hfits⟩

/-! ### Doubles -/

theorem SpellsReals.isNaN (h : SpellsReals cells xs) : ∀ x ∈ xs, x.isNaN = false := by
  intro x hx
  obtain ⟨s, -, hs⟩ := exists_of_forall₂_mem h hx
  exact isNaN_of_realOf? hs

/-- Doubles that are written again are spelled again. -/
theorem SpellsReals.of_written (h : SpellsReals cells xs)
    (htexts : presentTexts cells' = xs.map Binary64.write) : SpellsReals cells' xs := by
  have hnan := h.isNaN
  unfold SpellsReals
  rw [htexts, List.forall₂_map_left_iff, List.forall₂_same]
  exact fun x hx => realOf?_write (hnan x hx)

theorem SpellsReals.allNumeric (h : SpellsReals cells xs) (hne : presentTexts cells ≠ []) :
    (profile attr cells).allNumeric = true := by
  refine allNumeric_eq_true_iff.2 ⟨hne, fun s hs => ?_⟩
  obtain ⟨x, -, hx⟩ := exists_of_mem_forall₂ h hs
  exact ⟨x, hx⟩

/-- Written doubles are 64-bit integers when their values are. -/
theorem SpellsReals.allIntegral_of_written (h : SpellsReals cells xs)
    (hne : presentTexts cells ≠ []) (htexts : presentTexts cells' = xs.map Binary64.write) :
    (profile attr' cells').allIntegral = true ↔
      ∀ x ∈ xs, ∃ v, x.toInt? = some v ∧ fitsInt64 v = true := by
  have hnan := h.isNaN
  have hlength : (presentTexts cells).length = xs.length := h.length_eq
  have hxs : xs ≠ [] := by
    intro hnil
    rw [hnil, List.length_nil] at hlength
    exact hne (List.length_eq_zero_iff.1 hlength)
  rw [allIntegral_eq_true_iff, htexts]
  constructor
  · rintro ⟨-, hall⟩ x hx
    have := hall x.write (List.mem_map_of_mem hx)
    rwa [wholeOf?_write (hnan x hx)] at this
  · intro hall
    refine ⟨by simpa using hxs, fun s hs => ?_⟩
    obtain ⟨x, hx, rfl⟩ := List.mem_map.1 hs
    rw [wholeOf?_write (hnan x hx)]
    exact hall x hx

/-! ### Losing the range -/

theorem LosesRange.allNumeric (h : LosesRange cells) : (profile attr cells).allNumeric = true := by
  obtain ⟨hall, s, hs, -⟩ := h
  refine allNumeric_eq_true_iff.2 ⟨List.ne_nil_of_mem hs, fun r hr => ?_⟩
  obtain ⟨w, hw, -⟩ := hall r hr
  exact realOf?_of_wholeOf? hw

theorem LosesRange.not_allIntegral (h : LosesRange cells) :
    (profile attr cells).allIntegral = false := by
  obtain ⟨-, s, hs, w, hw, hlow⟩ := h
  rw [← Bool.not_eq_true, allIntegral_eq_true_iff]
  rintro ⟨-, hall⟩
  obtain ⟨w', hw', hfits⟩ := hall s hs
  obtain rfl := Option.some.inj (hw.symm.trans hw')
  have hrange := fitsInt64_iff.1 hfits
  omega

/-- **When the doubles of a column that is not integral become integral.** -/
theorem SpellsReals.fits_iff_losesRange (h : SpellsReals cells xs) (hne : presentTexts cells ≠ [])
    (hnot : (profile attr cells).allIntegral = false) :
    (∀ x ∈ xs, ∃ v, x.toInt? = some v ∧ fitsInt64 v = true) ↔ LosesRange cells := by
  constructor
  · intro hfits
    -- every text spells a whole number that is rounded into the range
    have hrounds : ∀ s ∈ presentTexts cells, ∃ w, wholeOf? s = some w ∧ RoundsIntoInt64 w := by
      intro s hs
      obtain ⟨x, hx, hreal⟩ := exists_of_mem_forall₂ h hs
      cases hw : wholeOf? s with
      | none =>
        obtain ⟨v, hv, -⟩ := hfits x hx
        rw [toInt?_of_wholeOf?_eq_none hw hreal] at hv
        exact absurd hv (by simp)
      | some w => exact ⟨w, rfl, (fits_real_iff hreal hw).1 (hfits x hx)⟩
    refine ⟨hrounds, ?_⟩
    -- if none of them lay below the range, all would be 64-bit integers from the start
    by_contra hlow
    rw [← Bool.not_eq_true, allIntegral_eq_true_iff] at hnot
    refine hnot ⟨hne, fun s hs => ?_⟩
    obtain ⟨w, hw, hround⟩ := hrounds s hs
    have hge : ¬w < -2 ^ 63 := fun hlt => hlow ⟨s, hs, w, hw, hlt⟩
    unfold RoundsIntoInt64 at hround
    exact ⟨w, hw, fitsInt64_iff.2 ⟨by omega, by omega⟩⟩
  · rintro ⟨hrounds, -⟩ x hx
    obtain ⟨s, hs, hreal⟩ := exists_of_forall₂_mem h hx
    obtain ⟨w, hw, hround⟩ := hrounds s hs
    exact (fits_real_iff hreal hw).2 hround

end Profiles

end DatasetCatalog.Coercion
