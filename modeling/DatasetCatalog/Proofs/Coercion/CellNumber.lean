import DatasetCatalog.Coercion.CellNumber
import DatasetCatalog.Proofs.Number.Value

/-! # Numbers in cells, written and read

  What a column writes for its numbers is read as those numbers: the text of a double as the
  double, the text of a 64-bit integer as the integer, and neither says that there is no number.
  The whole number that a text spells and the value of the double that it spells differ only when
  the numeral is an integer numeral that has to be rounded.
-/

namespace DatasetCatalog.Coercion

open Text Numeral Binary64

/-! ### Doubles of texts -/

theorem realOf?_eq_some_iff {s : String} {x : Binary64} :
    realOf? s = some x ↔ ofText? s.toList = some x ∧ x.isNaN = false := by
  unfold realOf?
  cases ofText? s.toList with
  | none => simp
  | some y =>
    cases hy : y.isNaN with
    | true =>
      simp only [hy, if_true, Option.some.injEq]
      exact iff_of_false nofun fun h => absurd (h.1 ▸ hy) (by simp [h.2])
    | false =>
      simp only [hy, Bool.false_eq_true, if_false, Option.some.injEq]
      exact ⟨fun h => ⟨h, h ▸ hy⟩, And.left⟩

theorem isNaN_of_realOf? {s : String} {x : Binary64} (h : realOf? s = some x) :
    x.isNaN = false :=
  (realOf?_eq_some_iff.1 h).2

/-- A whole number is a number. -/
theorem realOf?_of_wholeOf? {s : String} {w : Int} (h : wholeOf? s = some w) :
    ∃ x, realOf? s = some x := by
  unfold wholeOf? at h
  split at h
  · next n hn =>
    obtain ⟨negative, digits, -, htext⟩ := ofText?_of_integer hn
    refine ⟨ofDecimal negative digits 0, ?_⟩
    unfold realOf?
    rw [htext]
    simp [isNaN_ofDecimal]
  · obtain ⟨x, hx, -⟩ := Option.bind_eq_some_iff.1 h
    exact ⟨x, hx⟩

theorem toInt?_of_wholeOf?_eq_none {s : String} {x : Binary64} (hw : wholeOf? s = none)
    (hx : realOf? s = some x) : x.toInt? = none := by
  unfold wholeOf? at hw
  split at hw
  · exact absurd hw (by simp)
  · rwa [hx] at hw

/-- The double of a text is a 64-bit integer when the whole number of the text is rounded to
    one. -/
theorem fits_real_iff {s : String} {x : Binary64} {w : Int} (hx : realOf? s = some x)
    (hw : wholeOf? s = some w) :
    (∃ v, x.toInt? = some v ∧ fitsInt64 v = true) ↔ RoundsIntoInt64 w := by
  unfold wholeOf? at hw
  split at hw
  · next n hn =>
    obtain rfl := Option.some.inj hw
    obtain ⟨negative, digits, hsign, htext⟩ := ofText?_of_integer hn
    have hreal : x = ofDecimal negative digits 0 := by
      unfold realOf? at hx
      rw [htext] at hx
      simpa [isNaN_ofDecimal, eq_comm] using hx
    rw [hreal, fits_ofDecimal_iff, hsign]
    rfl
  · rw [hx, Option.bind_some] at hw
    rw [← fits_iff_of_toInt? hw, hw]
    simp

/-! ### Written numbers -/

theorem isNaNText_of_chars {s : String} (h : ∀ c ∈ s.toList, isNumeralChar c = true) :
    isNaNText s = false := by
  unfold isNaNText
  rw [strip_of_isNumeralChar h, lower_of_isNumeralChar h, beq_eq_false_iff_ne]
  intro hs
  exact absurd (h 'a' (by rw [hs]; decide)) (by decide)

section Written

variable {x : Binary64} {n : Int}

theorem isNaNText_write (hx : x.isNaN = false) : isNaNText x.write = false :=
  isNaNText_of_chars (chars_write hx)

theorem realOf?_write (hx : x.isNaN = false) : realOf? x.write = some x := by
  unfold realOf?
  rw [ofText?_write hx]
  simp [hx]

theorem wholeOf?_write (hx : x.isNaN = false) : wholeOf? x.write = x.toInt? := by
  unfold wholeOf?
  rw [integer_write hx, realOf?_write hx]
  rfl

theorem isNaNText_integerText (n : Int) : isNaNText (integerText n) = false :=
  isNaNText_of_chars (chars_integerText n)

theorem wholeOf?_integerText (hn : fitsInt64 n = true) : wholeOf? (integerText n) = some n := by
  have hsmall : n.natAbs < 10 ^ digitLimit := by
    have hpow : 10 ^ 19 ≤ 10 ^ digitLimit := Nat.pow_le_pow_right (by decide) (by decide)
    have hrange := fitsInt64_iff.1 hn
    omega
  unfold wholeOf?
  rw [integer_integerText hsmall]

end Written

theorem numberOf?_of_wholeOf? {s : String} {w : Int} (h : wholeOf? s = some w) :
    numberOf? s = some (.int w) := by
  unfold numberOf?
  rw [h]

/-- What a cell is read as is told apart from other numbers by its place and by its label. -/
theorem reduced_of_numberOf? {s : String} {y : Number} (h : numberOf? s = some y) : y.Reduced := by
  unfold numberOf? at h
  split at h
  · obtain rfl := Option.some.inj h
    trivial
  · next hwhole =>
    obtain ⟨x, hx, rfl⟩ := Option.map_eq_some_iff.1 h
    exact ⟨isNaN_of_realOf? hx, toInt?_of_wholeOf?_eq_none hwhole hx⟩

theorem exists_numberOf? {s : String} {x : Binary64} (h : realOf? s = some x) :
    ∃ y, numberOf? s = some y := by
  unfold numberOf?
  split
  · exact ⟨_, rfl⟩
  · exact ⟨.float x, by rw [h]; rfl⟩

end DatasetCatalog.Coercion
