import DatasetCatalog.Number.Basic
import DatasetCatalog.Proofs.Number.Decimal
import DatasetCatalog.Proofs.Number.Whole

/-! # Rounding keeps the order

  A larger quotient is not rounded to a smaller double. Inside one binary order this is because
  the nearest integer grows with the quotient; between two orders the power of two that parts
  them is a double itself. So two numbers that are in order are still in order when each of them
  is replaced by the double nearest to it, although one of the two may be an integer that no
  double equals, or one beyond all finite doubles.
-/

namespace DatasetCatalog.Binary64

/-! ### The nearest integer -/

theorem roundHalfEven_mono_of_le {x y den : Nat} (h : x ≤ y) :
    roundHalfEven x den ≤ roundHalfEven y den := by
  have hq : x / den ≤ y / den := Nat.div_le_div_right h
  have hx := Nat.div_add_mod x den
  have hy := Nat.div_add_mod y den
  unfold roundHalfEven
  simp only
  rcases Nat.lt_or_eq_of_le hq with hlt | heq
  -- different integer parts: rounding goes up by one at most
  · have hup : ∀ q r : Nat, q ≤ (if 2 * r < den then q
        else if den < 2 * r then q + 1 else q + q % 2) ∧
        (if 2 * r < den then q else if den < 2 * r then q + 1 else q + q % 2) ≤ q + 1 := by
      intro q r
      split
      · omega
      split <;> omega
    exact (hup _ _).2.trans (hlt.trans_le (hup _ _).1)
  -- the same integer part: the remainders are in order
  · rw [heq] at hx ⊢
    have hr : x % den ≤ y % den := by omega
    generalize x % den = r at hr
    generalize y % den = s at hr
    split
    · split
      · omega
      split <;> omega
    split
    · rw [if_neg (by omega), if_pos (by omega)]
    · split
      · omega
      split <;> omega

/-- The nearest integer grows with the quotient. -/
theorem roundHalfEven_mono {a b c d : Nat} (hb : 0 < b) (hd : 0 < d)
    (h : (a : ℚ) / b ≤ (c : ℚ) / d) : roundHalfEven a b ≤ roundHalfEven c d := by
  have hcross : a * d ≤ c * b := by
    rw [div_le_div_iff₀ (by exact_mod_cast hb) (by exact_mod_cast hd)] at h
    exact_mod_cast h
  calc roundHalfEven a b = roundHalfEven (a * d) (b * d) := (roundHalfEven_mul a b hd).symm
    _ ≤ roundHalfEven (c * b) (b * d) := roundHalfEven_mono_of_le hcross
    _ = roundHalfEven (c * b) (d * b) := by rw [Nat.mul_comm b d]
    _ = roundHalfEven c d := roundHalfEven_mul c d hb

theorem roundHalfEven_one (n : Nat) : roundHalfEven n 1 = n := by
  have h := roundHalfEven_self n one_pos
  rwa [Nat.mul_one] at h

/-! ### Extents -/

/-- The rational with a sign and a size. -/
def signedRat (negative : Bool) (q : ℚ) : ℚ := if negative then -q else q

/-- The first power of two that is no finite double any more. -/
def beyond : ℚ := 2 ^ (1024 : Int)

/-- The value of a finite double; an infinity lies just beyond all of them. -/
def extent : Binary64 → ℚ
  | nan => 0
  | infinite negative => signedRat negative beyond
  | finite negative m e _ => signedRat negative (m * 2 ^ e)

theorem beyond_pos : 0 < beyond := by
  unfold beyond
  positivity

theorem extent_infinite (negative : Bool) : (infinite negative).extent = signedRat negative beyond :=
  rfl

theorem extent_finite (negative : Bool) (m : Nat) (e : Int) (h : Canonical m e) :
    (finite negative m e h).extent = signedRat negative (m * 2 ^ e) := rfl

theorem signedRat_true (q : ℚ) : signedRat true q = -q := rfl

theorem signedRat_false (q : ℚ) : signedRat false q = q := rfl

theorem extent_withSign (x : Binary64) :
    (x.withSign true).extent = -(x.withSign false).extent := by
  cases x with
  | nan => exact neg_zero.symm
  | infinite negative => rfl
  | finite negative m e h => rfl

theorem finite_lt {m : Nat} {e : Int} (h : Canonical m e) : (m : ℚ) * 2 ^ e < beyond := by
  have hm : (m : ℚ) < 2 ^ (53 : Int) := by exact_mod_cast h.1
  calc (m : ℚ) * 2 ^ e < 2 ^ (53 : Int) * 2 ^ e := mul_lt_mul_of_pos_right hm (by positivity)
    _ = 2 ^ (53 + e) := by rw [zpow_add₀ (by norm_num)]
    _ ≤ 2 ^ (1024 : Int) := zpow_le_zpow_right₀ (by norm_num) (by have := h.2.2.1; omega)

theorem abs_signedRat (negative : Bool) {q : ℚ} (hq : 0 ≤ q) : |signedRat negative q| = q := by
  cases negative with
  | false => exact abs_of_nonneg hq
  | true => rw [signedRat_true, abs_neg, abs_of_nonneg hq]

/-- Infinities are the extremes. -/
theorem abs_extent_le (x : Binary64) : |x.extent| ≤ beyond := by
  cases x with
  | nan => exact abs_zero.trans_le beyond_pos.le
  | infinite negative => rw [extent_infinite, abs_signedRat negative beyond_pos.le]
  | finite negative m e h =>
    rw [extent_finite, abs_signedRat negative (by positivity)]
    exact (finite_lt h).le

/-! ### Rounding a positive quotient -/

section Positive

variable {num den : Nat}

/-- The exponent that rounding chooses. -/
def roundExponent (num den : Nat) : Int := max (binaryOrder num den - 52) (-1074)

/-- The significand that rounding chooses, before one of 54 bits is halved. -/
def roundSignificand (num den : Nat) : Nat :=
  roundHalfEven (shifted num den (-roundExponent num den)).1
    (shifted num den (-roundExponent num den)).2

/-- The significand has 53 bits, or is the first number of 54; below the lowest exponent it may
    be shorter. -/
theorem roundSignificand_bounds (hn : 0 < num) (hd : 0 < den) :
    roundSignificand num den ≤ 2 ^ 53 ∧
      (-1074 < roundExponent num den → 2 ^ 52 ≤ roundSignificand num den) := by
  have hq : (0 : ℚ) < num / den := by positivity
  have horder := binaryOrder_eq_log hn hd
  unfold roundSignificand
  obtain ⟨e, he⟩ : ∃ e, roundExponent num den = e := ⟨_, rfl⟩
  rw [he]
  have hden : 0 < (shifted num den (-e)).2 := shifted_den_pos hd (-e)
  have hvalue := shifted_value num den (-e)
  unfold roundExponent at he
  have hcast : ∀ n : Nat, ((n : ℚ) / (1 : Nat)) = n := fun n => by rw [Nat.cast_one, div_one]
  constructor
  · calc roundHalfEven (shifted num den (-e)).1 (shifted num den (-e)).2
        ≤ roundHalfEven (2 ^ 53) 1 := by
          apply roundHalfEven_mono hden one_pos
          rw [hcast, hvalue, zpow_neg, ← div_eq_mul_inv, div_le_iff₀ (by positivity)]
          have hlt : (num : ℚ) / den < ((2 : Nat) : ℚ) ^ (53 + e) := by
            rw [Int.lt_zpow_iff_log_lt (by decide) hq, ← horder]
            omega
          rw [Nat.cast_ofNat, zpow_add₀ (by norm_num)] at hlt
          exact_mod_cast hlt.le
      _ = 2 ^ 53 := roundHalfEven_one _
  · intro hhigh
    calc 2 ^ 52 = roundHalfEven (2 ^ 52) 1 := (roundHalfEven_one _).symm
      _ ≤ roundHalfEven (shifted num den (-e)).1 (shifted num den (-e)).2 := by
          apply roundHalfEven_mono one_pos hden
          rw [hcast, hvalue, zpow_neg, ← div_eq_mul_inv, le_div_iff₀ (by positivity)]
          have hle : ((2 : Nat) : ℚ) ^ (52 + e) ≤ num / den := by
            rw [Int.zpow_le_iff_le_log (by decide) hq, ← horder]
            omega
          rw [Nat.cast_ofNat, zpow_add₀ (by norm_num)] at hle
          exact_mod_cast hle

/-- Where a positive quotient is rounded to: the chosen multiple of a power of two, unless that
    is beyond the finite doubles. -/
theorem extent_ofRatio (hn : 0 < num) (hd : 0 < den) :
    (ofRatio false num den).extent =
      min ((roundSignificand num den : ℚ) * 2 ^ roundExponent num den) beyond := by
  obtain ⟨hhigh, hlow⟩ := roundSignificand_bounds hn hd
  rw [ofRatio_eq false (e := roundExponent num den) rfl (m := roundSignificand num den) rfl]
  have hmin : -1074 ≤ roundExponent num den := Int.le_max_right _ _
  generalize roundExponent num den = e at *
  generalize roundSignificand num den = m at *
  simp only [Nat.pow_eq]
  split
  -- a significand of 54 bits
  · next hm =>
    subst hm
    have hvalue : ((2 ^ 53 : Nat) : ℚ) * 2 ^ e = 2 ^ (53 + e) := by
      rw [zpow_add₀ (by norm_num)]
      norm_num
    rw [hvalue]
    split
    · next hc =>
      have hhalved : ((2 ^ 52 : Nat) : ℚ) * 2 ^ (e + 1) = 2 ^ (53 + e) := by
        rw [← hvalue, zpow_add₀ (by norm_num)]
        push_cast
        ring
      have hlt := finite_lt hc
      rw [hhalved] at hlt
      rw [min_eq_left hlt.le]
      exact hhalved
    · next hc =>
      have hbig : 1024 ≤ 53 + e := by
        by_contra hle
        exact hc ⟨by decide, by omega, by omega, .inl (by decide)⟩
      exact (min_eq_right (zpow_le_zpow_right₀ (by norm_num) hbig)).symm
  · next hm =>
    split
    · next hc =>
      rw [min_eq_left (finite_lt hc).le]
      rfl
    · next hc =>
      have hbig : 972 ≤ e := by
        by_contra hle
        refine hc ⟨by simp only [Nat.pow_eq]; omega, hmin, by omega, ?_⟩
        simp only [Nat.pow_eq]
        omega
      have hle : (2 : ℚ) ^ (52 : Int) ≤ m := by exact_mod_cast hlow (by omega)
      refine (min_eq_right ?_).symm
      calc beyond ≤ 2 ^ (52 + e) := zpow_le_zpow_right₀ (by norm_num) (by omega)
        _ = 2 ^ (52 : Int) * 2 ^ e := by rw [zpow_add₀ (by norm_num)]
        _ ≤ m * 2 ^ e := mul_le_mul_of_nonneg_right hle (by positivity)

/-- **A larger positive quotient is not rounded to a smaller double.** -/
theorem extent_ofRatio_mono {num' den' : Nat} (hn : 0 < num) (hd : 0 < den) (hn' : 0 < num')
    (hd' : 0 < den') (h : (num : ℚ) / den ≤ num' / den') :
    (ofRatio false num den).extent ≤ (ofRatio false num' den').extent := by
  rw [extent_ofRatio hn hd, extent_ofRatio hn' hd']
  apply min_le_min_right
  have hlog : binaryOrder num den ≤ binaryOrder num' den' := by
    rw [binaryOrder_eq_log hn hd, binaryOrder_eq_log hn' hd']
    exact Int.log_mono_right (by positivity) h
  have hexp : roundExponent num den ≤ roundExponent num' den' := max_le_max_right _ (by omega)
  rcases Int.lt_or_eq_of_le hexp with hlt | heq
  -- the exponents differ: a power of two lies between
  · have hmin : -1074 ≤ roundExponent num den := Int.le_max_right _ _
    have hm : (roundSignificand num den : ℚ) ≤ 2 ^ (53 : Int) := by
      exact_mod_cast (roundSignificand_bounds hn hd).1
    have hm' : (2 : ℚ) ^ (52 : Int) ≤ roundSignificand num' den' := by
      exact_mod_cast (roundSignificand_bounds hn' hd').2 (by omega)
    calc (roundSignificand num den : ℚ) * 2 ^ roundExponent num den
        ≤ 2 ^ (53 : Int) * 2 ^ roundExponent num den :=
          mul_le_mul_of_nonneg_right hm (by positivity)
      _ = 2 ^ (53 + roundExponent num den) := by rw [zpow_add₀ (by norm_num)]
      _ ≤ 2 ^ (52 + roundExponent num' den') := zpow_le_zpow_right₀ (by norm_num) (by omega)
      _ = 2 ^ (52 : Int) * 2 ^ roundExponent num' den' := by rw [zpow_add₀ (by norm_num)]
      _ ≤ roundSignificand num' den' * 2 ^ roundExponent num' den' :=
          mul_le_mul_of_nonneg_right hm' (by positivity)
  -- the same exponent: the nearest integers are in order
  · have hm : roundSignificand num den ≤ roundSignificand num' den' := by
      unfold roundSignificand
      rw [heq]
      apply roundHalfEven_mono (shifted_den_pos hd _) (shifted_den_pos hd' _)
      rw [shifted_value, shifted_value]
      exact mul_le_mul_of_nonneg_right h (by positivity)
    rw [heq]
    exact mul_le_mul_of_nonneg_right (by exact_mod_cast hm) (by positivity)

theorem extent_ofRatio_nonneg (num den : Nat) : 0 ≤ (ofRatio false num den).extent := by
  rw [ofRatio_eq false rfl rfl]
  have hfinite : ∀ m e h, 0 ≤ (finite false m e h).extent := by
    intro m e h
    rw [extent_finite, signedRat_false]
    positivity
  have hinfinite : 0 ≤ (infinite false).extent := beyond_pos.le
  split
  · split
    · exact hfinite _ _ _
    · exact hinfinite
  · split
    · exact hfinite _ _ _
    · exact hinfinite

end Positive

/-! ### Signs and zero -/

/-- The double is what the rational is rounded to; zero may have either sign. -/
inductive RoundsTo : ℚ → Binary64 → Prop
  | zero (negative : Bool) : RoundsTo 0 (zero negative)
  | ratio (negative : Bool) {num den : Nat} (hn : 0 < num) (hd : 0 < den) :
      RoundsTo (signedRat negative (num / den)) (ofRatio negative num den)

theorem extent_zero (negative : Bool) : (zero negative).extent = 0 := by
  cases negative <;> simp [zero, extent, signedRat]

theorem extent_ofRatio_neg (num den : Nat) :
    (ofRatio true num den).extent = -(ofRatio false num den).extent := by
  rw [ofRatio_withSign true, extent_withSign, ← ofRatio_withSign false]

/-- **Rounding keeps the order.** -/
theorem RoundsTo.extent_le {q r : ℚ} {x y : Binary64} (hx : RoundsTo q x) (hy : RoundsTo r y)
    (h : q ≤ r) : x.extent ≤ y.extent := by
  have hpositive : ∀ {num den : Nat}, 0 < num → 0 < den → (0 : ℚ) < (num : ℚ) / den :=
    fun hn hd => div_pos (by exact_mod_cast hn) (by exact_mod_cast hd)
  cases hx with
  | zero negative =>
    rw [extent_zero]
    cases hy with
    | zero negative' => rw [extent_zero]
    | ratio negative' hn' hd' =>
      have hpos := hpositive hn' hd'
      cases negative' with
      | false => exact extent_ofRatio_nonneg _ _
      | true =>
        rw [signedRat_true] at h
        exact absurd (neg_nonneg.1 h) (not_le.2 hpos)
  | ratio negative hn hd =>
    have hpos := hpositive hn hd
    cases hy with
    | zero negative' =>
      rw [extent_zero]
      cases negative with
      | false => exact absurd h (not_le.2 hpos)
      | true =>
        rw [extent_ofRatio_neg]
        exact neg_nonpos.2 (extent_ofRatio_nonneg _ _)
    | ratio negative' hn' hd' =>
      have hpos' := hpositive hn' hd'
      cases negative with
      | false =>
        cases negative' with
        | false => exact extent_ofRatio_mono hn hd hn' hd' h
        | true => exact absurd (h.trans_lt (neg_neg_of_pos hpos')) (not_lt.2 hpos.le)
      | true =>
        rw [extent_ofRatio_neg]
        cases negative' with
        | false =>
          exact (neg_nonpos.2 (extent_ofRatio_nonneg _ _)).trans (extent_ofRatio_nonneg _ _)
        -- below zero the order of the sizes is the other way round
        | true =>
          rw [extent_ofRatio_neg]
          exact neg_le_neg (extent_ofRatio_mono hn' hd' hn hd (neg_le_neg_iff.1 h))

theorem roundsTo_ofDecimal (n : Int) :
    RoundsTo n (ofDecimal (decide (n < 0)) n.natAbs 0) := by
  rcases Nat.eq_zero_or_pos n.natAbs with h0 | hpos
  · obtain rfl := Int.natAbs_eq_zero.1 h0
    exact RoundsTo.zero _
  · have hvalue : (n : ℚ) = signedRat (decide (n < 0)) ((n.natAbs : ℚ) / (1 : Nat)) := by
      unfold signedRat
      rw [Nat.cast_one, div_one, Nat.cast_natAbs]
      split
      · next hneg =>
        rw [abs_of_neg (of_decide_eq_true hneg)]
        push_cast
        ring
      · next hnonneg =>
        rw [abs_of_nonneg (by simpa using hnonneg)]
    rw [ofDecimal_eq_ofRatio _ hpos, hvalue]
    simpa using RoundsTo.ratio (decide (n < 0)) hpos one_pos

/-- A finite double is what its value is rounded to. -/
theorem roundsTo_extent (negative : Bool) (m : Nat) (e : Int) (h : Canonical m e) :
    RoundsTo (finite negative m e h).extent (finite negative m e h) := by
  rcases Nat.eq_zero_or_pos m with rfl | hm
  · obtain rfl : e = -1074 := h.2.2.2.resolve_left (by decide)
    have hzero := RoundsTo.zero negative
    rwa [← extent_zero negative] at hzero
  · have hvalue : (finite negative m e h).extent = signedRat negative
        (((shifted m 1 e).1 : ℚ) / (shifted m 1 e).2) := by
      rw [shifted_value, Nat.cast_one, div_one]
      rfl
    rw [hvalue, ← ofRatio_of_canonical negative hm h]
    exact RoundsTo.ratio negative (shifted_num_pos hm e) (shifted_den_pos one_pos e)

/-- The value of a whole double. -/
theorem extent_of_toInt? {x : Binary64} {n : Int} (h : x.toInt? = some n) : x.extent = n := by
  cases x with
  | nan => exact absurd h nofun
  | infinite negative => exact absurd h nofun
  | finite negative m e hc =>
    have hvalue := shifted_value m 1 e
    rw [Nat.cast_one, div_one] at hvalue
    have hden : ((shifted m 1 e).2 : ℚ) ≠ 0 := by
      exact_mod_cast (shifted_den_pos one_pos e).ne'
    unfold toInt? at h
    simp only at h
    split at h
    · next hmod =>
      obtain ⟨k, hk⟩ := Nat.dvd_of_mod_eq_zero hmod
      have hquot : (shifted m 1 e).1 / (shifted m 1 e).2 = k := by
        rw [hk, Nat.mul_div_cancel_left _ (shifted_den_pos one_pos e)]
      have hkq : (m : ℚ) * 2 ^ e = k := by
        rw [← hvalue, hk]
        push_cast
        rw [mul_div_cancel_left₀ _ hden]
      obtain rfl := Option.some.inj h
      rw [extent_finite, hkq, hquot]
      cases negative with
      | false => exact (Int.cast_natCast k).symm
      | true =>
        rw [signedRat_true, if_pos rfl]
        push_cast
        rfl
    · exact absurd h nofun

/-- A double that has the value of an integer is read as that integer. -/
theorem toInt?_of_extent {x : Binary64} {n : Int} (hx : x.isNaN = false)
    (hlt : |x.extent| < beyond) (h : x.extent = n) : x.toInt? = some n := by
  cases x with
  | nan => exact absurd hx nofun
  | infinite negative =>
    rw [extent_infinite, abs_signedRat negative beyond_pos.le] at hlt
    exact absurd hlt (lt_irrefl _)
  | finite negative m e hc =>
    have hvalue := shifted_value m 1 e
    rw [Nat.cast_one, div_one] at hvalue
    have hpos : 0 < (shifted m 1 e).2 := shifted_den_pos one_pos e
    have hden : ((shifted m 1 e).2 : ℚ) ≠ 0 := by exact_mod_cast hpos.ne'
    rw [extent_finite, ← hvalue] at h
    unfold toInt?
    simp only
    generalize (shifted m 1 e).1 = a at h
    generalize (shifted m 1 e).2 = b at h hden hpos
    -- the quotient is the size of the integer, so nothing remains
    have hquot : a = n.natAbs * b := by
      have hsize : (a : ℚ) / b = n.natAbs := by
        have hnonneg : (0 : ℚ) ≤ a / b := div_nonneg (Nat.cast_nonneg a) (Nat.cast_nonneg b)
        rw [← abs_signedRat negative hnonneg, h, Nat.cast_natAbs, Int.cast_abs]
      rw [div_eq_iff hden] at hsize
      exact_mod_cast hsize
    rw [hquot, Nat.mul_mod_left, if_pos rfl, Nat.mul_div_cancel _ hpos]
    have hsigned : signedRat negative n.natAbs = n := by
      rw [← h, hquot]
      push_cast
      rw [mul_div_cancel_right₀ _ hden]
    congr 1
    cases negative with
    | false =>
      rw [signedRat_false] at hsigned
      apply Int.cast_injective (α := ℚ)
      rw [← hsigned]
      exact Int.cast_natCast _
    | true =>
      rw [signedRat_true] at hsigned
      apply Int.cast_injective (α := ℚ)
      rw [← hsigned, if_pos rfl, Int.cast_neg, Int.cast_natCast]

end DatasetCatalog.Binary64

namespace DatasetCatalog.Number

open Binary64

/-! ### The double of a number -/

/-- The double nearest to a number. -/
def nearest : Number → Binary64
  | int n => ofDecimal (decide (n < 0)) n.natAbs 0
  | float x => x

/-- The position is that of the double. -/
inductive Sits : Position → Binary64 → Prop
  | bottom : Sits .bottom (.infinite true)
  | between {num : Int} {den : Nat} {x : Binary64} (hd : 0 < den) (hx : x.extent = num / den)
      (hlt : |x.extent| < beyond) : Sits (.at num den) x
  | top : Sits .top (.infinite false)

theorem abs_extent_finite_lt (negative : Bool) (m : Nat) (e : Int) (h : Canonical m e) :
    |(finite negative m e h).extent| < beyond := by
  rw [extent_finite, abs_signedRat negative (by positivity)]
  exact finite_lt h

/-- Every double but not-a-number has a position. -/
theorem exists_sits {x : Binary64} (hx : x.isNaN = false) :
    ∃ p, (float x).position? = some p ∧ Sits p x := by
  cases x with
  | nan => exact absurd hx nofun
  | infinite negative =>
    cases negative with
    | false => exact ⟨_, rfl, .top⟩
    | true => exact ⟨_, rfl, .bottom⟩
  | finite negative m e h =>
    have hvalue := shifted_value m 1 e
    rw [Nat.cast_one, div_one] at hvalue
    refine ⟨.at (if negative then -((shifted m 1 e).1 : Int) else (shifted m 1 e).1)
      (shifted m 1 e).2, rfl, .between (shifted_den_pos one_pos e) ?_ (abs_extent_finite_lt ..)⟩
    rw [extent_finite, ← hvalue]
    cases negative with
    | false => rfl
    | true =>
      rw [signedRat_true, if_pos rfl, ← neg_div]
      push_cast
      rfl

/-- A double that is read as an integer keeps its position. -/
theorem exists_sits_integral {x : Binary64} (hx : x.isNaN = false) :
    ∃ p, (float x).integral.position? = some p ∧ Sits p x := by
  unfold integral
  simp only
  split
  · next n hn =>
    refine ⟨_, rfl, .between one_pos ?_ ?_⟩
    · rw [extent_of_toInt? hn, Nat.cast_one, div_one]
    · cases x with
      | nan => exact absurd hn nofun
      | infinite negative => exact absurd hn nofun
      | finite negative m e h => exact abs_extent_finite_lt ..
  · exact exists_sits hx

/-- Doubles in order have positions in order. -/
theorem Sits.le {p p' : Position} {x x' : Binary64} (h : Sits p x) (h' : Sits p' x')
    (hle : x.extent ≤ x'.extent) : p.le p' = true := by
  cases h with
  | bottom => rfl
  | top =>
    cases h' with
    | bottom => exact absurd hle (not_le.2 (neg_lt_self beyond_pos))
    | between hd' hx' hlt' => exact absurd hle (not_le.2 (abs_lt.1 hlt').2)
    | top => rfl
  | between hd hx hlt =>
    cases h' with
    | bottom => exact absurd hle (not_le.2 (abs_lt.1 hlt).1)
    | top => rfl
    | between hd' hx' hlt' =>
      rw [hx, hx', div_le_div_iff₀ (by exact_mod_cast hd) (by exact_mod_cast hd')] at hle
      exact decide_eq_true (by exact_mod_cast hle)

/-- The double is what the number at the position is rounded to. -/
inductive Rounded : Position → Binary64 → Prop
  | bottom : Rounded .bottom (.infinite true)
  | between {num : Int} {den : Nat} {x : Binary64} (hd : 0 < den) (hx : RoundsTo (num / den) x) :
      Rounded (.at num den) x
  | top : Rounded .top (.infinite false)

theorem rounded_nearest {a : Number} {p : Position} (h : a.position? = some p) :
    Rounded p a.nearest := by
  cases a with
  | int n =>
    obtain rfl := Option.some.inj h
    have hround := roundsTo_ofDecimal n
    rw [← div_one (n : ℚ), ← Nat.cast_one] at hround
    exact .between one_pos hround
  | float x =>
    have hx : x.isNaN = false := by
      cases x with
      | nan => exact absurd h nofun
      | infinite negative => rfl
      | finite negative m e hc => rfl
    obtain ⟨p', hp', hsits⟩ := exists_sits hx
    obtain rfl := Option.some.inj (h.symm.trans hp')
    cases hsits with
    | bottom => exact .bottom
    | top => exact .top
    | between hd hextent hlt =>
      refine .between hd ?_
      rw [← hextent]
      cases x with
      | nan => exact absurd hx nofun
      | infinite negative =>
        rw [extent_infinite, abs_signedRat negative beyond_pos.le] at hlt
        exact absurd hlt (lt_irrefl _)
      | finite negative m e hc => exact roundsTo_extent negative m e hc

theorem RoundsTo.isNaN {q : ℚ} {x : Binary64} (h : RoundsTo q x) : x.isNaN = false := by
  cases h with
  | zero negative => rfl
  | ratio negative hn hd => exact isNaN_ofRatio negative _ _

theorem Rounded.isNaN {p : Position} {x : Binary64} (h : Rounded p x) : x.isNaN = false := by
  cases h with
  | bottom => rfl
  | top => rfl
  | between hd hx => exact RoundsTo.isNaN hx

/-- Positions in order are rounded to doubles in order. -/
theorem Rounded.extent_le {p p' : Position} {x x' : Binary64} (h : Rounded p x)
    (h' : Rounded p' x') (hle : p.le p' = true) : x.extent ≤ x'.extent := by
  cases h with
  | bottom => exact (abs_le.1 (abs_extent_le x')).1
  | top =>
    cases h' with
    | bottom => exact absurd hle nofun
    | between hd' hx' => exact absurd hle nofun
    | top => exact le_rfl
  | between hd hx =>
    cases h' with
    | bottom => exact absurd hle nofun
    | top => exact (abs_le.1 (abs_extent_le x)).2
    | between hd' hx' =>
      refine hx.extent_le hx' ?_
      rw [div_le_div_iff₀ (by exact_mod_cast hd) (by exact_mod_cast hd')]
      exact_mod_cast of_decide_eq_true hle

/-! ### Comparing numbers -/

theorem exists_position {a : Number} (h : a.isNaN = false) : ∃ p, a.position? = some p := by
  cases a with
  | int n => exact ⟨_, rfl⟩
  | float x =>
    obtain ⟨p, hp, -⟩ := exists_sits h
    exact ⟨p, hp⟩

theorem isNaN_of_position? {a : Number} {p : Position} (h : a.position? = some p) :
    a.isNaN = false := by
  cases a with
  | int n => rfl
  | float x =>
    cases x with
    | nan => exact absurd h nofun
    | infinite negative => rfl
    | finite negative m e hc => rfl

theorem Position.le_total (p q : Position) : p.le q = true ∨ q.le p = true := by
  cases p with
  | bottom => exact .inl rfl
  | top => exact .inr (by cases q <;> rfl)
  | «at» a b =>
    cases q with
    | bottom => exact .inr rfl
    | top => exact .inl rfl
    | «at» c d =>
      rcases Int.le_total (a * d) (c * b) with h | h
      · exact .inl (decide_eq_true h)
      · exact .inr (decide_eq_true h)

/-- Of two numbers one is at most the other. -/
theorem le_of_not_lt {a b : Number} (ha : a.isNaN = false) (hb : b.isNaN = false)
    (h : b.lt a = false) : a.le b = true := by
  obtain ⟨p, hp⟩ := exists_position ha
  obtain ⟨q, hq⟩ := exists_position hb
  unfold lt le at h
  unfold le
  simp only [hp, hq] at h ⊢
  rcases Position.le_total p q with hle | hle
  · exact hle
  · simpa [hle] using h

theorem lt_eq_false_of_le {a b : Number} (h : a.le b = true) : b.lt a = false := by
  unfold lt
  rw [h, Bool.not_true, Bool.and_false]

/-- Only numbers are in order. -/
theorem isNaN_of_le {a b : Number} (h : a.le b = true) : a.isNaN = false ∧ b.isNaN = false := by
  unfold le at h
  split at h
  · next hp hq => exact ⟨isNaN_of_position? hp, isNaN_of_position? hq⟩
  · exact absurd h nofun

theorem lt_of_not_le {a b : Number} (ha : a.isNaN = false) (hb : b.isNaN = false)
    (h : a.le b = false) : b.lt a = true := by
  have hnot : a.lt b = false := by
    unfold lt
    rw [h, Bool.false_and]
  unfold lt
  rw [h, le_of_not_lt hb ha hnot]
  rfl

/-! ### Rounding to an integer or a double -/

theorem isNaN_integral {x : Binary64} (hx : x.isNaN = false) : (float x).integral.isNaN = false := by
  obtain ⟨r, hr, -⟩ := exists_sits_integral hx
  exact isNaN_of_position? hr

/-- Numbers in order are in order when they have been rounded. -/
theorem Rounded.integral_le {p p' : Position} {x x' : Binary64} (h : Rounded p x)
    (h' : Rounded p' x') (hle : p.le p' = true) :
    (float x).integral.le (float x').integral = true := by
  obtain ⟨r, hr, hsits⟩ := exists_sits_integral h.isNaN
  obtain ⟨r', hr', hsits'⟩ := exists_sits_integral h'.isNaN
  unfold le
  rw [hr, hr']
  exact hsits.le hsits' (h.extent_le h' hle)

/-- The double nearest to a number, as an integer when it is one: what the number is after it has
    been written and read. -/
def reread (a : Number) : Number := (float a.nearest).integral

theorem isNaN_nearest {a : Number} (h : a.isNaN = false) : a.nearest.isNaN = false := by
  cases a with
  | int n => exact isNaN_ofDecimal ..
  | float x => exact h

/-- **Numbers in order are still in order when they have been rounded.** -/
theorem reread_le {a b : Number} (h : a.le b = true) : a.reread.le b.reread = true := by
  unfold le at h
  split at h
  · next p q hp hq => exact (rounded_nearest hp).integral_le (rounded_nearest hq) h
  · exact absurd h nofun

/-- An integer that some double equals is the value of the double nearest to it. -/
theorem toInt?_nearest {x : Binary64} {n : Int} (h : x.toInt? = some n) :
    (int n).nearest.toInt? = some n := by
  cases x with
  | nan => exact absurd h nofun
  | infinite negative => exact absurd h nofun
  | finite negative m e hc =>
    have hround := roundsTo_extent negative m e hc
    have hextent := extent_of_toInt? h
    rw [hextent] at hround
    have hle := (roundsTo_ofDecimal n).extent_le hround le_rfl
    have hge := hround.extent_le (roundsTo_ofDecimal n) le_rfl
    have heq : (int n).nearest.extent = n := (le_antisymm hle hge).trans hextent
    refine toInt?_of_extent (isNaN_nearest rfl) ?_ heq
    rw [heq, ← hextent]
    exact abs_extent_finite_lt negative m e hc

/-- Some double equals the number. -/
def IsDouble : Number → Prop
  | int n => ∃ x : Binary64, x.toInt? = some n
  | float _ => True

theorem isNaN_reread {a : Number} (h : a.isNaN = false) : a.reread.isNaN = false :=
  isNaN_integral (isNaN_nearest h)

theorem reread_int {n : Int} (h : (int n).IsDouble) : (int n).reread = int n := by
  obtain ⟨x, hx⟩ := h
  unfold reread integral
  simp only [toInt?_nearest hx]

/-- **A number is read as one of the same value exactly when some double equals it.** -/
theorem reread_same_iff {a : Number} (h : a.isNaN = false) :
    a.reread.same a = true ↔ a.IsDouble := by
  obtain ⟨p, hp, hsits⟩ := exists_sits_integral (isNaN_nearest h)
  have hreread : a.reread.position? = some p := hp
  cases a with
  | int n =>
    constructor
    · intro hsame
      unfold same le at hsame
      rw [hreread] at hsame
      obtain ⟨hle, hge⟩ := Bool.and_eq_true_iff.1 hsame
      have hnan := isNaN_nearest h
      generalize (int n).nearest = x at hsits hnan
      -- an infinity has no integer beside it, and a finite double the one that it equals
      cases hsits with
      | bottom => exact absurd hge nofun
      | top => exact absurd hle nofun
      | between hd hx hlt =>
        refine ⟨x, toInt?_of_extent hnan hlt (hx.trans ?_)⟩
        have hle' := of_decide_eq_true hle
        have hge' := of_decide_eq_true hge
        rw [div_eq_iff (by exact_mod_cast hd.ne')]
        exact_mod_cast le_antisymm (by simpa using hle') (by simpa using hge')
    · intro hdouble
      rw [reread_int hdouble]
      simp [same, le, position?, Position.le]
  | float x =>
    obtain ⟨q, hq, hsits'⟩ := exists_sits h
    have hboth : (float x).reread.same (float x) = true := by
      unfold same le
      rw [hreread, hq]
      simp only [Bool.and_eq_true]
      exact ⟨hsits.le hsits' le_rfl, hsits'.le hsits le_rfl⟩
    exact iff_of_true hboth trivial

/-- An integer stays what it is exactly when some double equals it. -/
theorem reread_eq_int_iff (n : Int) :
    (int n).reread = .int n ↔ (int n).IsDouble := by
  refine ⟨fun h => ⟨(int n).nearest, ?_⟩, reread_int⟩
  unfold reread integral at h
  dsimp only at h
  split at h
  · next k hk => rw [hk, int.inj h]
  · exact absurd h nofun

/-- Integers below `2 ^ 53` are doubles. -/
theorem isDouble_of_small {n : Int} (h : n.natAbs < 2 ^ 53) : (int n).IsDouble := by
  refine ⟨_, (toInt?_ofDecimal_of_small (decide (n < 0)) h).trans (congrArg some ?_)⟩
  unfold signedNat
  simp only [decide_eq_true_eq]
  split <;> omega

/-- An integer is converted to the double nearest to it, unless that is an infinity. -/
theorem ofInt?_cases (n : Int) : Binary64.ofInt? n = some (int n).nearest ∨
    Binary64.ofInt? n = none ∧ ∃ negative, (int n).nearest = .infinite negative := by
  have hnearest : (if n = 0 then Binary64.zero false else ofRatio (decide (n < 0)) n.natAbs 1) =
      (int n).nearest := by
    by_cases hn : n = 0
    · subst hn
      rfl
    · have hdecimal := ofDecimal_eq_ofRatio (decide (n < 0)) (Int.natAbs_pos.2 hn) 0
      rw [if_neg hn]
      exact (hdecimal.trans (congrArg₂ (ofRatio _) (Nat.mul_one _) rfl)).symm
  unfold Binary64.ofInt?
  rw [hnearest]
  cases (int n).nearest with
  | infinite negative => exact .inr ⟨rfl, negative, rfl⟩
  | _ => exact .inl rfl

end DatasetCatalog.Number
