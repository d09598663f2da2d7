import DatasetCatalog.Proofs.Number.Decimal
import DatasetCatalog.Table.Entry

/-! # Rounding whole numbers

  What double a natural number is rounded to, near the ends of the 64-bit integers. Below `2 ^ 53`
  rounding changes nothing; from there on the spacing of the doubles grows with the number, so
  that some whole numbers outside the 64-bit range are rounded into it and some inside are
  rounded out of it.
-/

namespace DatasetCatalog.Binary64

/-- The integer with a sign and a size. -/
def signedNat (negative : Bool) (n : Nat) : Int := if negative then -(n : Int) else n

theorem toInt?_of_natural_exponent (negative : Bool) {m k : Nat} {e : Int} (h : Canonical m e)
    (he : e = k) : (finite negative m e h).toInt? = some (signedNat negative (m * 2 ^ k)) := by
  subst he
  have hneg : (-(k : Int)).toNat = 0 := by omega
  unfold toInt? shifted signedNat
  simp [hneg, Nat.mod_one]

theorem toInt?_of_negative_exponent (negative : Bool) {m n k : Nat} {e : Int} (h : Canonical m e)
    (he : e = -k) (hm : m = n * 2 ^ k) :
    (finite negative m e h).toInt? = some (signedNat negative n) := by
  subst he hm
  have hneg : (-(k : Int)).toNat = 0 := by omega
  unfold toInt? shifted signedNat
  simp [hneg]

/-! ### Small numbers -/

/-- Below `2 ^ 53` every whole number is a double. -/
theorem toInt?_ofDecimal_of_small (negative : Bool) {n : Nat} (hn : n < 2 ^ 53) :
    (ofDecimal negative n 0).toInt? = some (signedNat negative n) := by
  rcases Nat.eq_zero_or_pos n with rfl | hpos
  · exact toInt?_of_negative_exponent negative (k := 1074) _ rfl (Nat.zero_mul _).symm
  · have hlog : n.log2 < 53 := (Nat.log2_lt hpos.ne').2 hn
    obtain ⟨k, hk⟩ : ∃ k, k + n.log2 = 52 := ⟨52 - n.log2, by omega⟩
    have hlow : 2 ^ 52 ≤ n * 2 ^ k := by
      calc 2 ^ 52 = 2 ^ n.log2 * 2 ^ k := by rw [← Nat.pow_add]; congr 1; omega
        _ ≤ n * 2 ^ k := Nat.mul_le_mul_right _ (Nat.log2_self_le hpos.ne')
    have hhigh : n * 2 ^ k < 2 ^ 53 := by
      calc n * 2 ^ k < 2 ^ (n.log2 + 1) * 2 ^ k :=
            Nat.mul_lt_mul_of_pos_right Nat.lt_log2_self (Nat.two_pow_pos k)
        _ = 2 ^ 53 := by rw [← Nat.pow_add]; congr 1; omega
    have hcanonical : Canonical (n * 2 ^ k) (-k) := ⟨hhigh, by omega, by omega, .inl hlow⟩
    have hvalue : (n : ℚ) * 10 ^ (0 : Int) = (n * 2 ^ k : Nat) * 2 ^ (-(k : Int)) := by
      push_cast
      rw [zpow_neg, zpow_natCast, mul_assoc, mul_inv_cancel₀ (by positivity)]
    rw [ofDecimal_of_canonical negative (Nat.mul_pos hpos (Nat.two_pow_pos k)) hcanonical hvalue]
    exact toInt?_of_negative_exponent negative hcanonical rfl rfl

/-! ### Large numbers -/

theorem roundHalfEven_bounds (num : Nat) {den a b : Nat} (hd : 0 < den) (ha : a * den ≤ num)
    (hb : num < b * den) : a ≤ roundHalfEven num den ∧ roundHalfEven num den ≤ b := by
  have hlow : a ≤ num / den := (Nat.le_div_iff_mul_le hd).2 ha
  have hhigh : num / den < b := (Nat.div_lt_iff_lt_mul hd).2 hb
  unfold roundHalfEven
  simp only
  split
  · omega
  split <;> omega

/-- The bounds of a number of `53 + k` bits show its binary order. -/
theorem binaryOrder_of_bounds {n k : Nat} (hlow : 2 ^ 52 * 2 ^ k ≤ n)
    (hhigh : n < 2 ^ 53 * 2 ^ k) : binaryOrder n 1 = 52 + k := by
  have hn : 0 < n := Nat.lt_of_lt_of_le (Nat.mul_pos (by decide) (Nat.two_pow_pos k)) hlow
  have hlog : Nat.log 2 n = 52 + k := by
    apply Nat.log_eq_of_pow_le_of_lt_pow
    · rwa [Nat.pow_add]
    · rwa [Nat.add_right_comm, Nat.pow_add]
  rw [binaryOrder_eq_log hn (by decide), Nat.cast_one, div_one, Int.log_natCast]
  omega

/-- From `2 ^ 52` on, the value is rounded to a multiple of a power of two; only far outside
    the range of the 64-bit integers it may become infinite. -/
theorem toInt?_ofDecimal_of_large (negative : Bool) {n k : Nat} (hlow : 2 ^ 52 * 2 ^ k ≤ n)
    (hhigh : n < 2 ^ 53 * 2 ^ k) :
    (ofDecimal negative n 0).toInt? =
        some (signedNat negative (roundHalfEven n (2 ^ k) * 2 ^ k)) ∨
      970 < k ∧ (ofDecimal negative n 0).toInt? = none := by
  have hk : 0 < 2 ^ k := Nat.two_pow_pos k
  have hn : 0 < n := Nat.lt_of_lt_of_le (Nat.mul_pos (by decide) hk) hlow
  obtain ⟨hmlow, hmhigh⟩ := roundHalfEven_bounds n hk hlow hhigh
  have hratio : ofDecimal negative n 0 = ofRatio negative n 1 := by
    rw [ofDecimal_eq_ofRatio negative hn]
    simp
  have hmax : max (binaryOrder n 1 - 52) (-1074) = (k : Int) := by
    rw [binaryOrder_of_bounds hlow hhigh]
    omega
  have hshift : shifted n 1 (-(k : Int)) = (n, 2 ^ k) := by
    have hneg : (-(k : Int)).toNat = 0 := by omega
    simp [shifted, hneg]
  have hcast : (Nat.pow 2 52) * 2 ^ (k + 1) = 2 ^ 53 * 2 ^ k := by
    rw [Nat.pow_eq, Nat.pow_succ 2 k]
    omega
  rw [hratio, ofRatio_eq negative hmax rfl, hshift]
  generalize roundHalfEven n (2 ^ k) = m at hmlow hmhigh
  split
  · next hm =>
    -- the significand has grown to 54 bits and is halved
    split
    · next hc =>
      left
      rw [toInt?_of_natural_exponent negative hc (k := k + 1) (by push_cast; rfl), hcast, hm]
      rfl
    · next hc =>
      right
      refine ⟨?_, rfl⟩
      by_contra hle
      exact hc ⟨by decide, by omega, by omega, .inl (by decide)⟩
  · next hm =>
    split
    · next hc =>
      left
      exact toInt?_of_natural_exponent negative hc rfl
    · next hc =>
      right
      refine ⟨?_, rfl⟩
      by_contra hle
      exact hc ⟨Nat.lt_of_le_of_ne hmhigh hm, by omega, by omega, .inl hmlow⟩

/-! ### The ends of the 64-bit integers -/

/-- The whole numbers that are rounded into the range of the 64-bit integers. Below `-2 ^ 63` the
    doubles lie `2 ^ 11` apart and `-2 ^ 63` has an even significand; below `2 ^ 63` they lie
    `2 ^ 10` apart, and half a step below `2 ^ 63` the tie goes up. -/
def RoundsIntoInt64 (w : Int) : Prop := -(2 ^ 63 + 2 ^ 10) ≤ w ∧ w < 2 ^ 63 - 2 ^ 9

theorem roundHalfEven_1024 (n : Nat) (hlow : 2 ^ 62 ≤ n) (hhigh : n < 2 ^ 63) :
    (roundHalfEven n (2 ^ 10) * 2 ^ 10 < 2 ^ 63 ↔ n < 2 ^ 63 - 2 ^ 9) := by
  have hdiv := Nat.div_add_mod n 1024
  have hmod := Nat.mod_lt n (by decide : 1024 > 0)
  unfold roundHalfEven
  simp only [Nat.reducePow]
  generalize n / 1024 = q at *
  generalize n % 1024 = r at *
  split
  · omega
  split <;> omega

theorem roundHalfEven_2048 (n : Nat) (hlow : 2 ^ 63 ≤ n) (hhigh : n < 2 ^ 64) :
    (roundHalfEven n (2 ^ 11) * 2 ^ 11 ≤ 2 ^ 63 ↔ n ≤ 2 ^ 63 + 2 ^ 10) := by
  have hdiv := Nat.div_add_mod n 2048
  have hmod := Nat.mod_lt n (by decide : 2048 > 0)
  unfold roundHalfEven
  simp only [Nat.reducePow]
  generalize n / 2048 = q at *
  generalize n % 2048 = r at *
  split
  · omega
  split <;> omega

/-- How a rounded number compares with `2 ^ 63`. -/
theorem rounded_compare {n k : Nat} (hlow : 2 ^ 52 * 2 ^ k ≤ n) (hhigh : n < 2 ^ 53 * 2 ^ k) :
    (roundHalfEven n (2 ^ k) * 2 ^ k ≤ 2 ^ 63 ↔ n ≤ 2 ^ 63 + 2 ^ 10) ∧
      (roundHalfEven n (2 ^ k) * 2 ^ k < 2 ^ 63 ↔ n < 2 ^ 63 - 2 ^ 9) := by
  have hk : 0 < 2 ^ k := Nat.two_pow_pos k
  obtain ⟨hmlow, hmhigh⟩ := roundHalfEven_bounds n hk hlow hhigh
  have hvlow := Nat.mul_le_mul_right (2 ^ k) hmlow
  have hvhigh := Nat.mul_le_mul_right (2 ^ k) hmhigh
  -- far below and far above `2 ^ 63` the bounds decide, next to it the rounding does
  have hcases : k ≤ 9 ∨ k = 10 ∨ k = 11 ∨ 12 ≤ k := by omega
  rcases hcases with hsmall | rfl | rfl | hlarge
  · have : 2 ^ k ≤ 2 ^ 9 := Nat.pow_le_pow_right (by decide) hsmall
    omega
  · have := roundHalfEven_1024 n hlow hhigh
    omega
  · have := roundHalfEven_2048 n hlow hhigh
    omega
  · have : 2 ^ 12 ≤ 2 ^ k := Nat.pow_le_pow_right (by decide) hlarge
    omega

theorem fitsInt64_iff {n : Int} : fitsInt64 n = true ↔ -2 ^ 63 ≤ n ∧ n < 2 ^ 63 := by
  unfold fitsInt64
  rw [Bool.and_eq_true, decide_eq_true_eq, decide_eq_true_eq]
  omega

theorem fitsInt64_signedNat (negative : Bool) (v : Nat) :
    fitsInt64 (signedNat negative v) = true ↔ if negative then v ≤ 2 ^ 63 else v < 2 ^ 63 := by
  rw [fitsInt64_iff]
  unfold signedNat
  cases negative
  · simp only [Bool.false_eq_true, if_false]
    omega
  · simp only [if_true]
    omega

theorem roundsIntoInt64_signedNat (negative : Bool) (n : Nat) :
    RoundsIntoInt64 (signedNat negative n) ↔
      if negative then n ≤ 2 ^ 63 + 2 ^ 10 else n < 2 ^ 63 - 2 ^ 9 := by
  unfold RoundsIntoInt64 signedNat
  cases negative
  · simp only [Bool.false_eq_true, if_false]
    omega
  · simp only [if_true]
    omega

/-- **Which whole numbers become 64-bit integers when they are rounded to a double.** -/
theorem fits_ofDecimal_iff (negative : Bool) (n : Nat) :
    (∃ v, (ofDecimal negative n 0).toInt? = some v ∧ fitsInt64 v = true) ↔
      RoundsIntoInt64 (signedNat negative n) := by
  rw [roundsIntoInt64_signedNat]
  rcases Nat.lt_or_ge n (2 ^ 53) with hn | hn
  -- a number that is not rounded lies inside both ranges
  · rw [toInt?_ofDecimal_of_small negative hn]
    have hv := fitsInt64_signedNat negative n
    constructor
    · intro _
      split <;> omega
    · intro _
      refine ⟨_, rfl, hv.2 ?_⟩
      split <;> omega
  · obtain ⟨k, hlow, hhigh⟩ : ∃ k, 2 ^ 52 * 2 ^ k ≤ n ∧ n < 2 ^ 53 * 2 ^ k := by
      have hn0 : n ≠ 0 := by omega
      have hlog : 53 ≤ n.log2 := (Nat.le_log2 hn0).2 hn
      refine ⟨n.log2 - 52, ?_, ?_⟩
      · rw [← Nat.pow_add, Nat.add_sub_cancel' (by omega)]
        exact Nat.log2_self_le hn0
      · rw [← Nat.pow_add, show 53 + (n.log2 - 52) = n.log2 + 1 by omega]
        exact Nat.lt_log2_self
    obtain ⟨hle, hlt⟩ := rounded_compare hlow hhigh
    rcases toInt?_ofDecimal_of_large negative hlow hhigh with hv | ⟨hk, hnone⟩
    · rw [hv]
      have hfits := fitsInt64_signedNat negative (roundHalfEven n (2 ^ k) * 2 ^ k)
      rw [hle, hlt] at hfits
      constructor
      · rintro ⟨v, hv, hfit⟩
        obtain rfl := Option.some.inj hv
        exact hfits.1 hfit
      · intro h
        exact ⟨_, rfl, hfits.2 h⟩
    -- a number that becomes infinite lies outside both
    · rw [hnone]
      have : 2 ^ 12 ≤ 2 ^ k := Nat.pow_le_pow_right (by decide) (by omega)
      constructor
      · rintro ⟨v, hv, -⟩
        exact absurd hv (by simp)
      · intro h
        split at h <;> omega

/-- The size of a whole double: small, or a multiple of `2 ^ 11`. -/
theorem toInt?_size {negative : Bool} {m : Nat} {e : Int} {h : Canonical m e} {w : Int}
    (hw : (finite negative m e h).toInt? = some w) :
    ∃ v, w = signedNat negative v ∧ (v ≤ 2 ^ 63 - 2 ^ 10 ∨ ∃ t, v = 2 ^ 11 * t) := by
  have hm : m < 2 ^ 53 := h.1
  rcases Int.le_total 0 e with he | he
  · obtain ⟨k, rfl⟩ := Int.eq_ofNat_of_zero_le he
    rw [toInt?_of_natural_exponent negative h rfl] at hw
    refine ⟨m * 2 ^ k, (Option.some.inj hw).symm, ?_⟩
    rcases Nat.le_total k 10 with hk | hk
    · left
      have hpow : 2 ^ k ≤ 2 ^ 10 := Nat.pow_le_pow_right (by decide) hk
      have := Nat.mul_le_mul (Nat.le_sub_one_of_lt hm) hpow
      omega
    · rcases Nat.eq_or_lt_of_le hk with rfl | hk
      · left
        omega
      · right
        obtain ⟨j, rfl⟩ := Nat.exists_eq_add_of_le hk
        exact ⟨m * 2 ^ j, by rw [Nat.pow_add, Nat.mul_left_comm]⟩
  · obtain ⟨k, hk⟩ := Int.eq_ofNat_of_zero_le (Int.neg_nonneg_of_nonpos he)
    have hpos : e.toNat = 0 := by omega
    unfold toInt? shifted at hw
    simp only [hpos, Nat.pow_eq, Nat.pow_zero, Nat.mul_one, Nat.one_mul] at hw
    split at hw
    · refine ⟨m / 2 ^ (-e).toNat, (Option.some.inj hw).symm, .inl ?_⟩
      have := Nat.div_le_self m (2 ^ (-e).toNat)
      omega
    · exact absurd hw (by simp)

/-- A whole double is not changed by rounding, so the two ranges agree on it. -/
theorem fits_iff_of_toInt? {x : Binary64} {w : Int} (h : x.toInt? = some w) :
    fitsInt64 w = true ↔ RoundsIntoInt64 w := by
  cases x with
  | nan => exact absurd h (by simp [toInt?])
  | infinite negative => exact absurd h (by simp [toInt?])
  | finite negative m e hc =>
    obtain ⟨v, rfl, hv⟩ := toInt?_size h
    rw [fitsInt64_signedNat, roundsIntoInt64_signedNat]
    rcases hv with hv | ⟨t, rfl⟩
    · split <;> omega
    · split <;> omega

end DatasetCatalog.Binary64
