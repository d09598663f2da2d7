import DatasetCatalog.Number.Shortest
import DatasetCatalog.Proofs.Number.Rounding

/-! # Rounding a decimal

  The double nearest to a decimal depends on its value only: the guards that keep huge powers of
  ten from being computed answer what rounding would. So digits may be moved between the
  significand and the exponent, and a decimal that has the value of a double is read as that
  double.
-/

namespace DatasetCatalog.Binary64

/-! ### Far outside the range -/

theorem ofRatio_of_large (negative : Bool) {num den : Nat} (hn : 0 < num) (hd : 0 < den)
    (h : (2 : ℚ) ^ (1024 : Int) ≤ num / den) : ofRatio negative num den = .infinite negative := by
  have hq : (0 : ℚ) < num / den := by positivity
  have horder : 1024 ≤ binaryOrder num den := by
    rw [binaryOrder_eq_log hn hd, ← Int.zpow_le_iff_le_log (by decide) hq, Nat.cast_ofNat]
    exact h
  unfold ofRatio
  simp only
  -- whether or not the significand overflows, the exponent is too large
  split
  all_goals
    rw [dif_neg]
    intro hcanonical
    have := hcanonical.2.2.1
    omega

theorem roundHalfEven_of_small {num den : Nat} (h : 2 * num < den) :
    roundHalfEven num den = 0 := by
  have hlt : num < den := by omega
  unfold roundHalfEven
  simp only [Nat.mod_eq_of_lt hlt, if_pos h, Nat.div_eq_of_lt hlt]

theorem ofRatio_of_small (negative : Bool) {num den : Nat} (hn : 0 < num) (hd : 0 < den)
    (h : (num : ℚ) / den < 2 ^ (-1075 : Int)) : ofRatio negative num den = zero negative := by
  have hq : (0 : ℚ) < num / den := by positivity
  have horder : binaryOrder num den < -1075 := by
    rw [binaryOrder_eq_log hn hd, ← Int.lt_zpow_iff_log_lt (by decide) hq, Nat.cast_ofNat]
    exact h
  have hmax : max (binaryOrder num den - 52) (-1074) = -1074 := by omega
  apply ofRatio_eq_finite negative hmax
  rw [Int.neg_neg]
  apply roundHalfEven_of_small
  have hb : (0 : ℚ) < (shifted num den 1074).2 := by exact_mod_cast shifted_den_pos hd 1074
  have hhalf : ((shifted num den 1074).1 : ℚ) / (shifted num den 1074).2 < 1 / 2 := by
    rw [shifted_value]
    calc (num : ℚ) / den * 2 ^ (1074 : Int) < 2 ^ (-1075 : Int) * 2 ^ (1074 : Int) :=
          mul_lt_mul_of_pos_right h (by positivity)
      _ = 1 / 2 := by
          rw [← zpow_add₀ (by norm_num)]
          norm_num
  rw [div_lt_div_iff₀ hb (by norm_num), one_mul, mul_comm] at hhalf
  exact_mod_cast hhalf

/-! ### The guards -/

/-- The fraction that a decimal is. -/
theorem decimal_value (n : Nat) (p : Int) :
    ((n * Nat.pow 10 p.toNat : Nat) : ℚ) / (Nat.pow 10 (-p).toNat : Nat) = n * 10 ^ p := by
  simp only [Nat.pow_eq]
  push_cast
  rcases Int.le_total 0 p with hp | hp
  · obtain ⟨k, rfl⟩ := Int.eq_ofNat_of_zero_le hp
    have hneg : (-(k : Int)).toNat = 0 := by omega
    rw [hneg, Int.toNat_natCast, zpow_natCast, pow_zero, div_one]
  · obtain ⟨k, hk⟩ := Int.eq_ofNat_of_zero_le (Int.neg_nonneg_of_nonpos hp)
    have hpos : p.toNat = 0 := by omega
    obtain rfl : p = -(k : Int) := by omega
    rw [hpos, Int.neg_neg, Int.toNat_natCast, zpow_neg, zpow_natCast, pow_zero, mul_one,
      div_eq_mul_inv]

theorem two_zpow_le_ten_zpow {p : Int} (hp : 0 ≤ p) : (2 : ℚ) ^ (3 * p) ≤ 10 ^ p := by
  rw [zpow_mul]
  exact zpow_le_zpow_left₀ hp (by norm_num) (by norm_num)

theorem ten_zpow_le_two_zpow {p : Int} (hp : p ≤ 0) : (10 : ℚ) ^ p ≤ 2 ^ (3 * p) := by
  have h := two_zpow_le_ten_zpow (Int.neg_nonneg_of_nonpos hp)
  rw [mul_neg, zpow_neg, zpow_neg] at h
  exact (inv_le_inv₀ (by positivity) (by positivity)).1 h

/-- **The guards answer what rounding would.** -/
theorem ofDecimal_eq_ofRatio (negative : Bool) {n : Nat} (hn : 0 < n) (p : Int) :
    ofDecimal negative n p =
      ofRatio negative (n * Nat.pow 10 p.toNat) (Nat.pow 10 (-p).toNat) := by
  have hnum : 0 < n * Nat.pow 10 p.toNat := Nat.mul_pos hn (Nat.pow_pos (by decide))
  have hden : 0 < Nat.pow 10 (-p).toNat := Nat.pow_pos (by decide)
  -- eight is less than ten, so three bits for each power of ten bound the value
  unfold ofDecimal
  rw [if_neg hn.ne']
  split
  · next hlarge =>
    symm
    apply ofRatio_of_large _ hnum hden
    rw [decimal_value]
    calc (2 : ℚ) ^ (1024 : Int) ≤ 2 ^ ((n.log2 : Int) + 3 * p) :=
          zpow_le_zpow_right₀ (by norm_num) hlarge.2
      _ = 2 ^ n.log2 * 2 ^ (3 * p) := by rw [zpow_add₀ (by norm_num), zpow_natCast]
      _ ≤ n * 10 ^ p := mul_le_mul (two_pow_log2_le hn) (two_zpow_le_ten_zpow hlarge.1)
          (by positivity) (by positivity)
  split
  · next hsmall =>
    symm
    apply ofRatio_of_small _ hnum hden
    rw [decimal_value]
    calc (n : ℚ) * 10 ^ p < 2 ^ (n.log2 + 1) * 2 ^ (3 * p) :=
          mul_lt_mul (lt_two_pow_log2 n) (ten_zpow_le_two_zpow hsmall.1.le) (by positivity)
            (by positivity)
      _ = 2 ^ ((n.log2 : Int) + 1 + 3 * p) := by
          rw [zpow_add₀ (by norm_num), ← zpow_natCast]
          push_cast
          rfl
      _ ≤ 2 ^ (-1075 : Int) := zpow_le_zpow_right₀ (by norm_num) (by omega)
  · rfl

/-! ### The value decides -/

/-- **The double of a decimal depends on its value only.** -/
theorem ofDecimal_congr (negative : Bool) {n m : Nat} {p q : Int}
    (h : (n : ℚ) * 10 ^ p = m * 10 ^ q) : ofDecimal negative n p = ofDecimal negative m q := by
  rcases Nat.eq_zero_or_pos n with rfl | hn
  · have hm : m = 0 := by
      have h0 : (m : ℚ) * 10 ^ q = 0 := by rw [← h, Nat.cast_zero, zero_mul]
      have hten : (10 : ℚ) ^ q ≠ 0 := by positivity
      exact_mod_cast (mul_eq_zero.1 h0).resolve_right hten
    subst hm
    simp [ofDecimal]
  · have hm : 0 < m := by
      have hpos : (0 : ℚ) < m * 10 ^ q := by rw [← h]; positivity
      exact_mod_cast pos_of_mul_pos_left hpos (by positivity)
    rw [ofDecimal_eq_ofRatio negative hn, ofDecimal_eq_ofRatio negative hm]
    have hp : 0 < Nat.pow 10 (-p).toNat := Nat.pow_pos (by decide)
    have hq : 0 < Nat.pow 10 (-q).toNat := Nat.pow_pos (by decide)
    apply ofRatio_congr negative (Nat.mul_pos hn (Nat.pow_pos (by decide))) hp hq
    rw [← decimal_value, ← decimal_value, div_eq_div_iff (by positivity) (by positivity)] at h
    exact_mod_cast h

/-- A decimal with the value of a double is read as that double. -/
theorem ofDecimal_of_canonical (negative : Bool) {n m : Nat} {p e : Int} (hm : 0 < m)
    (hc : Canonical m e) (h : (n : ℚ) * 10 ^ p = m * 2 ^ e) :
    ofDecimal negative n p = .finite negative m e hc := by
  have hn : 0 < n := by
    have hpos : (0 : ℚ) < n * 10 ^ p := by rw [h]; positivity
    exact_mod_cast pos_of_mul_pos_left hpos (by positivity)
  have hs : 0 < (shifted m 1 e).2 := shifted_den_pos (by decide) e
  have hp : 0 < Nat.pow 10 (-p).toNat := Nat.pow_pos (by decide)
  rw [ofDecimal_eq_ofRatio negative hn, ← ofRatio_of_canonical negative hm hc]
  apply ofRatio_congr negative (Nat.mul_pos hn (Nat.pow_pos (by decide))) hp hs
  have hvalue := shifted_value m 1 e
  rw [Nat.cast_one, div_one] at hvalue
  rw [← decimal_value, ← hvalue, div_eq_div_iff (by positivity) (by positivity)] at h
  exact_mod_cast h

/-! ### The sign -/

/-- The number with another sign. -/
def withSign (negative : Bool) : Binary64 → Binary64
  | nan => nan
  | infinite _ => infinite negative
  | finite _ m e h => finite negative m e h

theorem ofRatio_withSign (negative : Bool) (num den : Nat) :
    ofRatio negative num den = (ofRatio false num den).withSign negative := by
  unfold ofRatio
  simp only
  split
  all_goals
    split
    · rfl
    · rfl

/-- The sign of a decimal is the sign of its double, and changes nothing else. -/
theorem ofDecimal_withSign (negative : Bool) (n : Nat) (p : Int) :
    ofDecimal negative n p = (ofDecimal false n p).withSign negative := by
  unfold ofDecimal
  split
  · rfl
  split
  · rfl
  split
  · rfl
  · exact ofRatio_withSign ..

/-! ### Rounding gives a number -/

theorem isNaN_ofRatio (negative : Bool) (num den : Nat) :
    (ofRatio negative num den).isNaN = false := by
  rw [ofRatio_eq negative rfl rfl]
  split
  · split <;> rfl
  · split <;> rfl

theorem isNaN_ofDecimal (negative : Bool) (digits : Nat) (e : Int) :
    (ofDecimal negative digits e).isNaN = false := by
  unfold ofDecimal
  split
  · rfl
  split
  · rfl
  split
  · rfl
  · exact isNaN_ofRatio ..

end DatasetCatalog.Binary64
