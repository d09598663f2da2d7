import DatasetCatalog.Number.Binary64
import Mathlib.Algebra.Order.Field.Power
import Mathlib.Data.Int.Log
import Mathlib.Data.Rat.Floor
import Mathlib.Tactic.NormNum
import Mathlib.Tactic.Positivity

/-! # Rounding a quotient

  The double nearest to a quotient of naturals depends on the value of the quotient only, not on
  how the fraction is written, and a quotient that is a double already is not changed. Both rest
  on one fact: the binary order that the rounding computes with shifts is the logarithm of the
  value.
-/

namespace DatasetCatalog.Binary64

/-! ### Shifts -/

section Shifts

variable {num den : Nat}

theorem shifted_den_pos (hd : 0 < den) (s : Int) : 0 < (shifted num den s).2 := by
  unfold shifted
  exact Nat.mul_pos hd (Nat.pow_pos (by decide))

theorem shifted_num_pos (hn : 0 < num) (s : Int) : 0 < (shifted num den s).1 := by
  unfold shifted
  exact Nat.mul_pos hn (Nat.pow_pos (by decide))

/-- Shifting multiplies the value by a power of two. -/
theorem shifted_value (num den : Nat) (s : Int) :
    ((shifted num den s).1 : ℚ) / (shifted num den s).2 = num / den * 2 ^ s := by
  unfold shifted
  simp only [Nat.pow_eq, Nat.cast_mul, Nat.cast_pow, Nat.cast_ofNat]
  rcases Int.le_total 0 s with hs | hs
  · obtain ⟨n, rfl⟩ := Int.eq_ofNat_of_zero_le hs
    have hneg : (-(n : Int)).toNat = 0 := by omega
    rw [hneg, Int.toNat_natCast, zpow_natCast, pow_zero, mul_one, mul_div_right_comm]
  · obtain ⟨n, hn⟩ := Int.eq_ofNat_of_zero_le (Int.neg_nonneg_of_nonpos hs)
    have hpos : s.toNat = 0 := by omega
    obtain rfl : s = -(n : Int) := by omega
    rw [hpos, Int.neg_neg, Int.toNat_natCast, zpow_neg, zpow_natCast, pow_zero, mul_one]
    rw [← div_eq_mul_inv, div_div]

theorem shifted_mul (num den k : Nat) (s : Int) :
    shifted (num * k) (den * k) s = ((shifted num den s).1 * k, (shifted num den s).2 * k) := by
  unfold shifted
  rw [Nat.mul_right_comm, Nat.mul_right_comm den]

/-- Shifting there and back multiplies both parts by one number. -/
theorem shifted_neg_shifted (num den : Nat) (s : Int) :
    shifted (shifted num den s).1 (shifted num den s).2 (-s) =
      (num * (Nat.pow 2 s.toNat * Nat.pow 2 (-s).toNat),
        den * (Nat.pow 2 s.toNat * Nat.pow 2 (-s).toNat)) := by
  unfold shifted
  rw [Int.neg_neg, Nat.mul_assoc, Nat.mul_assoc, Nat.mul_comm (Nat.pow 2 (-s).toNat)]

end Shifts

/-! ### The binary order -/

theorem two_pow_log2_le {n : Nat} (hn : 0 < n) : (2 : ℚ) ^ n.log2 ≤ n := by
  exact_mod_cast Nat.log2_self_le hn.ne'

theorem lt_two_pow_log2 (n : Nat) : (n : ℚ) < 2 ^ (n.log2 + 1) := by
  exact_mod_cast Nat.lt_log2_self

/-- The logarithm of a fraction is at least the difference of the two orders, less one. -/
theorem log2_sub_log2_le_log {num den : Nat} (hn : 0 < num) (hd : 0 < den) :
    (num.log2 : Int) - den.log2 - 1 ≤ Int.log 2 ((num : ℚ) / den) := by
  have hdq : (0 : ℚ) < den := by exact_mod_cast hd
  have hq : (0 : ℚ) < num / den := div_pos (by exact_mod_cast hn) hdq
  obtain ⟨k, hk⟩ : ∃ k : Int, k = num.log2 - den.log2 := ⟨_, rfl⟩
  rw [← hk, ← Int.zpow_le_iff_le_log (by decide) hq, le_div_iff₀ hdq]
  calc ((2 : Nat) : ℚ) ^ (k - 1) * den
      ≤ ((2 : Nat) : ℚ) ^ (k - 1) * 2 ^ (den.log2 + 1) :=
        mul_le_mul_of_nonneg_left (lt_two_pow_log2 den).le (by positivity)
    _ = 2 ^ num.log2 := by
        rw [← zpow_natCast (2 : ℚ) (den.log2 + 1), ← zpow_natCast (2 : ℚ) num.log2,
          Nat.cast_ofNat, ← zpow_add₀ (by norm_num)]
        congr 1
        push_cast
        omega
    _ ≤ num := two_pow_log2_le hn

/-- The logarithm of a fraction is at most the difference of the two orders. -/
theorem log_lt_log2_sub_log2 {num den : Nat} (hn : 0 < num) (hd : 0 < den) :
    Int.log 2 ((num : ℚ) / den) < (num.log2 : Int) - den.log2 + 1 := by
  have hdq : (0 : ℚ) < den := by exact_mod_cast hd
  have hq : (0 : ℚ) < num / den := div_pos (by exact_mod_cast hn) hdq
  obtain ⟨k, hk⟩ : ∃ k : Int, k = num.log2 - den.log2 := ⟨_, rfl⟩
  rw [← hk, ← Int.lt_zpow_iff_log_lt (by decide) hq, div_lt_iff₀ hdq]
  calc (num : ℚ) < 2 ^ (num.log2 + 1) := lt_two_pow_log2 num
    _ = ((2 : Nat) : ℚ) ^ (k + 1) * 2 ^ den.log2 := by
        rw [← zpow_natCast (2 : ℚ) (num.log2 + 1), ← zpow_natCast (2 : ℚ) den.log2,
          Nat.cast_ofNat, ← zpow_add₀ (by norm_num)]
        congr 1
        push_cast
        omega
    _ ≤ ((2 : Nat) : ℚ) ^ (k + 1) * den :=
        mul_le_mul_of_nonneg_left (two_pow_log2_le hd) (by positivity)

/-- The binary order of a fraction is the logarithm of its value. -/
theorem binaryOrder_eq_log {num den : Nat} (hn : 0 < num) (hd : 0 < den) :
    binaryOrder num den = Int.log 2 ((num : ℚ) / den) := by
  have hq : (0 : ℚ) < num / den :=
    div_pos (by exact_mod_cast hn) (by exact_mod_cast hd)
  have hlow := log2_sub_log2_le_log hn hd
  have hhigh := log_lt_log2_sub_log2 hn hd
  obtain ⟨k, hk⟩ : ∃ k : Int, k = num.log2 - den.log2 := ⟨_, rfl⟩
  -- the difference of the two orders is the logarithm, or one more; the comparison of the
  -- shifted parts tells which of the two it is
  have hcmp : (shifted num den (-k)).2 ≤ (shifted num den (-k)).1 ↔
      k ≤ Int.log 2 ((num : ℚ) / den) := by
    have hb : (0 : ℚ) < (shifted num den (-k)).2 := by exact_mod_cast shifted_den_pos hd (-k)
    have hk0 : (0 : ℚ) < 2 ^ k := by positivity
    rw [← Int.zpow_le_iff_le_log (by decide) hq, ← Nat.cast_le (α := ℚ), ← one_le_div hb,
      shifted_value, zpow_neg, ← div_eq_mul_inv, one_le_div hk0, Nat.cast_ofNat]
  unfold binaryOrder
  simp only [← hk] at hlow hhigh ⊢
  split
  · next hle =>
    have := hcmp.1 hle
    omega
  · next hnot =>
    have := mt hcmp.2 hnot
    omega

/-! ### Rounding -/

theorem roundHalfEven_mul (num den : Nat) {k : Nat} (hk : 0 < k) :
    roundHalfEven (num * k) (den * k) = roundHalfEven num den := by
  unfold roundHalfEven
  rw [Nat.mul_div_mul_right _ _ hk, Nat.mul_mod_mul_right]
  simp only [← Nat.mul_assoc, Nat.mul_lt_mul_right hk]

theorem roundHalfEven_self (m : Nat) {k : Nat} (hk : 0 < k) : roundHalfEven (m * k) (1 * k) = m := by
  rw [roundHalfEven_mul _ _ hk]
  simp [roundHalfEven, Nat.mod_one]

theorem ofRatio_mul (negative : Bool) {num den k : Nat} (hn : 0 < num) (hd : 0 < den)
    (hk : 0 < k) : ofRatio negative (num * k) (den * k) = ofRatio negative num den := by
  have horder : binaryOrder (num * k) (den * k) = binaryOrder num den := by
    rw [binaryOrder_eq_log (Nat.mul_pos hn hk) (Nat.mul_pos hd hk), binaryOrder_eq_log hn hd]
    push_cast
    rw [mul_div_mul_right _ _ (by exact_mod_cast hk.ne')]
  unfold ofRatio
  rw [horder]
  simp only [shifted_mul, roundHalfEven_mul _ _ hk]

/-- **Rounding depends on the value of a fraction only.** -/
theorem ofRatio_congr (negative : Bool) {a b c d : Nat} (ha : 0 < a) (hb : 0 < b) (hd : 0 < d)
    (h : a * d = c * b) : ofRatio negative a b = ofRatio negative c d := by
  have hc : 0 < c := by
    rcases Nat.eq_zero_or_pos c with rfl | hc
    · have := Nat.mul_pos ha hd
      omega
    · exact hc
  calc ofRatio negative a b = ofRatio negative (a * d) (b * d) := (ofRatio_mul _ ha hb hd).symm
    _ = ofRatio negative (c * b) (d * b) := by rw [h, Nat.mul_comm b d]
    _ = ofRatio negative c d := ofRatio_mul _ hc hd hb

/-- The exponent that rounding chooses for the value of a double is that of the double. -/
theorem max_binaryOrder_of_canonical {m : Nat} {e : Int} (hm : 0 < m) (h : Canonical m e) :
    max (binaryOrder (shifted m 1 e).1 (shifted m 1 e).2 - 52) (-1074) = e := by
  obtain ⟨hlt, hlow, -, hlead⟩ := h
  simp only [Nat.pow_eq] at hlt hlead
  have hq : (0 : ℚ) < m * 2 ^ e := by positivity
  have hlog : binaryOrder (shifted m 1 e).1 (shifted m 1 e).2 = Int.log 2 ((m : ℚ) * 2 ^ e) := by
    rw [binaryOrder_eq_log (shifted_num_pos hm e) (shifted_den_pos (by decide) e), shifted_value]
    simp
  have hhigh : Int.log 2 ((m : ℚ) * 2 ^ e) < 53 + e := by
    rw [← Int.lt_zpow_iff_log_lt (by decide) hq, Nat.cast_ofNat, zpow_add₀ (by norm_num)]
    have : (m : ℚ) < 2 ^ (53 : Int) := by exact_mod_cast hlt
    exact mul_lt_mul_of_pos_right this (by positivity)
  rw [hlog]
  rcases hlead with hlead | rfl
  · have hge : 52 + e ≤ Int.log 2 ((m : ℚ) * 2 ^ e) := by
      rw [← Int.zpow_le_iff_le_log (by decide) hq, Nat.cast_ofNat, zpow_add₀ (by norm_num)]
      have : (2 : ℚ) ^ (52 : Int) ≤ m := by exact_mod_cast hlead
      exact mul_le_mul_of_nonneg_right this (by positivity)
    omega
  · omega

/-- What becomes of the rounded significand: one that has grown to 54 bits is halved, and an
    exponent that is too large gives an infinity. -/
theorem ofRatio_eq (negative : Bool) {num den m : Nat} {e : Int}
    (he : max (binaryOrder num den - 52) (-1074) = e)
    (hm : roundHalfEven (shifted num den (-e)).1 (shifted num den (-e)).2 = m) :
    ofRatio negative num den =
      if m = Nat.pow 2 53 then
        if h : Canonical (Nat.pow 2 52) (e + 1) then .finite negative (Nat.pow 2 52) (e + 1) h
        else .infinite negative
      else if h : Canonical m e then .finite negative m e h else .infinite negative := by
  subst he hm
  unfold ofRatio
  simp only
  split
  · rfl
  · rfl

theorem ofRatio_eq_finite (negative : Bool) {num den m : Nat} {e : Int}
    (he : max (binaryOrder num den - 52) (-1074) = e)
    (hm : roundHalfEven (shifted num den (-e)).1 (shifted num den (-e)).2 = m)
    (h : Canonical m e) : ofRatio negative num den = .finite negative m e h := by
  rw [ofRatio_eq negative he hm, if_neg h.1.ne, dif_pos h]

/-- **A double is its own nearest double.** -/
theorem ofRatio_of_canonical (negative : Bool) {m : Nat} {e : Int} (hm : 0 < m)
    (h : Canonical m e) :
    ofRatio negative (shifted m 1 e).1 (shifted m 1 e).2 = .finite negative m e h := by
  have hk : 0 < Nat.pow 2 e.toNat * Nat.pow 2 (-e).toNat :=
    Nat.mul_pos (Nat.pow_pos (by decide)) (Nat.pow_pos (by decide))
  apply ofRatio_eq_finite negative (max_binaryOrder_of_canonical hm h)
  rw [shifted_neg_shifted]
  exact roundHalfEven_self m hk

end DatasetCatalog.Binary64
