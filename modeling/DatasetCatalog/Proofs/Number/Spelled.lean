import DatasetCatalog.Proofs.Number.Value
import DatasetCatalog.Proofs.Number.Whole

/-! # The numbers that numerals spell

  A numeral spells a decimal fraction or one of the infinities, exactly. Reading it as a double
  rounds the number that it spells, so numerals that spell numbers in order are read as numbers in
  order. Numerals that spell numbers in the other order may be read as the same number.
-/

namespace DatasetCatalog

open Number Binary64

/-! ### What is spelled -/

namespace Numeral

/-- The position of `± digits * 10 ^ exponent`. -/
def exactly (negative : Bool) (digits : Nat) (exponent : Int) : Position :=
  .at (signedNat negative (digits * 10 ^ exponent.toNat)) (10 ^ (-exponent).toNat)

/-- The number that an unsigned decimal numeral spells. -/
def spelledDecimal (negative : Bool) (s : List Char) : Option Position :=
  let (whole, fraction, rest) := mantissa s
  if whole = [] ∧ fraction = [] then none
  else (exponent rest).map fun e =>
    exactly negative (digitsValue (whole ++ fraction)) (e - fraction.length)

/-- The number that a numeral in plain form spells. -/
def spelledFloat (s : List Char) : Option Position :=
  let (negative, body) := sign s
  let word := body.map Char.toLower
  if word = "inf".toList ∨ word = "infinity".toList then some (if negative then .bottom else .top)
  else if word = "nan".toList then none
  else spelledDecimal negative body

/-- The number that a text spells; a text that is no numeral, or says that it is no number, spells
    none. -/
def spelled? (s : List Char) : Option Position :=
  (plain s).bind fun t => (dropUnderscores false t).bind spelledFloat

/-! ### Reading rounds -/

theorem rounded_exactly (negative : Bool) (n : Nat) (p : Int) :
    Rounded (exactly negative n p) (ofDecimal negative n p) := by
  have hden : 0 < 10 ^ (-p).toNat := Nat.pow_pos (by decide)
  refine .between hden ?_
  rcases Nat.eq_zero_or_pos n with rfl | hn
  -- zero is read with its sign, which its position does not tell
  · have hzero : signedNat negative (0 * 10 ^ p.toNat) = 0 := by
      cases negative <;> simp [signedNat]
    have hdecimal : ofDecimal negative 0 p = zero negative := rfl
    rw [hzero, hdecimal, Int.cast_zero, zero_div]
    exact .zero negative
  · have hnum : 0 < n * 10 ^ p.toNat := Nat.mul_pos hn (Nat.pow_pos (by decide))
    have hvalue : ((signedNat negative (n * 10 ^ p.toNat) : Int) : ℚ) / (10 ^ (-p).toNat : Nat) =
        signedRat negative (((n * 10 ^ p.toNat : Nat) : ℚ) / (10 ^ (-p).toNat : Nat)) := by
      cases negative with
      | false => rfl
      | true =>
        rw [signedRat_true, ← neg_div]
        unfold signedNat
        push_cast
        rfl
    rw [hvalue, ofDecimal_eq_ofRatio negative hn]
    exact .ratio negative hnum hden

/-- What is spelled and the double that is read. -/
inductive Reads : Option Position → Option Binary64 → Prop
  /-- No numeral. -/
  | none : Reads none none
  /-- A numeral that says that it is no number. -/
  | nan : Reads none (some .nan)
  /-- A number, rounded. -/
  | number {p : Position} {x : Binary64} (h : Rounded p x) : Reads (some p) (some x)

theorem reads_decimal (negative : Bool) (s : List Char) :
    Reads (spelledDecimal negative s) (decimal negative s) := by
  unfold spelledDecimal decimal
  simp only
  split
  · exact .none
  · cases exponent (mantissa s).2.2 with
    | none => exact .none
    | some e => exact .number (rounded_exactly _ _ _)

theorem reads_float (s : List Char) : Reads (spelledFloat s) (float s) := by
  unfold spelledFloat float
  simp only
  split
  · cases (sign s).1 with
    | false => exact .number .top
    | true => exact .number .bottom
  split
  · exact .nan
  · exact reads_decimal _ _

/-- **A text is read as the number that it spells, rounded to a double.** -/
theorem reads_ofText? (s : List Char) : Reads (spelled? s) (ofText? s) := by
  unfold spelled? ofText?
  cases plain s with
  | none => exact .none
  | some t =>
    rw [Option.bind_some, Option.bind_some]
    cases dropUnderscores false t with
    | none => exact .none
    | some u => exact reads_float u

end Numeral

/-! ### Rounded numbers in order -/

namespace Number

theorem reduced_integral {x : Binary64} (hx : x.isNaN = false) : (float x).integral.Reduced := by
  unfold integral
  simp only
  split
  · trivial
  · next hnone => exact ⟨hx, hnone⟩

/-- Numbers in the wrong order that are in order once they have been rounded have been rounded to
    the same number. -/
theorem Rounded.integral_eq {p p' : Position} {x x' : Binary64} (h : Rounded p x)
    (h' : Rounded p' x') (hle : p.le p' = false)
    (hrounded : (float x).integral.le (float x').integral = true) :
    (float x).integral = (float x').integral := by
  have hge : p'.le p = true := (Position.le_total p p').resolve_left (by rw [hle]; nofun)
  have hx := isNaN_integral h.isNaN
  have hx' := isNaN_integral h'.isNaN
  refine eq_of_value_eq (reduced_integral h.isNaN) (reduced_integral h'.isNaN) (le_antisymm ?_ ?_)
  · exact (le_iff_value_le hx hx').1 hrounded
  · exact (le_iff_value_le hx' hx).1 (h'.integral_le h hge)

end Number

end DatasetCatalog
