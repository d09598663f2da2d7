import DatasetCatalog.Proofs.Number.Order
import DatasetCatalog.Proofs.Number.Written
import Mathlib.Order.WithBot

/-! # The line of numbers

  Integers of any size and doubles lie on one line, that of the rational numbers with two ends for
  the infinities. Comparing two numbers is comparing their places on the line, so for numbers that
  are not "not a number" the order of the program is the linear order that this line has. Numbers
  of which none is a whole double have a place and a label of their own.
-/

namespace DatasetCatalog

namespace Binary64

/-! ### Equal values -/

theorem signedRat_inj {negative negative' : Bool} {q r : ℚ} (hq : 0 < q) (hr : 0 < r)
    (h : signedRat negative q = signedRat negative' r) : negative = negative' ∧ q = r := by
  cases negative with
  | false =>
    cases negative' with
    | false => exact ⟨rfl, h⟩
    | true => exact absurd h (by rw [signedRat_false, signedRat_true]; linarith)
  | true =>
    cases negative' with
    | false => exact absurd h (by rw [signedRat_false, signedRat_true]; linarith)
    | true => exact ⟨rfl, neg_injective h⟩

/-- Only zero has two doubles of its value. -/
theorem RoundsTo.unique {q r : ℚ} {x y : Binary64} (hx : RoundsTo q x) (hy : RoundsTo r y)
    (hq : q ≠ 0) (h : q = r) : x = y := by
  have hpositive : ∀ {num den : Nat}, 0 < num → 0 < den → (0 : ℚ) < (num : ℚ) / den :=
    fun hn hd => div_pos (by exact_mod_cast hn) (by exact_mod_cast hd)
  cases hx with
  | zero negative => exact absurd rfl hq
  | @ratio negative num den hn hd =>
    cases hy with
    | zero negative' => exact absurd h hq
    | @ratio negative' num' den' hn' hd' =>
      obtain ⟨rfl, hsize⟩ := signedRat_inj (hpositive hn hd) (hpositive hn' hd') h
      rw [div_eq_div_iff (by exact_mod_cast hd.ne') (by exact_mod_cast hd'.ne')] at hsize
      exact ofRatio_congr negative hn hd hd' (by exact_mod_cast hsize)

theorem eq_of_extent_eq {negative negative' : Bool} {m m' : Nat} {e e' : Int} {h : Canonical m e}
    {h' : Canonical m' e'} (hne : (finite negative m e h).extent ≠ 0)
    (heq : (finite negative m e h).extent = (finite negative' m' e' h').extent) :
    finite negative m e h = finite negative' m' e' h' :=
  (roundsTo_extent negative m e h).unique (roundsTo_extent negative' m' e' h') hne heq

end Binary64

namespace Number

open Binary64

/-- The rational numbers and two ends. -/
abbrev Line := WithBot (WithTop ℚ)

/-- A rational number on the line. -/
def onLine (q : ℚ) : Line := ((q : WithTop ℚ) : WithBot (WithTop ℚ))

/-- The upper end of the line. -/
def upperEnd : Line := ((⊤ : WithTop ℚ) : WithBot (WithTop ℚ))

/-- The place of a number on the line; "not a number" has none, and counts as zero. -/
def value : Number → Line
  | int n => onLine n
  | float .nan => onLine 0
  | float (.infinite true) => ⊥
  | float (.infinite false) => upperEnd
  | float (.finite negative m e h) => onLine (Binary64.finite negative m e h).extent

theorem onLine_le_iff {q r : ℚ} : onLine q ≤ onLine r ↔ q ≤ r := by
  unfold onLine
  rw [WithBot.coe_le_coe, WithTop.coe_le_coe]

theorem onLine_injective : Function.Injective onLine := by
  intro q r h
  exact le_antisymm (onLine_le_iff.1 h.le) (onLine_le_iff.1 h.ge)

/-! ### Places and positions -/

/-- The position is that of the place. -/
inductive Marks : Position → Line → Prop
  | bottom : Marks .bottom ⊥
  | between {num : Int} {den : Nat} (hd : 0 < den) : Marks (.at num den) (onLine (num / den))
  | top : Marks .top upperEnd

/-- Every number but "not a number" has a position, which is that of its place. -/
theorem exists_marks {a : Number} (h : a.isNaN = false) :
    ∃ p, a.position? = some p ∧ Marks p a.value := by
  cases a with
  | int n =>
    have hmarks : Marks (.at n 1) (onLine (n / (1 : Nat))) := .between one_pos
    rw [Nat.cast_one, div_one] at hmarks
    exact ⟨_, rfl, hmarks⟩
  | float x =>
    obtain ⟨p, hp, hsits⟩ := exists_sits h
    refine ⟨p, hp, ?_⟩
    cases hsits with
    | bottom => exact .bottom
    | top => exact .top
    | @between num den x hd hx hlt =>
      cases x with
      | nan => exact absurd h nofun
      | infinite negative =>
        -- an infinity lies beyond all values between the ends
        rw [extent_infinite, abs_signedRat negative beyond_pos.le] at hlt
        exact absurd hlt (lt_irrefl _)
      | finite negative m e hc =>
        show Marks _ (onLine _)
        rw [hx]
        exact .between hd

theorem Marks.le_iff {p q : Position} {v w : Line} (hp : Marks p v) (hq : Marks q w) :
    p.le q = true ↔ v ≤ w := by
  cases hp with
  | bottom => exact iff_of_true rfl bot_le
  | top =>
    cases hq with
    | bottom => exact iff_of_false nofun (not_le.2 (WithBot.bot_lt_coe _))
    | top => exact iff_of_true rfl le_rfl
    | between hd =>
      refine iff_of_false nofun (not_le.2 ?_)
      exact WithBot.coe_lt_coe.2 (WithTop.coe_lt_top _)
  | between hd =>
    cases hq with
    | bottom => exact iff_of_false nofun (not_le.2 (WithBot.bot_lt_coe _))
    | top => exact iff_of_true rfl (WithBot.coe_le_coe.2 le_top)
    | between hd' =>
      rw [onLine_le_iff, div_le_div_iff₀ (by exact_mod_cast hd) (by exact_mod_cast hd')]
      unfold Position.le
      rw [decide_eq_true_eq]
      exact_mod_cast Iff.rfl

/-! ### Comparing -/

section Comparing

variable {a b : Number}

/-- **Numbers are compared as their places are.** -/
theorem le_iff_value_le (ha : a.isNaN = false) (hb : b.isNaN = false) :
    a.le b = true ↔ a.value ≤ b.value := by
  obtain ⟨p, hp, hv⟩ := exists_marks ha
  obtain ⟨q, hq, hw⟩ := exists_marks hb
  unfold le
  simp only [hp, hq]
  exact hv.le_iff hw

theorem same_iff_value_eq (ha : a.isNaN = false) (hb : b.isNaN = false) :
    a.same b = true ↔ a.value = b.value := by
  unfold same
  rw [Bool.and_eq_true, le_iff_value_le ha hb, le_iff_value_le hb ha, le_antisymm_iff]

end Comparing

/-- A whole double lies where its integer lies. -/
theorem value_of_toInt? {x : Binary64} {n : Int} (h : x.toInt? = some n) :
    (float x).value = (int n).value := by
  have hextent := extent_of_toInt? h
  cases x with
  | nan => exact absurd h nofun
  | infinite negative => exact absurd h nofun
  | finite negative m e hc => exact congrArg onLine hextent

/-! ### Reduced numbers -/

/-- The number is an integer, or a double that is none. -/
def Reduced : Number → Prop
  | int _ => True
  | float x => x.isNaN = false ∧ x.toInt? = none

theorem Reduced.isNaN {a : Number} (h : a.Reduced) : a.isNaN = false := by
  cases a with
  | int n => rfl
  | float x => exact h.1

/-- An integer and a double that is none lie at different places. -/
theorem value_ne_of_reduced {x : Binary64} (h : (float x).Reduced) (n : Int) :
    (float x).value ≠ (int n).value := by
  intro heq
  cases x with
  | nan => exact absurd h.1 nofun
  | infinite negative => cases negative <;> exact absurd heq nofun
  | finite negative m e hc =>
    have hint := toInt?_of_extent rfl (abs_extent_finite_lt negative m e hc) (onLine_injective heq)
    rw [h.2] at hint
    exact absurd hint nofun

/-- **Reduced numbers are told apart by their places.** -/
theorem eq_of_value_eq {a b : Number} (ha : a.Reduced) (hb : b.Reduced) (h : a.value = b.value) :
    a = b := by
  cases a with
  | int n =>
    cases b with
    | int m => exact congrArg int (by exact_mod_cast onLine_injective h)
    | float y => exact absurd h.symm (value_ne_of_reduced hb n)
  | float x =>
    cases b with
    | int m => exact absurd h (value_ne_of_reduced ha m)
    | float y =>
      cases x with
      | nan => exact absurd ha.1 nofun
      | infinite negative =>
        cases y with
        | nan => exact absurd hb.1 nofun
        | infinite negative' =>
          cases negative with
          | false =>
            cases negative' with
            | false => rfl
            | true => exact absurd h nofun
          | true =>
            cases negative' with
            | false => exact absurd h nofun
            | true => rfl
        | finite negative' m' e' hc' => cases negative <;> exact absurd h nofun
      | finite negative m e hc =>
        cases y with
        | nan => exact absurd hb.1 nofun
        | infinite negative' => cases negative' <;> exact absurd h nofun
        | finite negative' m' e' hc' =>
          refine congrArg float (eq_of_extent_eq ?_ (onLine_injective h))
          intro hzero
          have hint := toInt?_of_extent (n := 0) rfl (abs_extent_finite_lt negative m e hc)
            (by rw [hzero, Int.cast_zero])
          rw [ha.2] at hint
          exact absurd hint nofun

/-- Reduced numbers are told apart by their labels. -/
theorem eq_of_plain_eq {a b : Number} (ha : a.Reduced) (hb : b.Reduced)
    (h : a.plain = b.plain) : a = b := by
  have hfloat : ∀ x : Binary64, x.toInt? = none → (float x).plain = x.write := by
    intro x hx
    unfold plain
    simp only [hx]
  cases a with
  | int n =>
    cases b with
    | int m => rw [integerText_injective h]
    | float y =>
      rw [hfloat y hb.2] at h
      exact absurd h.symm (write_ne_integerText hb.1 n)
  | float x =>
    rw [hfloat x ha.2] at h
    cases b with
    | int m => exact absurd h (write_ne_integerText ha.1 m)
    | float y =>
      rw [hfloat y hb.2] at h
      have hread := Binary64.ofText?_write ha.1
      rw [h, Binary64.ofText?_write hb.1] at hread
      rw [Option.some.inj hread]

end Number

end DatasetCatalog
