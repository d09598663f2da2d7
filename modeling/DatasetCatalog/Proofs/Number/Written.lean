import DatasetCatalog.Number.Basic
import DatasetCatalog.Proofs.Number.Decimal
import DatasetCatalog.Proofs.Number.Numeral

/-! # Written numbers read back

  The text of a double is read as that double, and the text of an integer as that integer. For a
  double this takes two steps: the decimal that is chosen rounds to the double, and however the
  digits of a decimal are laid out around the point and the exponent, they are read with the same
  value.
-/

namespace DatasetCatalog.Binary64

open Numeral Text

/-! ### The chosen decimal -/

/-- The chosen decimal reads back, also when no candidate does: then the exact expansion is
    chosen. -/
theorem ofDecimal_shortest {m : Nat} {e : Int} (hm : 0 < m) (h : Canonical m e) :
    ofDecimal false (shortest m e h).digits (shortest m e h).exponent = .finite false m e h := by
  unfold shortest
  simp only
  generalize List.flatMap _ _ = candidates
  cases hfind : readsBack (.finite false m e h) candidates with
  | some d =>
    have := List.find?_some hfind
    exact of_decide_eq_true this
  | none =>
    apply ofDecimal_of_canonical false hm h
    simp only [Option.getD_none, Nat.pow_eq]
    push_cast
    rcases Int.le_total 0 e with he | he
    · obtain ⟨k, rfl⟩ := Int.eq_ofNat_of_zero_le he
      have hneg : (-(k : Int)).toNat = 0 := by omega
      rw [hneg, Int.min_eq_right he, Int.toNat_natCast, zpow_natCast, zpow_zero, pow_zero]
      ring
    · obtain ⟨k, hk⟩ := Int.eq_ofNat_of_zero_le (Int.neg_nonneg_of_nonpos he)
      have hpos : e.toNat = 0 := by omega
      obtain rfl : e = -(k : Int) := by omega
      rw [hpos, Int.min_eq_left he, Int.neg_neg, Int.toNat_natCast, zpow_neg, zpow_natCast,
        zpow_neg, zpow_natCast, pow_zero, mul_one]
      have hten : (10 : ℚ) ^ k = 5 ^ k * 2 ^ k := by rw [← mul_pow]; norm_num
      rw [hten]
      field_simp

theorem digits_shortest_pos {m : Nat} {e : Int} (hm : 0 < m) (h : Canonical m e) :
    0 < (shortest m e h).digits := by
  rw [Nat.pos_iff_ne_zero]
  intro h0
  have hread := ofDecimal_shortest hm h
  rw [h0] at hread
  have hzero : zero false = .finite false m e h := hread
  obtain ⟨-, hm0, -⟩ := Binary64.finite.inj hzero
  omega

/-! ### Significant digits -/

/-- Zeros at the end of the digits may be moved into the exponent. -/
theorem ofDecimal_mul_pow (negative : Bool) (n k : Nat) (p : Int) :
    ofDecimal negative (n * 10 ^ k) p = ofDecimal negative n (p + k) := by
  apply ofDecimal_congr
  push_cast
  rw [zpow_add₀ (by norm_num), zpow_natCast]
  ring

/-- The significant digits are all digits but the zeros at the end. -/
theorem exists_significant_append (d : Decimal) :
    ∃ k, decimalDigits d.digits = (significant d).1 ++ List.replicate k '0' := by
  have hsplit := List.takeWhile_append_dropWhile (p := (· == '0')) (l := (decimalDigits d.digits).reverse)
  have hzeros : ∀ c ∈ (decimalDigits d.digits).reverse.takeWhile (· == '0'), c = '0' := by
    intro c hc
    simpa using List.mem_takeWhile_imp hc
  have hreplicate := List.eq_replicate_of_mem hzeros
  refine ⟨((decimalDigits d.digits).reverse.takeWhile (· == '0')).length, ?_⟩
  rw [← List.reverse_inj, List.reverse_append, List.reverse_replicate, ← hreplicate]
  unfold significant
  simp only [List.reverse_reverse]
  exact hsplit.symm

theorem isAsciiDigit_significant (d : Decimal) : ∀ c ∈ (significant d).1, isAsciiDigit c = true := by
  obtain ⟨k, hk⟩ := exists_significant_append d
  intro c hc
  exact isAsciiDigit_decimalDigits d.digits c (by simp [hk, hc])

theorem digitsValue_significant (d : Decimal) :
    ∃ k : Nat, d.digits = digitsValue (significant d).1 * 10 ^ k ∧
      (significant d).2 = (significant d).1.length + k + d.exponent := by
  obtain ⟨k, hk⟩ := exists_significant_append d
  refine ⟨k, ?_, ?_⟩
  · rw [← digitsValue_append_zeros, ← hk, digitsValue_decimalDigits]
  · have hlength : (significant d).2 = (decimalDigits d.digits).length + d.exponent := rfl
    rw [hlength, hk]
    simp

theorem significant_ne_nil {d : Decimal} (h : 0 < d.digits) : (significant d).1 ≠ [] := by
  intro hnil
  obtain ⟨k, hk, -⟩ := digitsValue_significant d
  rw [hnil] at hk
  have hzero : d.digits = 0 := by rw [hk]; exact Nat.zero_mul _
  omega

/-- The significant digits and the place of the point keep the value. -/
theorem ofDecimal_significant (negative : Bool) (d : Decimal) :
    ofDecimal negative (digitsValue (significant d).1)
      ((significant d).2 - (significant d).1.length) = ofDecimal negative d.digits d.exponent := by
  obtain ⟨k, hdigits, hpoint⟩ := digitsValue_significant d
  rw [hdigits, ofDecimal_mul_pow]
  congr 1
  omega

/-! ### Layouts -/

/-- What may follow the digits of a numeral, and the exponent that it gives. -/
inductive Tail : List Char → Int → Prop
  /-- Nothing follows. -/
  | none : Tail [] 0
  /-- An exponent follows. -/
  | power (k : Int) : Tail ('e' :: (if k < 0 then '-' else '+') :: twoDigits k.natAbs) k

/-- The text is an unsigned numeral with a point or an exponent, whose digits are `n` and whose
    last digit has the power of ten `p`. -/
inductive Layout : List Char → Nat → Int → Prop
  | pointed {whole fraction rest : List Char} {e : Int} (hne : whole ≠ [])
      (hw : ∀ c ∈ whole, isAsciiDigit c = true) (hfne : fraction ≠ [])
      (hf : ∀ c ∈ fraction, isAsciiDigit c = true) (ht : Tail rest e) :
      Layout (whole ++ '.' :: (fraction ++ rest)) (digitsValue (whole ++ fraction))
        (e - fraction.length)
  | powered {whole : List Char} (hne : whole ≠ []) (hw : ∀ c ∈ whole, isAsciiDigit c = true)
      (k : Int) :
      Layout (whole ++ 'e' :: (if k < 0 then '-' else '+') :: twoDigits k.natAbs)
        (digitsValue whole) k

theorem Tail.exponent_eq {rest : List Char} {e : Int} (h : Tail rest e) :
    exponent rest = some e := by
  cases h with
  | none => rfl
  | power => exact exponent_twoDigits e

theorem Tail.head {rest : List Char} {e : Int} (h : Tail rest e) :
    ∀ c, rest.head? = some c → isAsciiDigit c = false ∧ c ≠ '.' := by
  cases h with
  | none => simp
  | power k =>
    intro c hc
    obtain rfl := Option.some.inj hc
    decide

theorem Tail.chars {rest : List Char} {e : Int} (h : Tail rest e) :
    ∀ c ∈ rest, isNumeralChar c = true := by
  cases h with
  | none => simp
  | power k =>
    intro c hc
    rcases List.mem_cons.1 hc with rfl | hc
    · decide
    rcases List.mem_cons.1 hc with rfl | hc
    · split <;> decide
    · exact isNumeralChar_of_digit (isAsciiDigit_twoDigits _ c hc)

namespace Layout

variable {text : List Char} {n : Nat} {p : Int}

theorem decimal_eq (h : Layout text n p) (negative : Bool) :
    decimal negative text = some (ofDecimal negative n p) := by
  cases h with
  | pointed hne hw hfne hf ht =>
    exact decimal_of_point negative hne hw hf (fun c hc => (ht.head c hc).1) ht.exponent_eq
  | powered hne hw =>
    exact decimal_of_whole negative hne hw (Tail.power p).head (Tail.power p).exponent_eq

theorem chars (h : Layout text n p) : ∀ c ∈ text, isNumeralChar c = true := by
  cases h with
  | pointed hne hw hfne hf ht =>
    intro c hc
    simp only [List.mem_append, List.mem_cons] at hc
    rcases hc with hc | rfl | hc | hc
    · exact isNumeralChar_of_digit (hw c hc)
    · decide
    · exact isNumeralChar_of_digit (hf c hc)
    · exact ht.chars c hc
  | powered hne hw =>
    intro c hc
    rcases List.mem_append.1 hc with hc | hc
    · exact isNumeralChar_of_digit (hw c hc)
    · exact (Tail.power p).chars c hc

theorem head (h : Layout text n p) : ∃ c rest, text = c :: rest ∧ isAsciiDigit c = true := by
  have hwhole : ∀ {whole rest : List Char}, whole ≠ [] → (∀ c ∈ whole, isAsciiDigit c = true) →
      ∃ c more, whole ++ rest = c :: more ∧ isAsciiDigit c = true := by
    intro whole rest hne hw
    cases whole with
    | nil => exact absurd rfl hne
    | cons c whole => exact ⟨c, whole ++ rest, rfl, hw c (by simp)⟩
  cases h with
  | pointed hne hw => exact hwhole hne hw
  | powered hne hw => exact hwhole hne hw

/-- The text is not that of an integer. -/
theorem exists_not_digit (h : Layout text n p) : ∃ c ∈ text, isAsciiDigit c = false := by
  cases h with
  | pointed => exact ⟨'.', by simp, by decide⟩
  | powered => exact ⟨'e', by simp, by decide⟩

end Layout

theorem isAsciiDigit_zeros (k : Nat) : ∀ c ∈ List.replicate k '0', isAsciiDigit c = true := by
  intro c hc
  rw [List.eq_of_mem_replicate hc]
  decide

theorem isAsciiDigit_zero : ∀ c ∈ ['0'], isAsciiDigit c = true := isAsciiDigit_zeros 1

/-- Digits around a point keep their value. -/
theorem exists_layout_placePoint {digits : List Char} (hne : digits ≠ [])
    (hd : ∀ c ∈ digits, isAsciiDigit c = true) (point : Int) :
    ∃ n p, Layout (placePoint digits point ['.', '0']) n p ∧
      ∀ negative, ofDecimal negative n p =
        ofDecimal negative (digitsValue digits) (point - digits.length) := by
  unfold placePoint
  split
  · next hpoint =>
    -- zeros behind the point
    have hfraction : List.replicate (-point).toNat '0' ++ digits ≠ [] :=
      fun hnil => hne (List.append_eq_nil_iff.1 hnil).2
    have hlayout := Layout.pointed (by simp : ['0'] ≠ []) isAsciiDigit_zero hfraction
      (List.forall_mem_append.2 ⟨isAsciiDigit_zeros (-point).toNat, hd⟩) Tail.none
    rw [List.append_nil] at hlayout
    refine ⟨_, _, hlayout, fun negative => ?_⟩
    have hvalue : digitsValue (['0'] ++ (List.replicate (-point).toNat '0' ++ digits)) =
        digitsValue digits :=
      (digitsValue_zeros_append 1 _).trans (digitsValue_zeros_append _ _)
    rw [hvalue]
    congr 1
    simp only [List.length_append, List.length_replicate]
    omega
  · next hpoint =>
    simp only
    split
    · next hle =>
      -- zeros in front of the point
      have hlayout := Layout.pointed (fun hnil => hne (List.append_eq_nil_iff.1 hnil).1)
        (List.forall_mem_append.2 ⟨hd, isAsciiDigit_zeros (point.toNat - digits.length)⟩)
        (by simp : ['0'] ≠ []) isAsciiDigit_zero Tail.none
      refine ⟨_, _, hlayout, fun negative => ?_⟩
      have hvalue : digitsValue
          (digits ++ List.replicate (point.toNat - digits.length) '0' ++ ['0']) =
          digitsValue digits * 10 ^ (point.toNat - digits.length + 1) := by
        rw [← digitsValue_append_zeros, List.append_assoc, List.replicate_succ']
      rw [hvalue, ofDecimal_mul_pow]
      congr 1
      simp only [List.length_cons, List.length_nil]
      omega
    · next hlt =>
      -- the point between the digits
      have hfront : digits.take point.toNat ≠ [] := by
        rw [ne_eq, List.take_eq_nil_iff, not_or]
        exact ⟨by omega, hne⟩
      have hback : digits.drop point.toNat ≠ [] := by
        rw [ne_eq, List.drop_eq_nil_iff]
        exact hlt
      have hlayout := Layout.pointed hfront (fun c hc => hd c (List.mem_of_mem_take hc)) hback
        (fun c (hc : c ∈ digits.drop point.toNat) => hd c (List.mem_of_mem_drop hc)) Tail.none
      rw [List.append_nil] at hlayout
      refine ⟨_, _, hlayout, fun negative => ?_⟩
      rw [List.take_append_drop]
      congr 1
      simp only [List.length_drop]
      omega

/-- A written decimal keeps its value. -/
theorem exists_layout_writeDecimal {d : Decimal} (h : 0 < d.digits) :
    ∃ n p, Layout (writeDecimal d) n p ∧
      ∀ negative, ofDecimal negative n p = ofDecimal negative d.digits d.exponent := by
  have hne := significant_ne_nil h
  have hd := isAsciiDigit_significant d
  have hvalue := fun negative => ofDecimal_significant negative d
  unfold writeDecimal
  generalize significant d = s at hne hd hvalue
  obtain ⟨digits, point⟩ := s
  simp only at hne hd hvalue ⊢
  split
  · obtain ⟨n, p, hlayout, hp⟩ := exists_layout_placePoint hne hd point
    exact ⟨n, p, hlayout, fun negative => (hp negative).trans (hvalue negative)⟩
  -- with an exponent a single digit needs no point
  · match digits, hne, hd, hvalue with
    | [c], _, hd, hvalue =>
      refine ⟨_, _, Layout.powered (by simp) hd (point - 1), fun negative => ?_⟩
      exact hvalue negative
    | c :: c' :: rest, _, hd, hvalue =>
      have hfirst : ∀ x ∈ [c], isAsciiDigit x = true := fun x hx =>
        hd x (List.mem_of_mem_take (i := 1) hx)
      have hlayout := Layout.pointed (by simp) hfirst (by simp)
        (fun x (hx : x ∈ c' :: rest) => hd x (List.mem_cons_of_mem c hx)) (Tail.power (point - 1))
      refine ⟨_, _, hlayout, fun negative => ?_⟩
      rw [← hvalue negative]
      congr 1
      simp only [List.length_cons]
      omega

/-! ### Whole texts -/

/-- A minus in front of a negative number. -/
def signed (negative : Bool) (body : List Char) : List Char :=
  if negative then '-' :: body else body

section Signed

variable {body : List Char} (negative : Bool)

theorem chars_signed (h : ∀ c ∈ body, isNumeralChar c = true) :
    ∀ c ∈ signed negative body, isNumeralChar c = true := by
  intro c hc
  unfold signed at hc
  split at hc
  · rcases List.mem_cons.1 hc with rfl | hc
    · decide
    · exact h c hc
  · exact h c hc

theorem sign_signed (h : ∃ c rest, body = c :: rest ∧ isAsciiDigit c = true) :
    sign (signed negative body) = (negative, body) := by
  obtain ⟨c, rest, rfl, hc⟩ := h
  cases negative with
  | true => rfl
  | false => exact sign_of_digit hc rest

theorem ofText?_signed (hchars : ∀ c ∈ body, isNumeralChar c = true)
    (h : ∃ c rest, body = c :: rest ∧ isAsciiDigit c = true) :
    ofText? (signed negative body) = decimal negative body := by
  have hc := chars_signed negative hchars
  unfold ofText?
  rw [plain_of_isNumeralChar hc, Option.bind_some, dropUnderscores_of_isNumeralChar hc,
    Option.bind_some, float_of_sign (sign_signed negative h) h]

end Signed

/-! ### Doubles -/

/-- The text of a finite double is a layout that reads back. -/
theorem exists_layout_write (negative : Bool) (m : Nat) (e : Int) (h : Canonical m e) :
    ∃ body n p, (write (.finite negative m e h)).toList = signed negative body ∧
      Layout body n p ∧ ofDecimal negative n p = .finite negative m e h := by
  have htext : ∀ body, (String.ofList (if negative then '-' :: body else body)).toList =
      signed negative body := fun body => String.toList_ofList
  unfold write
  simp only [htext]
  split
  · next hm =>
    subst hm
    obtain rfl : e = -1074 := h.2.2.2.resolve_left (by decide)
    have hlayout := Layout.pointed (by simp : ['0'] ≠ []) isAsciiDigit_zero
      (by simp : ['0'] ≠ []) isAsciiDigit_zero Tail.none
    exact ⟨_, _, _, rfl, hlayout, rfl⟩
  · next hm =>
    have hpos : 0 < m := Nat.pos_of_ne_zero hm
    obtain ⟨n, p, hlayout, hvalue⟩ := exists_layout_writeDecimal (digits_shortest_pos hpos h)
    refine ⟨_, n, p, rfl, hlayout, ?_⟩
    rw [hvalue, ofDecimal_withSign, ofDecimal_shortest hpos h]
    rfl

variable {x : Binary64}

theorem chars_write (hx : x.isNaN = false) : ∀ c ∈ x.write.toList, isNumeralChar c = true := by
  cases x with
  | nan => exact absurd hx (by decide)
  | infinite negative => exact List.all_eq_true.1 (by cases negative <;> decide)
  | finite negative m e h =>
    obtain ⟨body, n, p, htext, hlayout, -⟩ := exists_layout_write negative m e h
    rw [htext]
    exact chars_signed negative hlayout.chars

/-- **The text of a double is read as that double.** -/
theorem ofText?_write (hx : x.isNaN = false) : ofText? x.write.toList = some x := by
  cases x with
  | nan => exact absurd hx (by decide)
  | infinite negative => cases negative <;> decide
  | finite negative m e h =>
    obtain ⟨body, n, p, htext, hlayout, hvalue⟩ := exists_layout_write negative m e h
    rw [htext, ofText?_signed negative hlayout.chars hlayout.head, hlayout.decimal_eq, hvalue]

/-- The text of a double is not that of an integer. -/
theorem integer_write (hx : x.isNaN = false) :
    Numeral.integer x.write.toList = .error .malformed := by
  cases x with
  | nan => exact absurd hx (by decide)
  | infinite negative => cases negative <;> decide
  | finite negative m e h =>
    obtain ⟨body, n, p, htext, hlayout, -⟩ := exists_layout_write negative m e h
    have hnot : body.all isAsciiDigit = false := by
      obtain ⟨c, hc, hdigit⟩ := hlayout.exists_not_digit
      exact List.all_eq_false.2 ⟨c, hc, by simp [hdigit]⟩
    unfold Numeral.integer
    rw [htext, plain_of_isNumeralChar (chars_signed negative hlayout.chars)]
    simp only [sign_signed negative hlayout.head]
    rw [dropUnderscores_of_isNumeralChar hlayout.chars]
    simp [hnot]

end DatasetCatalog.Binary64

namespace DatasetCatalog

open Numeral Binary64 Text

/-! ### Integers -/

theorem toList_integerText (n : Int) :
    (integerText n).toList = signed (decide (n < 0)) (decimalDigits n.natAbs) := by
  unfold integerText signed
  rw [String.toList_ofList]
  simp only [decide_eq_true_eq]

theorem head_decimalDigits (n : Nat) :
    ∃ c rest, decimalDigits n = c :: rest ∧ isAsciiDigit c = true := by
  have hd := isAsciiDigit_decimalDigits n
  cases h : decimalDigits n with
  | nil => exact absurd h Nat.toDigits_ne_nil
  | cons c rest => exact ⟨c, rest, rfl, hd c (by simp [h])⟩

theorem mem_integerText {n : Int} {c : Char} (h : c ∈ (integerText n).toList) :
    c = '-' ∨ isAsciiDigit c = true := by
  rw [toList_integerText, signed] at h
  split at h
  · exact (List.mem_cons.1 h).imp_right (isAsciiDigit_decimalDigits _ c)
  · exact .inr (isAsciiDigit_decimalDigits _ c h)

theorem chars_integerText (n : Int) : ∀ c ∈ (integerText n).toList, isNumeralChar c = true := by
  rw [toList_integerText]
  exact chars_signed _ fun c hc => isNumeralChar_of_digit (isAsciiDigit_decimalDigits _ c hc)

/-- The text of an integer is a whole numeral of that value, unless it has too many digits. -/
theorem integer_integerText_eq (n : Int) :
    Numeral.integer (integerText n).toList =
      if digitLimit < (decimalDigits n.natAbs).length then
        .error (.tooLong (decimalDigits n.natAbs).length)
      else .ok n := by
  have hd := isAsciiDigit_decimalDigits n.natAbs
  have hchars := fun c hc => isNumeralChar_of_digit (hd c hc)
  have hall : (decimalDigits n.natAbs).all isAsciiDigit = true := List.all_eq_true.2 hd
  have hne : decimalDigits n.natAbs ≠ [] := Nat.toDigits_ne_nil
  -- the sign and the size make up the integer again
  have hvalue : (if decide (n < 0) = true then -(n.natAbs : Int) else n.natAbs) = n := by
    simp only [decide_eq_true_eq]
    split <;> omega
  unfold Numeral.integer
  rw [toList_integerText, plain_of_isNumeralChar (chars_signed _ hchars)]
  simp only [sign_signed _ (head_decimalDigits _)]
  rw [dropUnderscores_of_isNumeralChar hchars]
  simp only
  rw [if_neg (by simp [hne, hall]), digitsValue_decimalDigits, hvalue]

/-- **The text of an integer of at most `digitLimit` digits is read as that integer.** -/
theorem integer_integerText {n : Int} (hn : n.natAbs < 10 ^ digitLimit) :
    Numeral.integer (integerText n).toList = .ok n := by
  have hlength : (decimalDigits n.natAbs).length ≤ digitLimit :=
    (Nat.length_toDigits_le_iff (by decide) (by decide)).2 hn
  rw [integer_integerText_eq, if_neg (Nat.not_lt.2 hlength)]

/-- The text of an integer of any size is read as the double nearest to it. -/
theorem ofText?_integerText (n : Int) :
    ofText? (integerText n).toList = some (ofDecimal (decide (n < 0)) n.natAbs 0) := by
  have hd := isAsciiDigit_decimalDigits n.natAbs
  have hend : ∀ c, ([] : List Char).head? = some c → isAsciiDigit c = false ∧ c ≠ '.' := nofun
  have hne : decimalDigits n.natAbs ≠ [] := Nat.toDigits_ne_nil
  have hdecimal := decimal_of_whole (decide (n < 0)) hne hd hend rfl
  rw [List.append_nil, digitsValue_decimalDigits] at hdecimal
  rw [toList_integerText, ofText?_signed _ (fun c hc => isNumeralChar_of_digit (hd c hc))
    (head_decimalDigits _)]
  exact hdecimal

theorem toList_pointed (n : Int) : (integerText n ++ ".0").toList =
    signed (decide (n < 0)) (decimalDigits n.natAbs ++ '.' :: (['0'] ++ [])) := by
  rw [String.toList_append, toList_integerText]
  unfold signed
  split <;> rfl

theorem layout_pointed (n : Nat) : Layout (decimalDigits n ++ '.' :: (['0'] ++ [])) (n * 10 ^ 1)
    (0 - (['0'] : List Char).length) := by
  have hvalue : digitsValue (decimalDigits n ++ ['0']) = n * 10 ^ 1 :=
    (digitsValue_append_zeros _ 1).trans (congrArg (· * 10 ^ 1) (digitsValue_decimalDigits n))
  rw [← hvalue]
  exact .pointed Nat.toDigits_ne_nil (isAsciiDigit_decimalDigits _) (List.cons_ne_nil _ _)
    isAsciiDigit_zero .none

theorem chars_pointed (n : Int) : ∀ c ∈ (integerText n ++ ".0").toList, isNumeralChar c = true := by
  rw [toList_pointed]
  exact chars_signed _ (layout_pointed _).chars

/-- The digits of an integer with `.0` behind them are read as the double nearest to it. -/
theorem ofText?_pointed (n : Int) :
    ofText? (integerText n ++ ".0").toList = some (ofDecimal (decide (n < 0)) n.natAbs 0) := by
  have hlayout := layout_pointed n.natAbs
  rw [toList_pointed, ofText?_signed _ hlayout.chars hlayout.head, hlayout.decimal_eq,
    ofDecimal_mul_pow]
  rfl

theorem integerText_injective : Function.Injective integerText := by
  intro a b h
  have hlist := congrArg (fun s => sign s.toList) h
  simp only [toList_integerText, sign_signed _ (head_decimalDigits _)] at hlist
  obtain ⟨hsign, hdigits⟩ := Prod.mk.inj hlist
  have hsize : a.natAbs = b.natAbs := by
    rw [← digitsValue_decimalDigits a.natAbs, hdigits, digitsValue_decimalDigits]
  have hneg : a < 0 ↔ b < 0 := decide_eq_decide.1 hsign
  omega

/-- No double is written as an integer is. -/
theorem write_ne_integerText {x : Binary64} (hx : x.isNaN = false) (n : Int) :
    x.write ≠ integerText n := by
  intro heq
  have hmalformed := integer_write hx
  rw [heq, integer_integerText_eq] at hmalformed
  split at hmalformed
  · exact absurd hmalformed (by simp)
  · exact absurd hmalformed (by simp)

end DatasetCatalog
