import DatasetCatalog.Proofs.Forall2
import DatasetCatalog.Proofs.Number.Numeral
import Mathlib.Data.List.Induction
import Mathlib.Data.Nat.Digits.Defs

/-! # Texts of integers

  A text spells an integer when it consists of decimal digits, of any scripts, with at most one
  minus sign in front. The look of a text says less: superscripts look like digits, and any number
  of minus signs may stand in front. Of the texts that look like an integer the reader of integers
  takes those that spell one and refuses the others.
-/

namespace DatasetCatalog.Numeral

open Text

/-! ### Spelled integers -/

/-- The values of the characters, which are decimal digits of any script. -/
abbrev Values (digits : List Char) (values : List Nat) : Prop :=
  List.Forall₂ (fun c d => digitValue? c = some d) digits values

/-- The number that digits make up, the most significant one first. -/
def numberOf (values : List Nat) : Nat := Nat.ofDigits 10 values.reverse

/-- The text consists of decimal digits, at least one and not too many, that make up the number. -/
structure Digits (s : List Char) (n : Nat) : Prop where
  /-- There is a digit. -/
  ne_nil : s ≠ []
  /-- There are no more digits than a numeral may have. -/
  length_le : s.length ≤ digitLimit
  /-- The digits make up the number. -/
  value : ∃ values, Values s values ∧ numberOf values = n

/-- The text spells the integer. -/
inductive Spells : List Char → Int → Prop where
  | natural {s : List Char} {n : Nat} (h : Digits s n) : Spells s n
  | negative {s : List Char} {n : Nat} (h : Digits s n) : Spells ('-' :: s) (-n)

/-- The text consists of characters that look like digits, and there is one. -/
def DigitLike (s : List Char) : Prop := s ≠ [] ∧ ∀ c ∈ s, isDigitLike c = true

/-! ### Characters that look like digits -/

/-- A decimal digit stands in the block of ten of a script. -/
theorem exists_zero_of_digitValue? {c : Char} {d : Nat} (h : digitValue? c = some d) :
    ∃ z ∈ zeros, z ≤ c.toNat ∧ c.toNat < z + 10 ∧ d = c.toNat - z := by
  unfold digitValue? at h
  split at h
  · next z hz =>
    have hblock := List.find?_some hz
    simp only [Bool.and_eq_true, decide_eq_true_eq] at hblock
    exact ⟨z, List.mem_of_find?_eq_some hz, hblock.1, hblock.2, (Option.some.inj h).symm⟩
  · exact absurd h nofun

theorem exists_range_of_has {ranges : Ranges} {n : Nat} (h : ranges.has n = true) :
    ∃ r ∈ ranges, r.1 ≤ n ∧ n ≤ r.2 := by
  induction ranges with
  | nil => exact absurd h Bool.false_ne_true
  | cons r rest ih =>
    unfold Ranges.has at h
    split at h
    · next hle => exact ⟨r, List.mem_cons_self, of_decide_eq_true h, hle⟩
    · obtain ⟨r', hmem, hr'⟩ := ih h
      exact ⟨r', List.mem_cons_of_mem r hmem, hr'⟩

/-- The code point is an ASCII digit, or it lies above ASCII and between the blank ones. -/
def Apart (n : Nat) : Prop :=
  48 ≤ n ∧ n < 58 ∨ 0xA0 < n ∧ n < 0x1680 ∨ 0x1680 < n ∧ n < 0x2000 ∨ 0x205F < n ∧ n < 0x3000 ∨
    0x3000 < n

theorem apart_of_digitValue? {c : Char} {d : Nat} (h : digitValue? c = some d) :
    Apart c.toNat := by
  have hzeros : ∀ z ∈ zeros, z = 48 ∨ 0xA0 < z ∧ z + 10 ≤ 0x1680 ∨ 0x1680 < z ∧ z + 10 ≤ 0x2000 ∨
      0x3000 < z := by decide
  obtain ⟨z, hmem, hlo, hhi, -⟩ := exists_zero_of_digitValue? h
  have hz := hzeros z hmem
  unfold Apart
  omega

theorem apart_of_digitLike {c : Char} (h : digitLike.has c.toNat = true) :
    Apart c.toNat ∧ 127 ≤ c.toNat := by
  have hranges : ∀ r ∈ digitLike, 0xA0 < r.1 ∧ r.2 < 0x1680 ∨ 0x1680 < r.1 ∧ r.2 < 0x2000 ∨
      0x205F < r.1 ∧ r.2 < 0x3000 ∨ 0x3000 < r.1 := by decide
  obtain ⟨r, hmem, hlo, hhi⟩ := exists_range_of_has h
  have hr := hranges r hmem
  unfold Apart
  omega

theorem isBlank_of_apart {c : Char} (h : Apart c.toNat) : isBlank c = false := by
  unfold Apart at h
  simp only [isBlank, Bool.or_eq_false_iff, Bool.and_eq_false_iff, decide_eq_false_iff_not,
    beq_eq_false_iff_ne]
  omega

/-! ### The plain form of digits -/

/-- The ASCII digit of a value. -/
def digitOf (d : Nat) : Char := Char.ofNat (48 + d)

theorem isAsciiDigit_digitOf {d : Nat} (h : d < 10) : isAsciiDigit (digitOf d) = true := by
  have hall : ∀ d < 10, isAsciiDigit (digitOf d) = true := by decide
  exact hall d h

theorem toNat_digitOf {d : Nat} (h : d < 10) : (digitOf d).toNat - 48 = d := by
  have hall : ∀ d < 10, (digitOf d).toNat - 48 = d := by decide
  exact hall d h

theorem lt_ten_of_digitValue? {c : Char} {d : Nat} (h : digitValue? c = some d) : d < 10 := by
  obtain ⟨z, -, hlo, hhi, rfl⟩ := exists_zero_of_digitValue? h
  omega

/-- A character that looks like a digit becomes the ASCII digit of its value, if it has one. -/
theorem plainChar_of_isDigitLike {c : Char} (h : isDigitLike c = true) :
    plainChar c = (digitValue? c).map digitOf := by
  unfold plainChar
  cases hvalue : digitValue? c with
  | some d =>
    rw [isBlank_of_apart (apart_of_digitValue? hvalue)]
    by_cases hascii : c.toNat < 127
    · -- of all decimal digits only those of ASCII are that low
      have hzeros : ∀ z ∈ zeros, z = 48 ∨ 127 ≤ z := by decide
      obtain ⟨z, hmem, hlo, hhi, rfl⟩ := exists_zero_of_digitValue? hvalue
      obtain rfl : z = 48 := by
        have := hzeros z hmem
        omega
      rw [if_pos hascii, Option.map_some, digitOf, Nat.add_sub_cancel' hlo, Char.ofNat_toNat]
    · rw [if_neg hascii]
      rfl
  | none =>
    have hlike : digitLike.has c.toNat = true := by
      unfold isDigitLike at h
      rw [hvalue] at h
      exact h
    obtain ⟨hapart, hhigh⟩ := apart_of_digitLike hlike
    rw [if_neg (Nat.not_lt.2 hhigh), isBlank_of_apart hapart]
    rfl

theorem isDigitLike_of_digitValue? {c : Char} {d : Nat} (h : digitValue? c = some d) :
    isDigitLike c = true := by
  unfold isDigitLike
  rw [h]
  rfl

/-- Of characters that look like digits the decimal digits have a plain form. -/
theorem mapM_plainChar_eq_some {s t : List Char} (h : ∀ c ∈ s, isDigitLike c = true) :
    s.mapM plainChar = some t ↔
      ∃ values, Values s values ∧ t = values.map digitOf := by
  induction s generalizing t with
  | nil => simp [eq_comm]
  | cons c s ih =>
    obtain ⟨hc, hs⟩ := List.forall_mem_cons.1 h
    rw [List.mapM_cons, plainChar_of_isDigitLike hc]
    simp only [List.forall₂_cons_left_iff, Option.bind_eq_bind, Option.bind_eq_some_iff,
      Option.map_eq_some_iff, ih hs]
    constructor
    · intro h
      obtain ⟨_, ⟨d, hd, rfl⟩, _, ⟨values, hvalues, rfl⟩, ht⟩ := h
      exact ⟨d :: values, ⟨d, values, hd, hvalues, rfl⟩, (Option.some.inj ht).symm⟩
    · intro h
      obtain ⟨_, ⟨d, values, hd, hvalues, rfl⟩, rfl⟩ := h
      exact ⟨digitOf d, ⟨d, hd, rfl⟩, _, ⟨values, hvalues, rfl⟩, rfl⟩

theorem digitsValue_map_digitOf {values : List Nat} (h : ∀ d ∈ values, d < 10) :
    digitsValue (values.map digitOf) = numberOf values := by
  unfold numberOf
  -- digits count from the last one on when they are read back
  induction values using List.reverseRecOn with
  | nil => rfl
  | append_singleton values d ih =>
    have hd : d < 10 := h d (by simp)
    have ih := ih fun d' hd' => h d' (List.mem_append_left _ hd')
    unfold digitsValue at ih ⊢
    rw [List.map_append, List.foldl_append, ih, List.reverse_append, List.reverse_singleton,
      List.singleton_append, Nat.ofDigits_cons, List.map_singleton, List.foldl_cons,
      List.foldl_nil, toNat_digitOf hd]
    omega

/-! ### The reader of integers -/

section Values

variable {digits : List Char} {values : List Nat} (h : Values digits values)
include h

theorem Values.lt_ten : ∀ d ∈ values, d < 10 := by
  intro d hd
  obtain ⟨c, -, hc⟩ := exists_of_forall₂_mem h hd
  exact lt_ten_of_digitValue? hc

theorem Values.isDigitLike : ∀ c ∈ digits, isDigitLike c = true := by
  intro c hc
  obtain ⟨d, -, hd⟩ := exists_of_mem_forall₂ h hc
  exact isDigitLike_of_digitValue? hd

theorem Values.isAsciiDigit : ∀ c ∈ values.map digitOf, isAsciiDigit c = true := by
  intro c hc
  obtain ⟨d, hd, rfl⟩ := List.mem_map.1 hc
  exact isAsciiDigit_digitOf (h.lt_ten d hd)

theorem Values.isNumeralChar (k : Nat) :
    ∀ c ∈ List.replicate k '-' ++ values.map digitOf, isNumeralChar c = true := by
  intro c hc
  rcases List.mem_append.1 hc with hc | hc
  · obtain rfl := List.eq_of_mem_replicate hc
    decide
  · exact isNumeralChar_of_digit (h.isAsciiDigit c hc)

end Values

theorem mapM_plainChar_replicate (k : Nat) (s : List Char) :
    (List.replicate k '-' ++ s).mapM plainChar =
      (s.mapM plainChar).map (List.replicate k '-' ++ ·) := by
  have hminus : plainChar '-' = some '-' := by decide
  induction k with
  | zero => simp
  | succ k ih =>
    rw [List.replicate_succ, List.cons_append, List.mapM_cons, hminus, ih]
    cases s.mapM plainChar <;> rfl

/-- The plain form of digits with minus signs in front. -/
theorem plain_of_values {digits : List Char} {values : List Nat} (h : Values digits values)
    (k : Nat) :
    plain (List.replicate k '-' ++ digits) = some (List.replicate k '-' ++ values.map digitOf) := by
  have hmap := (mapM_plainChar_eq_some h.isDigitLike).2 ⟨values, h, rfl⟩
  have hstrip : ∀ c ∈ List.replicate k '-' ++ values.map digitOf, isAsciiBlank c = false :=
    fun c hc => isAsciiBlank_of_isNumeralChar (h.isNumeralChar k c hc)
  unfold plain
  rw [mapM_plainChar_replicate, hmap, Option.map_some, Option.map_some, stripBy_of_forall hstrip]

/-- Digits with at most one minus sign in front are read, unless they are too many. -/
theorem integer_of_values {digits : List Char} {values : List Nat} (h : Values digits values)
    (hne : digits ≠ []) (negative : Bool) :
    integer ((if negative then ['-'] else []) ++ digits) =
      if digitLimit < digits.length then .error (.tooLong digits.length)
      else .ok (if negative then -(numberOf values : Int) else numberOf values) := by
  have hlength : (values.map digitOf).length = digits.length := by
    rw [List.length_map, h.length_eq]
  obtain ⟨c, rest, hcons⟩ : ∃ c rest, values.map digitOf = c :: rest := by
    apply List.exists_cons_of_length_pos
    rw [hlength]
    exact List.length_pos_iff.2 hne
  have hc : isAsciiDigit c = true := h.isAsciiDigit c (hcons ▸ List.mem_cons_self)
  have hall : (values.map digitOf).all isAsciiDigit = true := List.all_eq_true.2 h.isAsciiDigit
  have hdrop := dropUnderscores_of_isNumeralChar (h.isNumeralChar 0) false
  rw [List.replicate_zero, List.nil_append] at hdrop
  have hsign : sign ((if negative then ['-'] else []) ++ values.map digitOf) =
      (negative, values.map digitOf) := by
    cases negative with
    | true => rfl
    | false => rw [hcons]; exact sign_of_digit hc rest
  have hplain : plain ((if negative then ['-'] else []) ++ digits) =
      some ((if negative then ['-'] else []) ++ values.map digitOf) := by
    cases negative with
    | true => exact plain_of_values h 1
    | false => exact plain_of_values h 0
  have hwell : ¬ (values.map digitOf = [] ∨ (!(values.map digitOf).all isAsciiDigit) = true) := by
    rw [hcons] at hall ⊢
    simp [hall]
  unfold integer
  simp only [hplain, hsign, hdrop, if_neg hwell, hlength, digitsValue_map_digitOf h.lt_ten]

/-- Behind a minus sign there is no second one. -/
theorem integer_of_signs {digits : List Char} {values : List Nat} (h : Values digits values)
    (k : Nat) : integer (List.replicate (k + 2) '-' ++ digits) = .error .malformed := by
  have hdrop := dropUnderscores_of_isNumeralChar (h.isNumeralChar (k + 1)) false
  have hsign : sign (List.replicate (k + 2) '-' ++ values.map digitOf) =
      (true, List.replicate (k + 1) '-' ++ values.map digitOf) := rfl
  have hminus : isAsciiDigit '-' = false := by decide
  unfold integer
  simp only [plain_of_values h, hsign, hdrop]
  apply if_pos
  right
  simp [List.replicate_succ, hminus]

/-- Characters that only look like digits have no plain form. -/
theorem integer_of_not_values {digits : List Char} (hlike : ∀ c ∈ digits, isDigitLike c = true)
    (h : ∀ values, ¬ Values digits values) (k : Nat) :
    integer (List.replicate k '-' ++ digits) = .error .malformed := by
  have hmap : digits.mapM plainChar = none := by
    cases hmap : digits.mapM plainChar with
    | none => rfl
    | some t =>
      obtain ⟨values, hvalues, -⟩ := (mapM_plainChar_eq_some hlike).1 hmap
      exact absurd hvalues (h values)
  unfold integer plain
  rw [mapM_plainChar_replicate, hmap]
  rfl

/-- **Of the texts that look like an integer those are read that spell one.** -/
theorem spells_iff {s : List Char} {n : Int} :
    Spells s n ↔ DigitLike (s.dropWhile (· == '-')) ∧ integer s = .ok n := by
  constructor
  · intro h
    -- no digit is a minus sign, so the digits are what is left without the signs
    have hdigits : ∀ {digits : List Char} {values : List Nat}, Values digits values →
        digits.dropWhile (· == '-') = digits := by
      intro digits values h
      apply dropWhile_eq_self
      intro c hc
      have hlike := h.isDigitLike c (List.mem_of_head? hc)
      apply beq_false_of_ne
      rintro rfl
      exact absurd hlike (by decide)
    cases h with
    | natural h =>
      obtain ⟨hne, hle, values, hvalues : Values _ values, rfl⟩ := h
      rw [hdigits hvalues]
      refine ⟨⟨hne, hvalues.isDigitLike⟩, ?_⟩
      exact (integer_of_values hvalues hne false).trans (if_neg (Nat.not_lt.2 hle))
    | negative h =>
      obtain ⟨hne, hle, values, hvalues : Values _ values, rfl⟩ := h
      rw [List.dropWhile_cons_of_pos (by decide), hdigits hvalues]
      refine ⟨⟨hne, hvalues.isDigitLike⟩, ?_⟩
      exact (integer_of_values hvalues hne true).trans (if_neg (Nat.not_lt.2 hle))
  · rintro ⟨⟨hne, hlike⟩, hinteger⟩
    obtain ⟨k, hsigns⟩ : ∃ k, s.takeWhile (· == '-') = List.replicate k '-' := by
      refine ⟨_, List.eq_replicate_of_mem fun c hc => ?_⟩
      have hc := List.mem_takeWhile_imp (p := (· == '-')) hc
      exact eq_of_beq hc
    have hsplit := List.takeWhile_append_dropWhile (p := (· == '-')) (l := s)
    rw [hsigns] at hsplit
    generalize s.dropWhile (· == '-') = digits at hne hlike hsplit
    subst hsplit
    by_cases hvalues : ∃ values, Values digits values
    · obtain ⟨values, hvalues⟩ := hvalues
      have hread : ∀ negative : Bool,
          integer ((if negative then ['-'] else []) ++ digits) = .ok n →
          digits.length ≤ digitLimit ∧
            (if negative then -(numberOf values : Int) else numberOf values) = n := by
        intro negative hread
        rw [integer_of_values hvalues hne] at hread
        split at hread
        · exact absurd hread nofun
        · next hle => exact ⟨Nat.not_lt.1 hle, Except.ok.inj hread⟩
      match k with
      | 0 =>
        obtain ⟨hle, rfl⟩ := hread false hinteger
        exact .natural ⟨hne, hle, values, hvalues, rfl⟩
      | 1 =>
        obtain ⟨hle, rfl⟩ := hread true hinteger
        exact .negative ⟨hne, hle, values, hvalues, rfl⟩
      | k + 2 =>
        rw [integer_of_signs hvalues] at hinteger
        exact absurd hinteger nofun
    · rw [integer_of_not_values hlike (not_exists.1 hvalues)] at hinteger
      exact absurd hinteger nofun

end DatasetCatalog.Numeral
