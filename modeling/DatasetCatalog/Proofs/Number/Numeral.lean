import DatasetCatalog.Number.Numeral
import DatasetCatalog.Number.Shortest
import DatasetCatalog.Proofs.Text.Blank
import Mathlib.Algebra.Group.Nat.Defs
import Mathlib.Data.List.TakeWhile

/-! # Reading numerals

  How the parts of a numeral are found in its text: the sign, the digits on both sides of the
  point, the exponent. The texts that numbers are written as consist of few characters, none of
  which is white space, an underscore or a capital, so the steps that read such a text into plain
  form change nothing.
-/

namespace DatasetCatalog.Numeral

open Text

/-! ### Digits -/

theorem digitsValue_eq_ofDigitChars (s : List Char) : digitsValue s = Nat.ofDigitChars 10 s 0 := rfl

theorem digitsValue_decimalDigits (n : Nat) : digitsValue (decimalDigits n) = n :=
  Nat.ofDigitChars_ten_toDigits

theorem isAsciiDigit_decimalDigits (n : Nat) : ∀ c ∈ decimalDigits n, isAsciiDigit c = true :=
  fun _ hc => Nat.isDigit_of_mem_toDigits (by decide) (by decide) hc

theorem digitsValue_append_zeros (s : List Char) (k : Nat) :
    digitsValue (s ++ List.replicate k '0') = digitsValue s * 10 ^ k := by
  simp only [digitsValue_eq_ofDigitChars]
  rw [Nat.ofDigitChars_append, Nat.ofDigitChars_replicate_zero, Nat.mul_comm]

theorem digitsValue_zeros_append (k : Nat) (s : List Char) :
    digitsValue (List.replicate k '0' ++ s) = digitsValue s := by
  simp only [digitsValue_eq_ofDigitChars]
  rw [Nat.ofDigitChars_append, Nat.ofDigitChars_replicate_zero, Nat.mul_zero]

/-! ### Parts of a numeral -/

section Parts

variable {whole fraction rest : List Char}

theorem takeWhile_digits_append (hw : ∀ c ∈ whole, isAsciiDigit c = true)
    (hr : ∀ c, rest.head? = some c → isAsciiDigit c = false) :
    (whole ++ rest).takeWhile isAsciiDigit = whole ∧
      (whole ++ rest).dropWhile isAsciiDigit = rest := by
  rw [List.takeWhile_append_of_pos hw, List.dropWhile_append_of_pos hw]
  cases rest with
  | nil => simp
  | cons c rest => simp [hr c rfl]

theorem mantissa_of_point (hw : ∀ c ∈ whole, isAsciiDigit c = true)
    (hf : ∀ c ∈ fraction, isAsciiDigit c = true)
    (hr : ∀ c, rest.head? = some c → isAsciiDigit c = false) :
    mantissa (whole ++ '.' :: (fraction ++ rest)) = (whole, fraction, rest) := by
  have hpoint : ∀ c, ('.' :: (fraction ++ rest)).head? = some c → isAsciiDigit c = false := by
    intro c hc
    obtain rfl := Option.some.inj hc
    decide
  obtain ⟨htake, hdrop⟩ := takeWhile_digits_append hw hpoint
  obtain ⟨htake', hdrop'⟩ := takeWhile_digits_append hf hr
  unfold mantissa
  simp only [htake, hdrop, htake', hdrop']

theorem mantissa_of_whole (hw : ∀ c ∈ whole, isAsciiDigit c = true)
    (hr : ∀ c, rest.head? = some c → isAsciiDigit c = false ∧ c ≠ '.') :
    mantissa (whole ++ rest) = (whole, [], rest) := by
  obtain ⟨htake, hdrop⟩ := takeWhile_digits_append hw fun c hc => (hr c hc).1
  unfold mantissa
  simp only [htake, hdrop]
  -- what follows the digits does not begin with a point
  split
  · exact absurd rfl (hr '.' rfl).2
  · rfl

theorem decimal_of_point (negative : Bool) (hne : whole ≠ [])
    (hw : ∀ c ∈ whole, isAsciiDigit c = true) (hf : ∀ c ∈ fraction, isAsciiDigit c = true)
    (hr : ∀ c, rest.head? = some c → isAsciiDigit c = false) {e : Int}
    (he : exponent rest = some e) :
    decimal negative (whole ++ '.' :: (fraction ++ rest)) =
      some (Binary64.ofDecimal negative (digitsValue (whole ++ fraction)) (e - fraction.length)) := by
  unfold decimal
  rw [mantissa_of_point hw hf hr]
  simp [hne, he]

theorem decimal_of_whole (negative : Bool) (hne : whole ≠ [])
    (hw : ∀ c ∈ whole, isAsciiDigit c = true)
    (hr : ∀ c, rest.head? = some c → isAsciiDigit c = false ∧ c ≠ '.') {e : Int}
    (he : exponent rest = some e) :
    decimal negative (whole ++ rest) =
      some (Binary64.ofDecimal negative (digitsValue whole) e) := by
  unfold decimal
  rw [mantissa_of_whole hw hr]
  simp [hne, he]

end Parts

theorem digitsValue_twoDigits (n : Nat) : digitsValue (Binary64.twoDigits n) = n := by
  unfold Binary64.twoDigits
  split
  · exact (digitsValue_zeros_append 1 _).trans (digitsValue_decimalDigits n)
  · exact digitsValue_decimalDigits n

theorem isAsciiDigit_twoDigits (n : Nat) : ∀ c ∈ Binary64.twoDigits n, isAsciiDigit c = true := by
  intro c hc
  unfold Binary64.twoDigits at hc
  split at hc
  · rcases List.mem_cons.1 hc with rfl | hc
    · decide
    · exact isAsciiDigit_decimalDigits n c hc
  · exact isAsciiDigit_decimalDigits n c hc

theorem twoDigits_ne_nil (n : Nat) : Binary64.twoDigits n ≠ [] := by
  unfold Binary64.twoDigits
  split
  · simp
  · exact Nat.toDigits_ne_nil

/-- A written exponent is read. -/
theorem exponent_twoDigits (power : Int) :
    exponent ('e' :: (if power < 0 then '-' else '+') :: Binary64.twoDigits power.natAbs) =
      some power := by
  have hdigits : Binary64.twoDigits power.natAbs ≠ [] ∧
      (Binary64.twoDigits power.natAbs).all isAsciiDigit = true :=
    ⟨twoDigits_ne_nil _, List.all_eq_true.2 (isAsciiDigit_twoDigits _)⟩
  by_cases hneg : power < 0
  · rw [if_pos hneg]
    simp only [exponent, sign, true_or, if_true, if_pos hdigits, digitsValue_twoDigits]
    congr 1
    omega
  · rw [if_neg hneg]
    simp only [exponent, sign, true_or, if_true, if_pos hdigits, digitsValue_twoDigits,
      Bool.false_eq_true, if_false]
    congr 1
    omega

/-! ### The characters of written numbers -/

/-- The characters that written numbers consist of: digits, points, signs, and the letters of
    exponents and infinities. -/
def isNumeralChar (c : Char) : Bool :=
  isAsciiDigit c || c ∈ ['.', '-', '+', 'e', 'i', 'n', 'f']

theorem isNumeralChar_of_digit {c : Char} (h : isAsciiDigit c = true) : isNumeralChar c = true := by
  simp [isNumeralChar, h]

theorem toNat_of_isAsciiDigit {c : Char} (h : isAsciiDigit c = true) :
    48 ≤ c.toNat ∧ c.toNat ≤ 57 := by
  unfold isAsciiDigit at h
  rw [Bool.and_eq_true, decide_eq_true_eq, decide_eq_true_eq] at h
  exact ⟨UInt32.le_iff_toNat_le.1 h.1, UInt32.le_iff_toNat_le.1 h.2⟩

theorem toNat_of_isNumeralChar {c : Char} (h : isNumeralChar c = true) :
    43 ≤ c.toNat ∧ c.toNat ≤ 57 ∨ 101 ≤ c.toNat ∧ c.toNat ≤ 110 := by
  unfold isNumeralChar at h
  rw [Bool.or_eq_true] at h
  rcases h with h | h
  · have := toNat_of_isAsciiDigit h
    omega
  · simp only [List.mem_cons, List.not_mem_nil, or_false, decide_eq_true_eq] at h
    rcases h with rfl | rfl | rfl | rfl | rfl | rfl | rfl <;> decide

section Characters

variable {s : List Char}

theorem isBlank_of_isNumeralChar {c : Char} (h : isNumeralChar c = true) : isBlank c = false := by
  have := toNat_of_isNumeralChar h
  simp only [isBlank, Bool.or_eq_false_iff, Bool.and_eq_false_iff, decide_eq_false_iff_not]
  omega

theorem isAsciiBlank_of_isNumeralChar {c : Char} (h : isNumeralChar c = true) :
    isAsciiBlank c = false := by
  have := toNat_of_isNumeralChar h
  simp only [isAsciiBlank, Bool.or_eq_false_iff, decide_eq_false_iff_not, beq_eq_false_iff_ne]
  omega

theorem stripBy_of_forall {p : Char → Bool} (h : ∀ c ∈ s, p c = false) : stripBy p s = s :=
  stripBy_eq_self (fun c hc => h c (List.mem_of_head? hc))
    fun c hc => h c (List.mem_of_getLast? hc)

theorem strip_of_isNumeralChar (h : ∀ c ∈ s, isNumeralChar c = true) : strip s = s :=
  stripBy_of_forall fun c hc => isBlank_of_isNumeralChar (h c hc)

theorem plain_of_isNumeralChar (h : ∀ c ∈ s, isNumeralChar c = true) : plain s = some s := by
  have hmap : s.mapM plainChar = some s := by
    induction s with
    | nil => rfl
    | cons c s ih =>
      have hc := toNat_of_isNumeralChar (h c (by simp))
      have hplain : plainChar c = some c := if_pos (by omega)
      rw [List.mapM_cons, hplain, ih fun d hd => h d (by simp [hd])]
      rfl
  unfold plain
  rw [hmap, Option.map_some, stripBy_of_forall fun c hc => isAsciiBlank_of_isNumeralChar (h c hc)]

theorem dropUnderscores_cons {c : Char} (hc : c ≠ '_') (previous : Bool) (s : List Char) :
    dropUnderscores previous (c :: s) = (dropUnderscores (isAsciiDigit c) s).map (c :: ·) := by
  rw [dropUnderscores.eq_def]
  split
  · next heq => exact absurd heq (by simp)
  · next heq => exact absurd (List.cons.inj heq).1 hc
  · next heq =>
    obtain ⟨rfl, rfl⟩ := List.cons.inj heq
    rw [if_neg hc]

theorem dropUnderscores_of_notMem (h : '_' ∉ s) (previous : Bool) :
    dropUnderscores previous s = some s := by
  induction s generalizing previous with
  | nil => rfl
  | cons c s ih =>
    have hc : c ≠ '_' := fun hc => h (by simp [hc])
    rw [dropUnderscores_cons hc, ih fun hs => h (by simp [hs])]
    rfl

theorem dropUnderscores_of_isNumeralChar (h : ∀ c ∈ s, isNumeralChar c = true) (previous : Bool) :
    dropUnderscores previous s = some s :=
  dropUnderscores_of_notMem (fun hmem => absurd (h '_' hmem) (by decide)) previous

theorem lowerChar_of_isNumeralChar {c : Char} (h : isNumeralChar c = true) : lowerChar c = c := by
  have hrange := toNat_of_isNumeralChar h
  have hcode : lowerCode caseRuns c.toNat = c.toNat := by
    unfold caseRuns
    rw [lowerCode]
    split
    -- below the capitals
    · next hlast =>
      have hle : c.toNat ≤ 0x5A := hlast
      refine if_neg fun hfirst => ?_
      have hge : 0x41 ≤ c.toNat := hfirst.1
      omega
    -- between the ASCII capitals and the next run
    · have hle : c.toNat ≤ 0xD6 := by omega
      rw [lowerCode, if_pos hle]
      refine if_neg fun hfirst => ?_
      have hge : 0xC0 ≤ c.toNat := hfirst.1
      omega
  unfold lowerChar
  rw [hcode]
  exact Char.ofNat_toNat c

theorem lower_of_isNumeralChar (h : ∀ c ∈ s, isNumeralChar c = true) : lower s = s := by
  have hafter : ∀ before, lowerAfter before s = s := by
    induction s with
    | nil => exact fun _ => rfl
    | cons c s ih =>
      intro before
      have hc := h c (by simp)
      have hrange := toNat_of_isNumeralChar hc
      have hsigma : c ≠ 'Σ' := by
        rintro rfl
        exact absurd hrange (by decide)
      have hdotted : c ≠ 'İ' := by
        rintro rfl
        exact absurd hrange (by decide)
      rw [lowerAfter, ih fun d hd => h d (by simp [hd])]
      simp only [if_neg hsigma, if_neg hdotted, lowerChar_of_isNumeralChar hc]
      rfl
  exact hafter []

end Characters

/-! ### Whole numerals -/

/-- What begins with a digit has no sign. -/
theorem sign_of_digit {c : Char} (hc : isAsciiDigit c = true) (rest : List Char) :
    sign (c :: rest) = (false, c :: rest) := by
  unfold sign
  split
  · next heq => exact absurd ((List.cons.inj heq).1 ▸ hc) (by decide)
  · next heq => exact absurd ((List.cons.inj heq).1 ▸ hc) (by decide)
  · rfl

theorem float_of_sign {s body : List Char} {negative : Bool} (hsign : sign s = (negative, body))
    (h : ∃ c rest, body = c :: rest ∧ isAsciiDigit c = true) :
    float s = decimal negative body := by
  obtain ⟨c, rest, rfl, hc⟩ := h
  -- the words for infinities and for no number begin with a letter, the body with a digit
  have hword : ∀ d : Char, ∀ word, isAsciiDigit d = false →
      (c :: rest).map Char.toLower ≠ d :: word := by
    intro d word hd heq
    have hlower : c.toLower = d := (List.cons.inj heq).1
    have hrange := toNat_of_isAsciiDigit hc
    have hsame : c.toLower = c := by
      unfold Char.toLower
      rw [dif_neg]
      intro hupper
      have : 65 ≤ c.toNat := UInt32.le_iff_toNat_le.1 hupper.1
      omega
    rw [← hlower, hsame, hc] at hd
    exact absurd hd (by decide)
  have hinf : (c :: rest).map Char.toLower ≠ "inf".toList := hword 'i' _ (by decide)
  have hinfinity : (c :: rest).map Char.toLower ≠ "infinity".toList := hword 'i' _ (by decide)
  have hnan : (c :: rest).map Char.toLower ≠ "nan".toList := hword 'n' _ (by decide)
  unfold float
  rw [hsign]
  simp only
  rw [if_neg (not_or.2 ⟨hinf, hinfinity⟩), if_neg hnan]

/-- What an integer numeral has passed: plain characters, a sign, underscores, digits, their
    number. -/
theorem exists_digits_of_integer {s : List Char} {n : Int} (h : integer s = .ok n) :
    ∃ t negative body digits, plain s = some t ∧ sign t = (negative, body) ∧
      dropUnderscores false body = some digits ∧
      (digits ≠ [] ∧ (∀ c ∈ digits, isAsciiDigit c = true) ∧ digits.length ≤ digitLimit) ∧
      n = if negative then -(digitsValue digits : Int) else digitsValue digits := by
  unfold integer at h
  split at h
  · exact absurd h (by simp)
  next t hplain =>
  obtain ⟨negative, body, hsign⟩ : ∃ negative body, sign t = (negative, body) := ⟨_, _, rfl⟩
  simp only [hsign] at h
  split at h
  · exact absurd h (by simp)
  next digits hdigits =>
  split at h
  · exact absurd h (by simp)
  next hwell =>
  split at h
  · exact absurd h (by simp)
  next hlength =>
  obtain ⟨hne, hall⟩ := not_or.1 hwell
  exact ⟨t, negative, body, digits, hplain, hsign, hdigits,
    ⟨hne, by simpa using hall, Nat.not_lt.1 hlength⟩, (Except.ok.inj h).symm⟩

theorem digitsValue_lt {s : List Char} (h : ∀ c ∈ s, isAsciiDigit c = true) :
    digitsValue s < 10 ^ s.length := by
  induction s using List.reverseRecOn with
  | nil => decide
  | append_singleton s c ih =>
    have hc := toNat_of_isAsciiDigit (h c (by simp))
    have hs := ih fun d hd => h d (List.mem_append_left _ hd)
    have hvalue : digitsValue (s ++ [c]) = 10 * digitsValue s + (c.toNat - 48) := by
      unfold digitsValue
      rw [List.foldl_append]
      rfl
    rw [hvalue, List.length_append, List.length_singleton, Nat.pow_succ]
    omega

/-- An integer numeral spells an integer of at most `digitLimit` digits. -/
theorem natAbs_lt_of_integer {s : List Char} {n : Int} (h : integer s = .ok n) :
    n.natAbs < 10 ^ digitLimit := by
  obtain ⟨t, negative, body, digits, -, -, -, ⟨-, hd, hlength⟩, rfl⟩ := exists_digits_of_integer h
  have hsize : (if negative then -(digitsValue digits : Int) else digitsValue digits).natAbs =
      digitsValue digits := by
    cases negative <;> simp
  rw [hsize]
  exact (digitsValue_lt hd).trans_le (Nat.pow_le_pow_right (by decide) hlength)

/-- An integer numeral is a floating-point numeral without a point and an exponent. -/
theorem ofText?_of_integer {s : List Char} {n : Int} (h : integer s = .ok n) :
    ∃ negative, ∃ digits : Nat, n = (if negative then -(digits : Int) else digits) ∧
      Binary64.ofText? s = some (Binary64.ofDecimal negative digits 0) := by
  obtain ⟨t, negative, body, digits, hplain, hsign, hdigits, ⟨hne, hd, -⟩, rfl⟩ :=
    exists_digits_of_integer h
  have hhead : ∃ c rest, digits = c :: rest ∧ isAsciiDigit c = true := by
    cases digits with
    | nil => exact absurd rfl hne
    | cons c rest => exact ⟨c, rest, rfl, hd c (by simp)⟩
  -- the sign stays in front when the underscores are removed
  have hdrop : ∃ u, dropUnderscores false t = some u ∧ sign u = (negative, digits) := by
    unfold sign at hsign
    split at hsign
    · obtain ⟨rfl, rfl⟩ := Prod.mk.inj hsign
      refine ⟨'-' :: digits, ?_, rfl⟩
      rw [dropUnderscores_cons (by decide)]
      exact congrArg (Option.map _) hdigits
    · obtain ⟨rfl, rfl⟩ := Prod.mk.inj hsign
      refine ⟨'+' :: digits, ?_, rfl⟩
      rw [dropUnderscores_cons (by decide)]
      exact congrArg (Option.map _) hdigits
    · obtain ⟨rfl, rfl⟩ := Prod.mk.inj hsign
      refine ⟨digits, hdigits, ?_⟩
      obtain ⟨c, rest, rfl, hc⟩ := hhead
      exact sign_of_digit hc rest
  obtain ⟨u, hu, husign⟩ := hdrop
  refine ⟨negative, digitsValue digits, rfl, ?_⟩
  unfold Binary64.ofText?
  rw [hplain, Option.bind_some, hu, Option.bind_some, float_of_sign husign hhead]
  have hend : ∀ c, ([] : List Char).head? = some c → isAsciiDigit c = false ∧ c ≠ '.' := nofun
  have hdecimal := decimal_of_whole negative hne hd hend rfl
  rwa [List.append_nil] at hdecimal

end DatasetCatalog.Numeral
