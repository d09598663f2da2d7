import DatasetCatalog.Proofs.Forall2
import DatasetCatalog.Proofs.Number.Decimal
import DatasetCatalog.Proofs.Number.IntegerText

/-! # Numerals that spell no number

  A floating-point numeral may say that it is no number: with the word for it in any case, with or
  without a sign, and with white space around it. Neither the word nor the sign is a digit, so they
  are written in the text as they are read.
-/

namespace DatasetCatalog.Numeral

open Text

/-! ### The word -/

section Words

variable {s t word : List Char} {c d : Char}

/-- The word for no number in any case. -/
def NanWord (s : List Char) : Prop := s.map Char.toLower = "nan".toList

theorem eq_or_eq_of_toLower {small capital : Char} (h : c.toLower = small)
    (hcapital : capital.toNat + 32 = small.toNat) : c = small ∨ c = capital := by
  unfold Char.toLower at h
  split at h
  · next hrange =>
    have hlast : c.val.toNat ≤ 90 := UInt32.le_iff_toNat_le.1 hrange.2
    have hvalue : c.toNat + 32 = small.toNat := by
      rw [← h]
      show c.val.toNat + 32 = (c.val + 32).toNat
      rw [UInt32.toNat_add]
      exact (Nat.mod_eq_of_lt (by omega : c.val.toNat + 32 < 2 ^ 32)).symm
    have hsame : c.toNat = capital.toNat := by omega
    exact .inr (Char.toNat_inj.1 hsame)
  · exact .inl h

theorem exists_of_nanWord (h : NanWord word) : ∃ a b c, word = [a, b, c] ∧ (a = 'n' ∨ a = 'N') ∧
    (b = 'a' ∨ b = 'A') ∧ (c = 'n' ∨ c = 'N') := by
  obtain ⟨a, rest, rfl, ha, hrest⟩ := List.map_eq_cons_iff.1 h
  obtain ⟨b, rest, rfl, hb, hrest⟩ := List.map_eq_cons_iff.1 hrest
  obtain ⟨c, rest, rfl, hc, hrest⟩ := List.map_eq_cons_iff.1 hrest
  obtain rfl := List.map_eq_nil_iff.1 hrest
  exact ⟨a, b, c, rfl, eq_or_eq_of_toLower ha (by decide), eq_or_eq_of_toLower hb (by decide),
    eq_or_eq_of_toLower hc (by decide)⟩

theorem lower_of_nanWord (h : NanWord word) : lower word = "nan".toList := by
  obtain ⟨a, b, c, rfl, rfl | rfl, rfl | rfl, rfl | rfl⟩ := exists_of_nanWord h <;> decide +kernel

theorem lower_sign_ne (hc : c = '-' ∨ c = '+') (h : NanWord word) :
    lower (c :: word) ≠ "nan".toList := by
  obtain ⟨a, b, d, rfl, rfl | rfl, rfl | rfl, rfl | rfl⟩ := exists_of_nanWord h <;>
    rcases hc with rfl | rfl <;> decide +kernel

/-! ### What is read is what is written -/

/-- The characters of the word and of a sign. -/
def IsNanChar (c : Char) : Prop := c ∈ ['-', '+', 'n', 'N', 'a', 'A']

theorem NanWord.isNanChar (h : NanWord word) : ∀ c ∈ word, IsNanChar c := by
  obtain ⟨a, b, c, rfl, rfl | rfl, rfl | rfl, rfl | rfl⟩ := exists_of_nanWord h <;>
    simp [IsNanChar]

theorem IsNanChar.spec (h : IsNanChar c) :
    isBlank c = false ∧ isAsciiBlank c = false ∧ isAsciiDigit c = false := by
  unfold IsNanChar at h
  simp only [List.mem_cons, List.not_mem_nil, or_false] at h
  rcases h with rfl | rfl | rfl | rfl | rfl | rfl <;> decide

/-- Only white space has a plain form that is white space, and a character of the word is its own
    plain form. -/
theorem plainChar_spec (h : plainChar c = some d) :
    (isAsciiBlank d = true → isBlank c = true) ∧ (IsNanChar d → c = d) := by
  unfold plainChar at h
  split at h
  · obtain rfl := Option.some.inj h
    refine ⟨fun hd => ?_, fun _ => rfl⟩
    unfold isAsciiBlank at hd
    unfold isBlank
    simp only [Bool.or_eq_true, decide_eq_true_eq, beq_iff_eq] at hd ⊢
    omega
  split at h
  · next hblank =>
    obtain rfl := Option.some.inj h
    exact ⟨fun _ => hblank, fun hd => absurd hd.spec (by decide)⟩
  · -- the plain form of a digit is a digit
    obtain ⟨v, hv, rfl⟩ := Option.map_eq_some_iff.1 h
    have hdigits : ∀ v < 10, isAsciiBlank (Char.ofNat (48 + v)) = false ∧
        isAsciiDigit (Char.ofNat (48 + v)) = true := by
      decide
    obtain ⟨hblank, hdigit⟩ := hdigits v (lt_ten_of_digitValue? hv)
    constructor
    · exact fun hd => absurd hd (by rw [hblank]; nofun)
    · exact fun hd => absurd hd.spec.2.2 (by rw [hdigit]; nofun)

/-- Where no digits are left, there were no underscores. -/
theorem eq_of_dropUnderscores {previous : Bool} (h : dropUnderscores previous s = some t)
    (ht : ∀ c ∈ t, isAsciiDigit c = false) : s = t := by
  induction previous, s using dropUnderscores.induct generalizing t with
  | case1 previous => exact Option.some.inj h
  | case2 previous c rest hdigit ih =>
    rw [dropUnderscores, if_pos hdigit] at h
    obtain ⟨u, -, rfl⟩ := Option.map_eq_some_iff.1 h
    rw [ht c List.mem_cons_self, Bool.and_false] at hdigit
    cases hdigit
  | case3 previous c rest hdigit =>
    rw [dropUnderscores, if_neg hdigit] at h
    cases h
  | case4 previous rest hrest =>
    cases rest with
    | nil => exact absurd h (by simp [dropUnderscores])
    | cons c rest => exact (hrest c rest rfl rfl).elim
  | case5 previous c rest _ hc ih =>
    rw [dropUnderscores_cons hc] at h
    obtain ⟨u, hu, rfl⟩ := Option.map_eq_some_iff.1 h
    rw [ih hu fun d hd => ht d (List.mem_cons_of_mem c hd)]

/-- A text whose plain form is made of the characters of the word has that form between white
    space. -/
theorem strip_of_plain (h : plain s = some t) (ht : ∀ c ∈ t, IsNanChar c) : strip s = t := by
  obtain ⟨u, hu, hstrip⟩ := Option.map_eq_some_iff.1 h
  obtain ⟨front, back, hsplit, hfront, hback⟩ := exists_stripBy isAsciiBlank u
  rw [hstrip] at hsplit
  subst hsplit
  -- what was stripped from the plain form stands on white space in the text
  obtain ⟨begun, after, rfl, hbegun, hafter⟩ := exists_append_of_forall₂ (mapM_eq_some_iff.1 hu)
  obtain ⟨before, body, rfl, hbefore, hbody⟩ := exists_append_of_forall₂ hbegun
  have hblank : ∀ {xs ys : List Char}, List.Forall₂ (fun c d => plainChar c = some d) xs ys →
      (∀ d ∈ ys, isAsciiBlank d = true) → ∀ c ∈ xs, isBlank c = true := by
    intro xs ys hxs hys c hc
    obtain ⟨d, hd, hcd⟩ := exists_of_mem_forall₂ hxs hc
    exact (plainChar_spec hcd).1 (hys d hd)
  have hsame : List.Forall₂ (· = ·) t body :=
    ((List.forall₂_and_left t body).2 ⟨ht, hbody.flip⟩).imp fun d c hcd =>
      ((plainChar_spec hcd.2).2 hcd.1).symm
  rw [List.forall₂_eq_eq_eq] at hsame
  rw [strip_surrounded (hblank hbefore hfront) (hblank hafter hback), ← hsame]
  exact stripBy_of_forall fun c hc => (ht c hc).spec.1

/-! ### Reading it -/

theorem eq_sign_or (s : List Char) :
    s = (sign s).2 ∨ ∃ c, (c = '-' ∨ c = '+') ∧ s = c :: (sign s).2 := by
  unfold sign
  split
  · exact .inr ⟨'-', .inl rfl, rfl⟩
  · exact .inr ⟨'+', .inr rfl, rfl⟩
  · exact .inl rfl

/-- What is read as no number is the word for it, behind a sign or none. -/
theorem float_eq_nan (h : float t = some .nan) : NanWord (sign t).2 := by
  unfold float at h
  simp only at h
  split at h
  · exact absurd h nofun
  · split at h
    · next hword => exact hword
    · unfold decimal at h
      simp only at h
      split at h
      · exact absurd h nofun
      · obtain ⟨e, -, he⟩ := Option.map_eq_some_iff.1 h
        have hnan := congrArg Binary64.isNaN he
        rw [Binary64.isNaN_ofDecimal] at hnan
        exact absurd hnan nofun

/-- **What a text is that is read as no number**: the word for it between white space, behind a sign
    or none. -/
theorem spelling_of_ofText?_eq_nan (h : Binary64.ofText? s = some .nan) :
    ∃ word, NanWord word ∧ (strip s = word ∨ ∃ c, (c = '-' ∨ c = '+') ∧ strip s = c :: word) := by
  obtain ⟨t, ht, hfloat⟩ := Option.bind_eq_some_iff.1 h
  obtain ⟨u, hu, hfloat⟩ := Option.bind_eq_some_iff.1 hfloat
  have hword := float_eq_nan hfloat
  refine ⟨(sign u).2, hword, ?_⟩
  have hu' : ∀ c ∈ u, IsNanChar c := by
    intro c hc
    obtain heq | ⟨d, hd, heq⟩ := eq_sign_or u
    · exact hword.isNanChar c (heq ▸ hc)
    · rw [heq] at hc
      rcases List.mem_cons.1 hc with rfl | hc
      · unfold IsNanChar
        rcases hd with rfl | rfl <;> decide
      · exact hword.isNanChar c hc
  obtain rfl := eq_of_dropUnderscores hu fun c hc => (hu' c hc).spec.2.2
  rw [strip_of_plain ht hu']
  exact eq_sign_or t

end Words

end DatasetCatalog.Numeral
