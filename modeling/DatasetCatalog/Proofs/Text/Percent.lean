import DatasetCatalog.Text.Percent
import Mathlib.Data.List.Basic
import Mathlib.Tactic.IntervalCases

/-! # Percent encoding, encoded and decoded

  An encoded text decodes to the bytes that it was made of, as a path segment and as a query value.
  It is made of letters, digits, the marks `-._~` and percent signs, in a query also of plus signs,
  so nothing in it ends a segment, a parameter, a query or the path.
-/

namespace DatasetCatalog.Percent

/-! ### Digits and plain bytes -/

theorem hexValue?_hexDigit {n : Nat} (h : n < 16) : hexValue? (hexDigit n) = some n := by
  interval_cases n <;> rfl

/-- A plain byte is one of the ASCII letters, digits and marks. -/
theorem lt_of_isPlain {b : UInt8} (h : isPlain b = true) : b.toNat < 127 := by
  simp only [isPlain, Bool.or_eq_true, decide_eq_true_eq, beq_iff_eq] at h
  omega

theorem toNat_ofNat {n : Nat} (h : n < 127) : (Char.ofNat n).toNat = n := by
  have hvalid : n.isValidChar := .inl (by omega)
  rw [Char.ofNat, dif_pos hvalid]
  rfl

/-- A plain byte as a character is encoded in UTF-8 as itself. -/
theorem utf8EncodeChar_of_isPlain {b : UInt8} (h : isPlain b = true) :
    String.utf8EncodeChar (Char.ofNat b.toNat) = [b] := by
  have hlt := lt_of_isPlain h
  have hval : (Char.ofNat b.toNat).val.toNat = b.toNat := toNat_ofNat hlt
  unfold String.utf8EncodeChar
  rw [hval]
  simp only
  rw [if_pos (by omega), UInt8.ofNat_toNat]

/-! ### Characters -/

/-- The character occurs in an encoded path segment. -/
def isEncoded (c : Char) : Bool :=
  let n := c.toNat
  decide (48 ≤ n ∧ n ≤ 57) || decide (65 ≤ n ∧ n ≤ 90) || decide (97 ≤ n ∧ n ≤ 122) ||
    n == 45 || n == 46 || n == 95 || n == 126 || n == 37

theorem isEncoded_hexDigit {n : Nat} (h : n < 16) : isEncoded (hexDigit n) = true := by
  interval_cases n <;> rfl

theorem isEncoded_encodeByte {b : UInt8} {c : Char} (h : c ∈ encodeByte b) :
    isEncoded c = true := by
  unfold encodeByte at h
  split at h
  · next hplain =>
    obtain rfl := List.mem_singleton.1 h
    unfold isEncoded
    rw [toNat_ofNat (lt_of_isPlain hplain)]
    simp only [isPlain] at hplain
    simp only [hplain, Bool.true_or]
  · have hb := b.toNat_lt
    simp only [escape, List.mem_cons, List.not_mem_nil, or_false] at h
    rcases h with rfl | rfl | rfl
    · rfl
    · exact isEncoded_hexDigit (by omega)
    · exact isEncoded_hexDigit (by omega)

theorem isEncoded_encode {s : String} {c : Char} (h : c ∈ (encode s).toList) :
    isEncoded c = true := by
  rw [encode, String.toList_ofList, List.mem_flatMap] at h
  obtain ⟨b, -, hc⟩ := h
  exact isEncoded_encodeByte hc

/-- A query value has plus signs besides. -/
theorem isEncoded_encodeQuery {s : String} {c : Char} (h : c ∈ (encodeQuery s).toList) :
    isEncoded c = true ∨ c = '+' := by
  rw [encodeQuery, String.toList_ofList, List.mem_flatMap] at h
  obtain ⟨b, -, hc⟩ := h
  unfold encodeQueryByte at hc
  split at hc
  · exact .inr (List.mem_singleton.1 hc)
  · exact .inl (isEncoded_encodeByte hc)

/-! ### Decoding -/

theorem decode_cons {c : Char} (h : c ≠ '%') (rest : List Char) :
    decode (c :: rest) = String.utf8EncodeChar c ++ decode rest := by
  rw [decode.eq_def]
  split
  · next heq => exact absurd heq (List.cons_ne_nil _ _)
  · next heq =>
    obtain ⟨rfl, -⟩ := List.cons.inj heq
    exact absurd rfl h
  · next heq =>
    obtain ⟨rfl, rfl⟩ := List.cons.inj heq
    rfl

theorem decode_of_notMem {s : List Char} (h : '%' ∉ s) :
    decode s = s.flatMap String.utf8EncodeChar := by
  induction s with
  | nil => rfl
  | cons c s ih =>
    have hc : c ≠ '%' := fun heq => h (heq ▸ List.mem_cons_self)
    rw [decode_cons hc, List.flatMap_cons, ih fun hmem => h (List.mem_cons_of_mem c hmem)]

/-- A query value that has nothing encoded in it stands for itself. -/
theorem decodeQuery_of_notMem {s : List Char} (hplus : '+' ∉ s) (hpercent : '%' ∉ s) :
    decodeQuery s = s.flatMap String.utf8EncodeChar := by
  have hself : s.map (fun c => if c = '+' then ' ' else c) = s := by
    refine (List.map_congr_left fun c hc => if_neg ?_).trans (List.map_id' s)
    rintro rfl
    exact hplus hc
  rw [decodeQuery, hself, decode_of_notMem hpercent]

theorem decode_escape (b : UInt8) (rest : List Char) :
    decode (escape b ++ rest) = b :: decode rest := by
  have hb := b.toNat_lt
  have hvalue : 16 * (b.toNat / 16) + b.toNat % 16 = b.toNat := by omega
  simp only [escape, List.cons_append, List.nil_append, decode]
  rw [hexValue?_hexDigit (by omega), hexValue?_hexDigit (by omega)]
  simp only [hvalue, UInt8.ofNat_toNat]

theorem decode_encodeByte (b : UInt8) (rest : List Char) :
    decode (encodeByte b ++ rest) = b :: decode rest := by
  unfold encodeByte
  split
  · next hplain =>
    have hne : Char.ofNat b.toNat ≠ '%' := by
      intro heq
      have hn := congrArg Char.toNat heq
      rw [toNat_ofNat (lt_of_isPlain hplain)] at hn
      simp [isPlain, hn] at hplain
    rw [List.singleton_append, decode_cons hne, utf8EncodeChar_of_isPlain hplain]
    rfl
  · exact decode_escape b rest

/-- **An encoded segment decodes to the bytes of the text.** -/
theorem decode_encode (s : String) : decode (encode s).toList = bytes s := by
  rw [encode, String.toList_ofList]
  induction bytes s with
  | nil => rfl
  | cons b bs ih => rw [List.flatMap_cons, decode_encodeByte, ih]

/-- A plus sign stands for a space, and no other byte is written with one. -/
theorem map_encodeQueryByte (b : UInt8) :
    (encodeQueryByte b).map (fun c => if c = '+' then ' ' else c) =
      if b = 32 then [' '] else encodeByte b := by
  unfold encodeQueryByte
  split
  · rfl
  · have hself : ∀ c ∈ encodeByte b, (if c = '+' then ' ' else c) = c := by
      intro c hc
      refine if_neg ?_
      rintro rfl
      exact absurd (isEncoded_encodeByte hc) (by decide)
    exact (List.map_congr_left hself).trans (List.map_id' _)

/-- **An encoded query value decodes to the bytes of the text.** -/
theorem decodeQuery_encodeQuery (s : String) :
    decodeQuery (encodeQuery s).toList = bytes s := by
  rw [encodeQuery, String.toList_ofList, decodeQuery]
  induction bytes s with
  | nil => rfl
  | cons b bs ih =>
    rw [List.flatMap_cons, List.map_append, map_encodeQueryByte]
    split
    · next hspace =>
      rw [List.singleton_append, decode_cons (by decide), ih, hspace]
      rfl
    · rw [decode_encodeByte, ih]

end DatasetCatalog.Percent
