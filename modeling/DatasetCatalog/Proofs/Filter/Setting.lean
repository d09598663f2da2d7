import DatasetCatalog.Proofs.Except
import DatasetCatalog.Proofs.Filter.Bound

/-! # Settings in text form

  The settings that constraints give are *valid*: a single value is a solid text without a slash
  and without two dots in a row, a range has a bound and no bound that exceeds the other. The text
  of a valid setting is read again, and what is read is the setting with its bounds rounded. It is
  valid too, since rounding keeps the bounds in order.
-/

namespace DatasetCatalog.Filter

open Text Numeral

/-! ### Valid settings -/

/-- The setting is one that a constraint for the quality gives. -/
inductive Setting.Valid (q : Quality) : Setting → Prop
  | value {text : String} (hsolid : Solid text.toList) (hslash : '/' ∉ text.toList)
      (hsplit : splitRange text.toList = none)
      (hnumber : q.isNumeric = true → (Binary64.ofText? text.toList).isSome = true) :
      Valid q (.value text)
  | range {lo hi : Option Number} (hnumeric : q.isNumeric = true)
      (hbounded : ¬(lo = none ∧ hi = none)) (hlo : IsBound lo) (hhi : IsBound hi)
      (hle : ∀ a b, lo = some a → hi = some b → a.le b = true) : Valid q (.range lo hi)

section Range

variable {q : Quality} {lo hi : Option Number}

/-- A range that is accepted is valid. -/
theorem valid_of_rangeOf {c d : Constraint} {s : Setting} (h : rangeOf q c d = .ok s) :
    s.Valid q := by
  unfold rangeOf at h
  simp only [throw_bind_eq] at h
  split at h
  · exact absurd h nofun
  next hnumeric =>
  split at h
  · exact absurd h nofun
  next hopen =>
  obtain ⟨lo, hcheck, hrest⟩ := bind_eq_ok_iff.1 h
  obtain ⟨hi, hcheck', hrest'⟩ := bind_eq_ok_iff.1 hrest
  clear h hrest
  obtain ⟨hlo, rfl⟩ := isBound_of_checkBound hcheck
  obtain ⟨hhi, rfl⟩ := isBound_of_checkBound hcheck'
  have hbounded : ¬(lo = none ∧ hi = none) := by
    rintro ⟨rfl, rfl⟩
    exact hopen rfl
  have hnumeric : q.isNumeric = true := by simpa using hnumeric
  split at hrest'
  -- two bounds
  · next a b =>
    split at hrest'
    · exact absurd hrest' nofun
    next hlt =>
    obtain rfl := Except.ok.inj hrest'
    refine .range hnumeric hbounded hlo hhi ?_
    rintro _ _ ⟨⟩ ⟨⟩
    exact Number.le_of_not_lt (hlo a rfl) (hhi b rfl) (by simpa using hlt)
  -- an open end
  · next hnot =>
    obtain rfl := Except.ok.inj hrest'
    refine .range hnumeric hbounded hlo hhi ?_
    rintro a b rfl rfl
    exact (hnot a b rfl rfl).elim

/-- A valid range is accepted. -/
theorem rangeOf_of_valid (h : (Setting.range lo hi).Valid q) :
    rangeOf q (boundConstraint lo) (boundConstraint hi) = .ok (.range lo hi) := by
  cases h with
  | range hnumeric hbounded hlo hhi hle =>
    have hopen : ¬((isOpen (boundConstraint lo) && isOpen (boundConstraint hi)) = true) := by
      rw [isOpen_boundConstraint, isOpen_boundConstraint]
      simpa using hbounded
    unfold rangeOf
    simp only [throw_bind_eq]
    rw [if_neg (by simp [hnumeric]), if_neg hopen, checkBound_boundConstraint q hlo,
      checkBound_boundConstraint q hhi]
    simp only [bind, Except.bind]
    split
    · next a b =>
      rw [Number.lt_eq_false_of_le (hle a b rfl rfl), if_neg Bool.false_ne_true]
      rfl
    · rfl

end Range

/-! ### What constraints give -/

section Given

variable {q : Quality} {s : Setting}

theorem valid_of_readValue {t : List Char} (hsplit : splitRange t = none)
    (h : readValue q t = .ok s) : s.Valid q := by
  unfold readValue at h
  simp only at h
  split at h
  · exact absurd h nofun
  next hne =>
  split at h
  · exact absurd h nofun
  next hslash =>
  split at h
  · exact absurd h nofun
  next hnumber =>
  obtain rfl := Except.ok.inj h
  have hstripped : splitRange (strip t) = none :=
    splitRange_eq_none_iff.2 fun hdots =>
      splitRange_eq_none_iff.1 hsplit (hdots.trans (strip_infix_self t))
  have hread : q.isNumeric = true → (Binary64.ofText? (strip t)).isSome = true := by
    intro hq
    simpa [hq, Option.isSome_iff_ne_none] using hnumber
  have hsolid := solid_strip hne
  rw [← String.toList_ofList (l := strip t)] at hslash hstripped hread hsolid
  exact .value hsolid hslash hstripped hread

theorem valid_of_readSetting {t : List Char} (h : readSetting q t = .ok s) : s.Valid q := by
  unfold readSetting at h
  split at h
  · unfold readRange at h
    obtain ⟨lo, -, h⟩ := bind_eq_ok_iff.1 h
    obtain ⟨hi, -, h⟩ := bind_eq_ok_iff.1 h
    exact valid_of_rangeOf h
  · next hsplit => exact valid_of_readValue hsplit h

theorem solid_of_isNumeralChar {t : List Char} (hne : t ≠ [])
    (h : ∀ c ∈ t, isNumeralChar c = true) : Solid t :=
  solid_of_strip_eq hne (strip_of_isNumeralChar h)

/-- A single number is a value whatever the quality is. -/
theorem valid_plain (q : Quality) {a : Number} (h : a.isNaN = false) :
    (Setting.value a.plain).Valid q := by
  have hchars := Number.chars_plain h
  obtain ⟨y, hy, -⟩ := Number.exists_ofText?_plain h
  refine .value (solid_of_isNumeralChar (Number.plain_ne_nil h) hchars) ?_
    (Number.spaced_plain h).splitRange_eq_none fun _ => ?_
  · intro hslash
    exact absurd (hchars '/' hslash) (by decide)
  · rw [hy, Option.isSome_some]

/-- **The setting of a constraint is valid.** -/
theorem valid_of_settingOf {c : Constraint} (h : settingOf q c = .ok s) : s.Valid q := by
  unfold settingOf at h
  split at h
  · exact absurd h nofun
  · exact absurd h nofun
  · split at h
    · exact absurd h nofun
    · next hn =>
      obtain rfl := Except.ok.inj h
      exact valid_plain q (by simpa using hn)
  · exact valid_of_readSetting h
  · exact valid_of_rangeOf h
  · exact valid_of_rangeOf h
  · exact absurd h nofun

end Given

/-! ### Reading settings again -/

/-- The bounds of the range that a setting is. -/
def Setting.bounds : Setting → List Number
  | value _ => []
  | range lo hi => lo.toList ++ hi.toList

/-- The setting with its bounds rounded. -/
def Setting.reread : Setting → Setting
  | value text => value text
  | range lo hi => range (lo.map Number.reread) (hi.map Number.reread)

section Reread

variable {q : Quality} {s : Setting}

theorem isBound_reread {b : Option Number} (h : IsBound b) : IsBound (b.map Number.reread) := by
  cases b with
  | none => exact isBound_none
  | some a => exact isBound_some (Number.isNaN_reread (h a rfl))

/-- **A rounded range is still a range.** -/
theorem Setting.Valid.reread (h : s.Valid q) : s.reread.Valid q := by
  cases h with
  | value hsolid hslash hsplit hnumber => exact .value hsolid hslash hsplit hnumber
  | range hnumeric hbounded hlo hhi hle =>
    refine .range hnumeric (by simpa using hbounded) (isBound_reread hlo) (isBound_reread hhi) ?_
    intro a b ha hb
    obtain ⟨a', ha', rfl⟩ := Option.map_eq_some_iff.1 ha
    obtain ⟨b', hb', rfl⟩ := Option.map_eq_some_iff.1 hb
    exact Number.reread_le (hle a' b' ha' hb')

theorem toList_rangeText (lo hi : Option Number) :
    (Setting.range lo hi).text.toList =
      (boundText lo).toList ++ '.' :: '.' :: (boundText hi).toList := by
  unfold Setting.text
  rw [String.toList_append, String.toList_append, List.append_assoc]
  rfl

/-- **The text of a valid setting is read as the setting with its bounds rounded.** -/
theorem readSetting_text (h : s.Valid q) : readSetting q s.text.toList = .ok s.reread := by
  have hreread := h.reread
  unfold readSetting
  cases h with
  | @value text hsolid hslash hsplit hnumber =>
    have hread : ¬(q.isNumeric = true ∧ (Binary64.ofText? text.toList).isNone = true) := by
      rintro ⟨hq, hnone⟩
      rw [Option.isNone_iff_eq_none] at hnone
      exact absurd (hnumber hq) (by simp [hnone])
    unfold Setting.text
    simp only [hsplit]
    unfold readValue
    rw [hsolid.strip_eq]
    simp only
    rw [if_neg hsolid.ne_nil, if_neg hslash, if_neg hread, String.ofList_toList]
    rfl
  | range hnumeric hbounded hlo hhi hle =>
    rw [toList_rangeText, (spaced_boundText hlo).splitRange_append]
    unfold readRange
    simp only
    rw [readBound_boundText q hlo, readBound_boundText q hhi]
    exact rangeOf_of_valid hreread

/-- A setting as a constraint. -/
def Setting.constraint : Setting → Constraint
  | value text => .text text
  | range lo hi => .range (boundConstraint lo) (boundConstraint hi)

/-- A valid setting is what its constraint gives. -/
theorem settingOf_constraint (h : s.Valid q) : settingOf q s.constraint = .ok s := by
  cases h with
  | value hsolid hslash hsplit hnumber =>
    exact readSetting_text (.value hsolid hslash hsplit hnumber)
  | range hnumeric hbounded hlo hhi hle =>
    exact rangeOf_of_valid (.range hnumeric hbounded hlo hhi hle)

theorem boundText_reread_iff {b : Option Number} (h : IsBound b) :
    boundText (b.map Number.reread) = boundText b ↔ ∀ a ∈ b.toList, a.IsDouble := by
  cases b with
  | none => simp
  | some a =>
    have hplain := Number.plain_reread_iff (h a rfl)
    simpa [boundText] using hplain

/-- **A valid setting is written again in the same way exactly when some double equals each
    bound.** -/
theorem text_reread_iff (h : s.Valid q) :
    s.reread.text = s.text ↔ ∀ a ∈ s.bounds, a.IsDouble := by
  cases h with
  | value => simp [Setting.reread, Setting.bounds]
  | @range lo hi hnumeric hbounded hlo hhi hle =>
    unfold Setting.bounds
    rw [List.forall_mem_append, ← boundText_reread_iff hlo, ← boundText_reread_iff hhi]
    constructor
    · intro htext
      have hlist := congrArg (fun t : String => splitRange t.toList) htext
      simp only [Setting.reread, toList_rangeText,
        (spaced_boundText (isBound_reread hlo)).splitRange_append,
        (spaced_boundText hlo).splitRange_append, Option.some.injEq, Prod.mk.injEq,
        String.toList_inj] at hlist
      exact hlist
    · rintro ⟨hlow, hhigh⟩
      unfold Setting.reread Setting.text
      simp only [hlow, hhigh]

end Reread

end DatasetCatalog.Filter
