import DatasetCatalog.Proofs.Filter.Normal
import DatasetCatalog.Proofs.Number.Spelled

/-! # What a filter may ask for

  A constraint is sensible when its value, on a numeric quality, is a number, and when its range is
  on a numeric quality, has a bound, and has its bounds in order as the numbers that are written.
  Named constraints form a filter when they are sensible and their qualities are known and
  distinct, and a path does when the pairs of its segments do. Two forms of text are taken beside
  them: a text that says that it is no number, as the value of a numeric quality, and a range whose
  bounds are in the wrong order until they are rounded, to the same double.
-/

namespace DatasetCatalog.Filter

open Text Numeral Number

variable {q : Quality}

/-! ### Sensible constraints -/

/-- A bound that is given as a value, and the number that it is; `none` for an open end. -/
inductive GivenBound : Constraint → Option Position → Prop
  | absent : GivenBound .absent none
  | number {a : Number} {p : Position} (h : a.position? = some p) : GivenBound (.number a) (some p)

/-- A bound in text form, and the number that it spells; white space for an open end. -/
inductive TextBound : List Char → Option Position → Prop
  | blank {t : List Char} (h : strip t = []) : TextBound t none
  | number {t : List Char} {p : Position} (hne : strip t ≠ []) (h : spelled? t = some p) :
      TextBound t (some p)

/-- There is a bound, and no lower one lies above an upper one. -/
structure Ordered (lo hi : Option Position) : Prop where
  bounded : ¬(lo = none ∧ hi = none)
  le : ∀ p ∈ lo, ∀ r ∈ hi, p.le r = true

/-- A text with the form of a single value. -/
structure Single (t : List Char) : Prop where
  unsplit : splitRange t = none
  solid : strip t ≠ []
  noSlash : '/' ∉ strip t

/-- The constraint says what the quality may be. -/
inductive Sensible (q : Quality) : Constraint → Prop
  | number {a : Number} (h : a.isNaN = false) : Sensible q (.number a)
  | text {s : String} (h : Single s.toList)
      (hnumber : q.isNumeric = true → ∃ p, spelled? (strip s.toList) = some p) :
      Sensible q (.text s)
  | textRange {s : String} {lo hi : List Char} {p r : Option Position}
      (hnumeric : q.isNumeric = true) (hsplit : splitRange s.toList = some (lo, hi))
      (hlo : TextBound lo p) (hhi : TextBound hi r) (h : Ordered p r) : Sensible q (.text s)
  | range {lo hi : Constraint} {p r : Option Position} (hnumeric : q.isNumeric = true)
      (hlo : GivenBound lo p) (hhi : GivenBound hi r) (h : Ordered p r) :
      Sensible q (.range lo hi)
  | items {lo hi : Constraint} {p r : Option Position} (hnumeric : q.isNumeric = true)
      (hlo : GivenBound lo p) (hhi : GivenBound hi r) (h : Ordered p r) :
      Sensible q (.items [lo, hi])

/-- The constraint is not sensible but taken all the same. -/
inductive Lapse (q : Quality) : Constraint → Prop
  /-- A text that says that it is no number. -/
  | nan {s : String} (h : Single s.toList) (hnumeric : q.isNumeric = true)
      (hnan : Binary64.ofText? (strip s.toList) = some .nan) : Lapse q (.text s)
  /-- Bounds in the wrong order that are read as the same number. -/
  | rounded {s : String} {lo hi : List Char} {p r : Position} (hnumeric : q.isNumeric = true)
      (hsplit : splitRange s.toList = some (lo, hi)) (hlo : TextBound lo (some p))
      (hhi : TextBound hi (some r)) (hinverted : p.le r = false)
      (hsame : readBound q lo = readBound q hi) : Lapse q (.text s)

/-! ### Ranges -/

section Range

variable {lo hi : Option Number}

theorem givenBound_iff {c : Constraint} {p : Option Position} :
    GivenBound c p ↔ ∃ b, c = boundConstraint b ∧ IsBound b ∧ b.bind position? = p := by
  constructor
  · rintro (_ | ⟨hp⟩)
    · exact ⟨none, rfl, isBound_none, rfl⟩
    · next a p => exact ⟨some a, rfl, isBound_some (isNaN_of_position? hp), hp⟩
  · rintro ⟨b, rfl, hb, rfl⟩
    cases b with
    | none => exact .absent
    | some a =>
      obtain ⟨p, hp⟩ := exists_position (hb a rfl)
      rw [Option.bind_some, hp]
      exact .number hp

/-- Bounds are in order when the numbers that they are stand in order. -/
theorem ordered_iff (hlo : IsBound lo) (hhi : IsBound hi) :
    Ordered (lo.bind position?) (hi.bind position?) ↔
      ¬(lo = none ∧ hi = none) ∧ ∀ a b, lo = some a → hi = some b → a.le b = true := by
  have hnone : ∀ {b : Option Number}, IsBound b → (b.bind position? = none ↔ b = none) := by
    intro b hb
    cases b with
    | none => exact iff_of_true rfl rfl
    | some a =>
      obtain ⟨p, hp⟩ := exists_position (hb a rfl)
      simp [hp]
  constructor
  · rintro ⟨hbounded, hle⟩
    rw [hnone hlo, hnone hhi] at hbounded
    refine ⟨hbounded, ?_⟩
    rintro a b rfl rfl
    obtain ⟨p, hp⟩ := exists_position (hlo a rfl)
    obtain ⟨r, hr⟩ := exists_position (hhi b rfl)
    unfold Number.le
    rw [hp, hr]
    exact hle p hp r hr
  · rintro ⟨hbounded, hle⟩
    refine ⟨by rwa [hnone hlo, hnone hhi], fun p hmem r hmem' => ?_⟩
    obtain ⟨a, rfl, hp⟩ := Option.bind_eq_some_iff.1 hmem
    obtain ⟨b, rfl, hr⟩ := Option.bind_eq_some_iff.1 hmem'
    have hab := hle a b rfl rfl
    unfold Number.le at hab
    rwa [hp, hr] at hab

/-- The ranges that are taken are the valid ones. -/
theorem exists_rangeOf_iff_valid {c d : Constraint} :
    (∃ s, rangeOf q c d = .ok s) ↔
      ∃ lo hi, c = boundConstraint lo ∧ d = boundConstraint hi ∧ (Setting.range lo hi).Valid q := by
  constructor
  · rintro ⟨s, hs⟩
    obtain ⟨lo, hi, rfl, hc, hd⟩ := exists_bounds_of_rangeOf hs
    exact ⟨lo, hi, hc, hd, valid_of_rangeOf hs⟩
  · rintro ⟨lo, hi, rfl, rfl, hvalid⟩
    exact ⟨_, rangeOf_of_valid hvalid⟩

/-- **A range of values is taken exactly when it is on a numeric quality and its bounds are numbers
    in order.** -/
theorem exists_rangeOf_iff {c d : Constraint} :
    (∃ s, rangeOf q c d = .ok s) ↔
      q.isNumeric = true ∧ ∃ p r, GivenBound c p ∧ GivenBound d r ∧ Ordered p r := by
  rw [exists_rangeOf_iff_valid]
  constructor
  · rintro ⟨lo, hi, rfl, rfl, hvalid⟩
    cases hvalid with
    | range hnumeric hbounded hlo hhi hle =>
      exact ⟨hnumeric, _, _, givenBound_iff.2 ⟨lo, rfl, hlo, rfl⟩,
        givenBound_iff.2 ⟨hi, rfl, hhi, rfl⟩, (ordered_iff hlo hhi).2 ⟨hbounded, hle⟩⟩
  · rintro ⟨hnumeric, p, r, hp, hr, hordered⟩
    obtain ⟨lo, rfl, hlo, rfl⟩ := givenBound_iff.1 hp
    obtain ⟨hi, rfl, hhi, rfl⟩ := givenBound_iff.1 hr
    obtain ⟨hbounded, hle⟩ := (ordered_iff hlo hhi).1 hordered
    exact ⟨lo, hi, rfl, rfl, .range hnumeric hbounded hlo hhi hle⟩

end Range

/-! ### Ranges in text form -/

/-- The number that a bound spells, and the one that it is read as. -/
inductive Rounds : Option Position → Option Number → Prop
  | absent : Rounds none none
  | number {p : Position} {x : Binary64} (h : Rounded p x) :
      Rounds (some p) (some (float x).integral)

section Rounds

variable {p r : Option Position} {a b : Option Number} {lo hi t : List Char}

theorem Rounds.isBound (h : Rounds p a) : IsBound a := by
  cases h with
  | absent => exact isBound_none
  | number hx => exact isBound_some (isNaN_integral hx.isNaN)

/-- A bound that spells a number is read, and rounded. -/
theorem exists_readBound (q : Quality) (h : TextBound t p) :
    ∃ a, readBound q t = .ok (boundConstraint a) ∧ Rounds p a := by
  unfold readBound
  cases h with
  | blank hblank => exact ⟨none, if_pos hblank, .absent⟩
  | number hne hspelled =>
    have hreads := reads_ofText? t
    rw [hspelled] at hreads
    generalize hx : Binary64.ofText? t = x at hreads
    cases hreads with
    | number hround => exact ⟨_, if_neg hne, .number hround⟩

/-- A bound that is read as a number, or as open, spells it. -/
theorem exists_textBound (h : readBound q t = .ok (boundConstraint a)) (ha : IsBound a) :
    ∃ p, TextBound t p ∧ Rounds p a := by
  unfold readBound at h
  split at h
  · next hblank =>
    cases a with
    | none => exact ⟨none, .blank hblank, .absent⟩
    | some a => exact absurd (Except.ok.inj h) nofun
  next hne =>
  have hreads := reads_ofText? t
  generalize hspelled : spelled? t = p at hreads
  split at h
  · exact absurd h nofun
  next x hx =>
  cases a with
  | none => exact absurd (Except.ok.inj h) nofun
  | some a =>
    obtain rfl : (float x).integral = a := Constraint.number.inj (Except.ok.inj h)
    rw [hx] at hreads
    cases hreads with
    -- a text that says that it is no number is read, but not as a bound
    | nan => exact absurd (ha _ rfl) (by decide)
    | number hround => exact ⟨_, .number hne hspelled, .number hround⟩

/-- Bounds in order are in order once they have been rounded. -/
theorem Rounds.valid (hp : Rounds p a) (hr : Rounds r b) (hnumeric : q.isNumeric = true)
    (h : Ordered p r) : (Setting.range a b).Valid q := by
  refine .range hnumeric ?_ hp.isBound hr.isBound ?_
  -- only an open end is rounded to an open end
  · rintro ⟨rfl, rfl⟩
    cases hp
    cases hr
    exact h.bounded ⟨rfl, rfl⟩
  · rintro _ _ rfl rfl
    cases hp with
    | number hx =>
      cases hr with
      | number hy => exact hx.integral_le hy (h.le _ rfl _ rfl)

/-- Bounds that are in order once they have been rounded were in order, or have been rounded to the
    same number. -/
theorem Rounds.ordered_or (hp : Rounds p a) (hr : Rounds r b) (h : (Setting.range a b).Valid q) :
    Ordered p r ∨ ∃ p' r', p = some p' ∧ r = some r' ∧ p'.le r' = false ∧ a = b := by
  cases h with
  | range hnumeric hbounded hlo hhi hle =>
    cases hp with
    | absent =>
      refine .inl ⟨?_, nofun⟩
      rintro ⟨-, rfl⟩
      cases hr
      exact hbounded ⟨rfl, rfl⟩
    | @number p x hx =>
      cases hr with
      | absent => exact .inl ⟨nofun, nofun⟩
      | @number r y hy =>
        cases hpr : p.le r with
        | true =>
          refine .inl ⟨nofun, ?_⟩
          rintro _ ⟨⟩ _ ⟨⟩
          exact hpr
        -- rounding keeps the order, so it can turn it round only by making the bounds the same
        | false =>
          have hsame := hx.integral_eq hy hpr (hle _ _ rfl rfl)
          exact .inr ⟨p, r, rfl, rfl, hpr, congrArg some hsame⟩

theorem valid_same (hnumeric : q.isNumeric = true) {n : Number} (hn : n.isNaN = false) :
    (Setting.range (some n) (some n)).Valid q := by
  refine .range hnumeric nofun (isBound_some hn) (isBound_some hn) ?_
  rintro _ _ ⟨⟩ ⟨⟩
  exact (le_iff_value_le hn hn).2 le_rfl

/-- **A range in text form is taken exactly when it is on a numeric quality and its bounds spell
    numbers in order, or numbers in the wrong order that are read as the same number.** -/
theorem exists_readRange_iff :
    (∃ s, readRange q lo hi = .ok s) ↔ q.isNumeric = true ∧
      ((∃ p r, TextBound lo p ∧ TextBound hi r ∧ Ordered p r) ∨
        ∃ p r, TextBound lo (some p) ∧ TextBound hi (some r) ∧ p.le r = false ∧
          readBound q lo = readBound q hi) := by
  have hread : (∃ s, readRange q lo hi = .ok s) ↔
      ∃ a b, readBound q lo = .ok (boundConstraint a) ∧ readBound q hi = .ok (boundConstraint b) ∧
        (Setting.range a b).Valid q := by
    unfold readRange
    simp only [bind_eq_ok_iff]
    constructor
    · rintro ⟨s, c, hc, d, hd, hs⟩
      obtain ⟨a, b, rfl, rfl, hvalid⟩ := exists_rangeOf_iff_valid.1 ⟨s, hs⟩
      exact ⟨a, b, hc, hd, hvalid⟩
    · rintro ⟨a, b, ha, hb, hvalid⟩
      exact ⟨_, _, ha, _, hb, rangeOf_of_valid hvalid⟩
  rw [hread]
  constructor
  · rintro ⟨a, b, ha, hb, hvalid⟩
    have hvalid' := hvalid
    cases hvalid' with
    | range hnumeric hbounded hlo hhi hle =>
      refine ⟨hnumeric, ?_⟩
      -- what was read is in order; what is written may not be
      obtain ⟨p, hp, hpa⟩ := exists_textBound ha hlo
      obtain ⟨r, hr, hrb⟩ := exists_textBound hb hhi
      obtain hordered | ⟨p, r, rfl, rfl, hinverted, rfl⟩ := hpa.ordered_or hrb hvalid
      · exact .inl ⟨p, r, hp, hr, hordered⟩
      · exact .inr ⟨p, r, hp, hr, hinverted, ha.trans hb.symm⟩
  · rintro ⟨hnumeric, ⟨p, r, hp, hr, hordered⟩ | ⟨p, r, hp, hr, -, hsame⟩⟩
    · obtain ⟨a, ha, hpa⟩ := exists_readBound q hp
      obtain ⟨b, hb, hrb⟩ := exists_readBound q hr
      exact ⟨a, b, ha, hb, hpa.valid hrb hnumeric hordered⟩
    · obtain ⟨a, ha, hpa⟩ := exists_readBound q hp
      refine ⟨a, a, ha, hsame ▸ ha, ?_⟩
      cases hpa with
      | number hx => exact valid_same hnumeric (isNaN_integral hx.isNaN)

end Rounds

/-! ### Single values in text form -/

/-- **A single text is taken exactly when it is not blank, holds no slash and, on a numeric quality,
    spells a number or says that it is none.** -/
theorem exists_readValue_iff {t : List Char} (hsplit : splitRange t = none) :
    (∃ s, readValue q t = .ok s) ↔ Single t ∧ (q.isNumeric = true →
      (∃ p, spelled? (strip t) = some p) ∨ Binary64.ofText? (strip t) = some .nan) := by
  have hreads : (Binary64.ofText? (strip t)).isSome = true ↔
      (∃ p, spelled? (strip t) = some p) ∨ Binary64.ofText? (strip t) = some .nan := by
    have hreads := reads_ofText? (strip t)
    generalize spelled? (strip t) = p at hreads ⊢
    generalize Binary64.ofText? (strip t) = x at hreads ⊢
    cases hreads <;> simp
  rw [← hreads]
  unfold readValue
  simp only
  constructor
  · rintro ⟨s, hs⟩
    split at hs
    · exact absurd hs nofun
    next hsolid =>
    split at hs
    · exact absurd hs nofun
    next hslash =>
    split at hs
    · exact absurd hs nofun
    next hnumber =>
    refine ⟨⟨hsplit, hsolid, hslash⟩, fun hnumeric => ?_⟩
    simpa [hnumeric, Option.isSome_iff_ne_none] using hnumber
  · rintro ⟨⟨-, hsolid, hslash⟩, hnumber⟩
    rw [if_neg hsolid, if_neg hslash, if_neg]
    · exact ⟨_, rfl⟩
    · rintro ⟨hnumeric, hnone⟩
      rw [Option.isNone_iff_eq_none] at hnone
      exact absurd (hnumber hnumeric) (by simp [hnone])

/-! ### Constraints -/

/-- A text is taken exactly when it is sensible or one of the lapses. -/
theorem exists_readSetting_iff {t : String} :
    (∃ s, readSetting q t.toList = .ok s) ↔ Sensible q (.text t) ∨ Lapse q (.text t) := by
  unfold readSetting
  cases hsplit : splitRange t.toList with
  | some bounds =>
    simp only [exists_readRange_iff]
    constructor
    · rintro ⟨hnumeric, ⟨p, r, hp, hr, h⟩ | ⟨p, r, hp, hr, hinverted, hsame⟩⟩
      · exact .inl (.textRange hnumeric hsplit hp hr h)
      · exact .inr (.rounded hnumeric hsplit hp hr hinverted hsame)
    · rintro (hsensible | hlapse)
      · cases hsensible with
        | text h => exact absurd (h.unsplit.symm.trans hsplit) nofun
        | textRange hnumeric hsplit' hp hr h =>
          cases hsplit.symm.trans hsplit'
          exact ⟨hnumeric, .inl ⟨_, _, hp, hr, h⟩⟩
      · cases hlapse with
        | nan h => exact absurd (h.unsplit.symm.trans hsplit) nofun
        | rounded hnumeric hsplit' hp hr hinverted hsame =>
          cases hsplit.symm.trans hsplit'
          exact ⟨hnumeric, .inr ⟨_, _, hp, hr, hinverted, hsame⟩⟩
  | none =>
    simp only [exists_readValue_iff hsplit]
    constructor
    · rintro ⟨hsingle, hnumber⟩
      -- on a quality that is not numeric the word for no number is a text like any other
      by_cases hnan : q.isNumeric = true ∧ Binary64.ofText? (strip t.toList) = some .nan
      · exact .inr (.nan hsingle hnan.1 hnan.2)
      · exact .inl (.text hsingle fun hq => (hnumber hq).resolve_right fun h => hnan ⟨hq, h⟩)
    · rintro (hsensible | hlapse)
      · cases hsensible with
        | text hsingle hnumber => exact ⟨hsingle, fun hq => .inl (hnumber hq)⟩
        | textRange _ hsplit' => exact absurd (hsplit.symm.trans hsplit') nofun
      · cases hlapse with
        | nan hsingle hnumeric hnan => exact ⟨hsingle, fun _ => .inr hnan⟩
        | rounded _ hsplit' => exact absurd (hsplit.symm.trans hsplit') nofun

/-- **A constraint is taken exactly when it is sensible or one of the lapses.** -/
theorem exists_settingOf_iff {c : Constraint} :
    (∃ s, settingOf q c = .ok s) ↔ Sensible q c ∨ Lapse q c := by
  constructor
  · rintro ⟨s, hs⟩
    unfold settingOf at hs
    split at hs
    · exact absurd hs nofun
    · exact absurd hs nofun
    · split at hs
      · exact absurd hs nofun
      · next hn => exact .inl (.number (by simpa using hn))
    · exact exists_readSetting_iff.1 ⟨s, hs⟩
    · obtain ⟨hnumeric, p, r, hp, hr, h⟩ := exists_rangeOf_iff.1 ⟨s, hs⟩
      exact .inl (.range hnumeric hp hr h)
    · obtain ⟨hnumeric, p, r, hp, hr, h⟩ := exists_rangeOf_iff.1 ⟨s, hs⟩
      exact .inl (.items hnumeric hp hr h)
    · exact absurd hs nofun
  · rintro (hsensible | hlapse)
    · cases hsensible with
      | number hn => exact ⟨_, if_neg (by simp [hn])⟩
      | text h hnumber => exact exists_readSetting_iff.2 (.inl (.text h hnumber))
      | textRange hnumeric hsplit hp hr h =>
        exact exists_readSetting_iff.2 (.inl (.textRange hnumeric hsplit hp hr h))
      | range hnumeric hp hr h => exact exists_rangeOf_iff.2 ⟨hnumeric, _, _, hp, hr, h⟩
      | items hnumeric hp hr h => exact exists_rangeOf_iff.2 ⟨hnumeric, _, _, hp, hr, h⟩
    · cases hlapse with
      | nan h hnumeric hnan => exact exists_readSetting_iff.2 (.inr (.nan h hnumeric hnan))
      | rounded hnumeric hsplit hp hr hinverted hsame =>
        exact exists_readSetting_iff.2 (.inr (.rounded hnumeric hsplit hp hr hinverted hsame))

theorem TextBound.unique {t : List Char} {p r : Option Position} (hp : TextBound t p)
    (hr : TextBound t r) : p = r := by
  cases hp with
  | blank hblank =>
    cases hr with
    | blank => rfl
    | number hne => exact absurd hblank hne
  | number hne hspelled =>
    cases hr with
    | blank hblank => exact absurd hblank hne
    | number _ hspelled' => exact hspelled.symm.trans hspelled'

/-- **No lapse is sensible.** -/
theorem Lapse.not_sensible {c : Constraint} (h : Lapse q c) : ¬Sensible q c := by
  intro hsensible
  cases h with
  | @nan t hsingle hnumeric hnan =>
    cases hsensible with
    | text _ hnumber =>
      obtain ⟨p, hp⟩ := hnumber hnumeric
      have hreads := reads_ofText? (strip t.toList)
      rw [hp, hnan] at hreads
      cases hreads with
      | number hround => exact absurd hround.isNaN nofun
    | textRange _ hsplit => exact absurd (hsingle.unsplit.symm.trans hsplit) nofun
  | rounded _ hsplit hp hr hinverted =>
    cases hsensible with
    | text hsingle => exact absurd (hsingle.unsplit.symm.trans hsplit) nofun
    | textRange _ hsplit' hp' hr' hordered =>
      cases hsplit.symm.trans hsplit'
      -- a bound spells one number at most, so these are the two in the wrong order
      obtain rfl := hp'.unique hp
      obtain rfl := hr'.unique hr
      exact absurd (hordered.le _ rfl _ rfl) (by rw [hinverted]; nofun)

/-! ### Filters -/

/-- Constraints for known and distinct qualities, each of them sensible or one of the lapses. -/
def Taken (given : List (String × Constraint)) : Prop :=
  ∃ qs : List Quality, qs.Nodup ∧ List.Forall₂ (fun pair q =>
    Quality.ofName? pair.1 = some q ∧ (Sensible q pair.2 ∨ Lapse q pair.2)) given qs

/-- Constraints form a filter exactly when they are taken one by one. -/
theorem exists_ofConstraints_iff {given : List (String × Constraint)} :
    (∃ f, ofConstraints given = .ok f) ↔ Taken given := by
  unfold ofConstraints Taken
  simp only [collect_eq_ok_iff, ← exists_settingOf_iff]
  constructor
  · rintro ⟨f, hsets, hnodup, -⟩
    refine ⟨f.map (·.1), hnodup, List.forall₂_map_right_iff.2 (hsets.imp ?_)⟩
    exact fun pair entry hset => ⟨hset.1, entry.2, hset.2⟩
  · rintro ⟨qs, hnodup, h⟩
    -- every constraint has its setting, and together they are the filter
    obtain ⟨f, hf⟩ : ∃ f : Filter, f.map (·.1) = qs ∧ List.Forall₂ (Sets settingOf) given f := by
      clear hnodup
      induction h with
      | nil => exact ⟨[], rfl, .nil⟩
      | @cons pair q _ _ hpair _ ih =>
        obtain ⟨f, rfl, hsets⟩ := ih
        obtain ⟨hname, s, hs⟩ := hpair
        exact ⟨(q, s) :: f, rfl, .cons ⟨hname, hs⟩ hsets⟩
    obtain ⟨rfl, hsets⟩ := hf
    exact ⟨f, hsets, hnodup, nofun⟩

/-- The constraints that the segments of a path give: names and texts in turn. -/
def segments? (path : String) : Option (List (String × Constraint)) :=
  let s := trimPath path.toList
  if s = [] then some []
  else (pairUp (splitOn '/' s)).map (·.map fun (name, v) =>
    (String.ofList name, .text (String.ofList v)))

theorem collect_map {α β : Type} (setting : Quality → β → Except FilterError Setting) (g : α → β)
    (seen : List Quality) (pairs : List (String × α)) :
    collect setting seen (pairs.map fun (name, a) => (name, g a)) =
      collect (fun q a => setting q (g a)) seen pairs := by
  induction pairs generalizing seen with
  | nil => rfl
  | cons pair rest ih =>
    unfold collect
    simp only [List.map_cons, ih]

/-- **A path is read as the constraints that its segments give.** -/
theorem ofPath_eq (path : String) : ofPath path =
    match segments? path with
    | none => .error (.unpaired path)
    | some given => ofConstraints given := by
  unfold ofPath segments? ofConstraints
  simp only
  split
  · rfl
  cases pairUp (splitOn '/' (trimPath path.toList)) with
  | none => rfl
  | some pairs =>
    have hsetting : (fun q t => settingOf q (.text (String.ofList t))) = readSetting := by
      funext q t
      simp [settingOf]
    have hcollect := collect_map settingOf (fun t => .text (String.ofList t)) []
      (pairs.map fun (name, v) => (String.ofList name, v))
    rw [hsetting, List.map_map] at hcollect
    exact hcollect.symm

/-- **What makes a filter.** Named constraints compile, and a path is read, exactly when the
    constraints that they give are for known and distinct qualities, and each of them is sensible
    or is one of two lapses: a single text on a numeric quality that says that it is no number, or
    a range in text form whose bounds are in the wrong order as they are written but are read as
    the same number. Neither lapse is sensible. -/
theorem ok_iff_taken (given : List (String × Constraint)) (p : String) :
    ((∃ compiled, compile given = .ok compiled) ↔ Taken given) ∧
      ((∃ f, ofPath p = .ok f) ↔ ∃ pairs, segments? p = some pairs ∧ Taken pairs) ∧
      ∀ q c, Lapse q c → ¬Sensible q c := by
  refine ⟨?_, ?_, fun q c => Lapse.not_sensible⟩
  · rw [← exists_ofConstraints_iff]
    unfold compile
    simp [map_eq_ok_iff]
  · rw [ofPath_eq]
    cases segments? p with
    | none => simp
    | some pairs => simp [exists_ofConstraints_iff]

/-- The word for no number, and a range from the least positive integer that no double equals down
    to its even neighbour. -/
theorem ok_of_lapses :
    let inverted := "9007199254740993..9007199254740992"
    (∃ compiled, compile [("number_instances", .text "nan"),
        ("number_features", .text inverted)] = .ok compiled) ∧
      (∃ f, ofPath ("number_instances/nan/number_features/" ++ inverted) = .ok f) ∧
      ¬Sensible .instances (.text "nan") ∧ ¬Sensible .features (.text inverted) := by
  intro inverted
  let given : List (String × Constraint) :=
    [("number_instances", .text "nan"), ("number_features", .text inverted)]
  let p := "number_instances/nan/number_features/" ++ inverted
  have hnan : Lapse .instances (.text "nan") :=
    .nan ⟨by decide, by decide, by decide⟩ rfl (by decide)
  have hinverted : Lapse .features (.text inverted) := by
    have hsplit : splitRange inverted.toList =
        some ("9007199254740993".toList, "9007199254740992".toList) := by decide
    have hodd : Binary64.ofText? "9007199254740993".toList =
        some (Binary64.ofDecimal false 9007199254740992 0) := by decide
    have heven : Binary64.ofText? "9007199254740992".toList =
        some (Binary64.ofDecimal false 9007199254740992 0) := by decide
    have hsame : readBound .features "9007199254740993".toList =
        readBound .features "9007199254740992".toList := by
      unfold readBound
      rw [hodd, heven, if_neg (by decide), if_neg (by decide)]
    have hlo : TextBound "9007199254740993".toList (some (.at 9007199254740993 1)) :=
      .number (by decide) rfl
    have hhi : TextBound "9007199254740992".toList (some (.at 9007199254740992 1)) :=
      .number (by decide) rfl
    exact .rounded rfl hsplit hlo hhi (by decide) hsame
  have htaken : Taken given :=
    ⟨[.instances, .features], by decide,
      .cons ⟨by decide, .inr hnan⟩ (.cons ⟨by decide, .inr hinverted⟩ .nil)⟩
  have hsegments : segments? p = some given := by
    have hpairs : pairUp (splitOn '/' (trimPath p.toList)) =
        some [("number_instances".toList, "nan".toList), ("number_features".toList,
          inverted.toList)] := by decide +kernel
    unfold segments?
    simp only
    rw [if_neg (by decide +kernel), hpairs]
    simp [given]
  obtain ⟨hcompile, hpath, hlapse⟩ := ok_iff_taken given p
  exact ⟨hcompile.2 htaken, hpath.2 ⟨given, hsegments, htaken⟩, hlapse _ _ hnan,
    hlapse _ _ hinverted⟩

end DatasetCatalog.Filter
