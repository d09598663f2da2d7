import DatasetCatalog.Filter.Basic
import DatasetCatalog.Proofs.Number.Order
import DatasetCatalog.Proofs.Number.Written

/-! # Bounds in text form

  A range is written as two numbers with two dots between them, and split at the first two dots in
  a row. The text of a number holds at most one dot, with a digit behind it, so the split finds
  the dots that were put there. Each bound is then read as the double nearest to it.
-/

namespace DatasetCatalog

open Text Numeral Binary64

namespace Filter

/-! ### Two dots in a row -/

/-- Behind every dot stands a character that is no dot. -/
inductive Spaced : List Char → Prop
  | nil : Spaced []
  | char {c : Char} {s : List Char} (hc : c ≠ '.') (hs : Spaced s) : Spaced (c :: s)
  | dot {c : Char} {s : List Char} (hc : c ≠ '.') (hs : Spaced s) : Spaced ('.' :: c :: s)

theorem spaced_of_notMem {s : List Char} (h : '.' ∉ s) : Spaced s := by
  induction s with
  | nil => exact .nil
  | cons c s ih =>
    have hc : c ≠ '.' := fun hc => h (by simp [hc])
    exact .char hc (ih fun hs => h (by simp [hs]))

theorem Spaced.append {s t : List Char} (hs : Spaced s) (ht : Spaced t) : Spaced (s ++ t) := by
  induction hs with
  | nil => exact ht
  | char hc _ ih => exact .char hc ih
  | dot hc _ ih => exact .dot hc ih

theorem splitRange_cons {c : Char} (hc : c ≠ '.') (s : List Char) :
    splitRange (c :: s) = (splitRange s).map fun (lo, hi) => (c :: lo, hi) := by
  rw [splitRange.eq_def]
  split
  · next heq => exact absurd (List.cons.inj heq).1 hc
  · next heq =>
    obtain ⟨rfl, rfl⟩ := List.cons.inj heq
    rfl
  · next heq => exact absurd heq nofun

theorem splitRange_dot_cons {c : Char} (hc : c ≠ '.') (s : List Char) :
    splitRange ('.' :: c :: s) = (splitRange s).map fun (lo, hi) => ('.' :: c :: lo, hi) := by
  rw [splitRange.eq_def]
  split
  · next heq => exact absurd (List.cons.inj (List.cons.inj heq).2).1 hc
  · next heq =>
    obtain ⟨rfl, rfl⟩ := List.cons.inj heq
    rw [splitRange_cons hc, Option.map_map]
    rfl
  · next heq => exact absurd heq nofun

/-- The first two dots in a row end the lower bound. -/
theorem Spaced.splitRange_append {lo : List Char} (h : Spaced lo) (hi : List Char) :
    splitRange (lo ++ '.' :: '.' :: hi) = some (lo, hi) := by
  induction h with
  | nil => rfl
  | char hc _ ih => rw [List.cons_append, splitRange_cons hc, ih, Option.map_some]
  | dot hc _ ih =>
    rw [List.cons_append, List.cons_append, splitRange_dot_cons hc, ih, Option.map_some]

theorem Spaced.splitRange_eq_none {s : List Char} (h : Spaced s) : splitRange s = none := by
  induction h with
  | nil => rfl
  | char hc _ ih => rw [splitRange_cons hc, ih, Option.map_none]
  | dot hc _ ih => rw [splitRange_dot_cons hc, ih, Option.map_none]

/-- A text is split where it holds two dots in a row. -/
theorem splitRange_eq_none_iff {s : List Char} : splitRange s = none ↔ ¬['.', '.'] <:+: s := by
  induction s using splitRange.induct with
  | case1 rest =>
    have hinfix : ['.', '.'] <:+: '.' :: '.' :: rest := ⟨[], rest, rfl⟩
    simp [splitRange, hinfix]
  | case2 c rest hnot ih =>
    -- the two dots do not stand at the beginning, so they stand behind the first character
    have hprefix : ¬['.', '.'] <+: c :: rest := by
      rintro ⟨t, ht⟩
      obtain ⟨rfl, rfl⟩ := List.cons.inj ht
      exact hnot _ rfl rfl
    rw [splitRange, Option.map_eq_none_iff, ih, List.infix_cons_iff, not_or]
    · exact (and_iff_right hprefix).symm
    · exact hnot
  | case3 => simp [splitRange]

end Filter

/-! ### The text of a number -/

namespace Binary64

theorem Tail.notMem_dot {rest : List Char} {e : Int} (h : Tail rest e) : '.' ∉ rest := by
  cases h with
  | none => simp
  | power k =>
    have hdigits : '.' ∉ twoDigits e.natAbs := fun hmem =>
      absurd (isAsciiDigit_twoDigits _ '.' hmem) (by decide)
    have hsign : '.' ≠ (if e < 0 then '-' else '+') := by split <;> decide
    simp [hdigits, hsign]

theorem Layout.spaced {text : List Char} {n : Nat} {p : Int} (h : Layout text n p) :
    Filter.Spaced text := by
  have hdigits : ∀ s : List Char, (∀ c ∈ s, isAsciiDigit c = true) → Filter.Spaced s :=
    fun s hs => Filter.spaced_of_notMem fun hmem => absurd (hs '.' hmem) (by decide)
  cases h with
  | pointed hne hw hfne hf ht =>
    refine (hdigits _ hw).append ?_
    rename_i whole fraction rest e
    cases fraction with
    | nil => exact absurd rfl hfne
    | cons c fraction =>
      have hc : c ≠ '.' := by
        rintro rfl
        exact absurd (hf '.' (by simp)) (by decide)
      have hrest := (hdigits fraction fun d hd => hf d (by simp [hd])).append
        (Filter.spaced_of_notMem ht.notMem_dot)
      exact .dot hc hrest
  | powered hne hw =>
    exact (hdigits _ hw).append (Filter.spaced_of_notMem (Tail.power p).notMem_dot)

theorem spaced_signed (negative : Bool) {body : List Char} (h : Filter.Spaced body) :
    Filter.Spaced (signed negative body) := by
  cases negative with
  | false => exact h
  | true => exact .char (by decide) h

theorem spaced_write {x : Binary64} (hx : x.isNaN = false) : Filter.Spaced x.write.toList := by
  cases x with
  | nan => exact absurd hx nofun
  | infinite negative =>
    apply Filter.spaced_of_notMem
    cases negative <;> decide
  | finite negative m e h =>
    obtain ⟨body, n, p, htext, hlayout, -⟩ := exists_layout_write negative m e h
    rw [htext]
    exact spaced_signed negative hlayout.spaced

end Binary64

theorem spaced_integerText (n : Int) : Filter.Spaced (integerText n).toList := by
  rw [toList_integerText]
  apply spaced_signed
  exact Filter.spaced_of_notMem fun hmem =>
    absurd (isAsciiDigit_decimalDigits _ '.' hmem) (by decide)

namespace Number

/-- The plain text of a number is that of an integer or that of a double. -/
theorem plain_cases (a : Number) :
    (∃ n, a.plain = integerText n) ∨ ∃ x, a = .float x ∧ x.toInt? = none ∧ a.plain = x.write := by
  cases a with
  | int n => exact .inl ⟨n, rfl⟩
  | float x =>
    unfold plain
    simp only
    split
    · next n hn => exact .inl ⟨n, rfl⟩
    · next hnone => exact .inr ⟨x, rfl, hnone, rfl⟩

section Plain

variable {a : Number}

theorem chars_plain (h : a.isNaN = false) : ∀ c ∈ a.plain.toList, isNumeralChar c = true := by
  obtain ⟨n, hn⟩ | ⟨x, rfl, -, hx⟩ := plain_cases a
  · rw [hn]
    exact chars_integerText n
  · rw [hx]
    exact chars_write h

theorem spaced_plain (h : a.isNaN = false) : Filter.Spaced a.plain.toList := by
  obtain ⟨n, hn⟩ | ⟨x, rfl, -, hx⟩ := plain_cases a
  · rw [hn]
    exact spaced_integerText n
  · rw [hx]
    exact spaced_write h

/-- **The plain text of a number is read as the double nearest to it**, up to the sign of zero. -/
theorem exists_ofText?_plain (h : a.isNaN = false) :
    ∃ y, ofText? a.plain.toList = some y ∧ (float y).integral = a.reread := by
  cases a with
  | int n => exact ⟨_, ofText?_integerText n, rfl⟩
  | float x =>
    unfold plain reread
    simp only
    split
    -- a whole double is written as an integer, which is read as a double of the same value
    · next n hn =>
      refine ⟨_, ofText?_integerText n, ?_⟩
      unfold integral nearest
      simp only [hn]
      rw [show (ofDecimal (decide (n < 0)) n.natAbs 0).toInt? = some n from toInt?_nearest hn]
    · exact ⟨x, ofText?_write h, rfl⟩

theorem plain_ne_nil (h : a.isNaN = false) : a.plain.toList ≠ [] := by
  intro hnil
  obtain ⟨y, hy, -⟩ := exists_ofText?_plain h
  rw [hnil] at hy
  have hempty : ofText? [] = none := by decide
  exact absurd (hempty.symm.trans hy) (by simp)

theorem plain_integral (x : Binary64) : (float x).integral.plain = (float x).plain := by
  unfold integral
  simp only
  split
  · next n hn => simp only [plain, hn]
  · rfl

/-- **A number is written again in the same way exactly when some double equals it.** -/
theorem plain_reread_iff (h : a.isNaN = false) : a.reread.plain = a.plain ↔ a.IsDouble := by
  cases a with
  | float x => exact iff_of_true (plain_integral x) trivial
  | int n =>
    constructor
    · intro hplain
      have hdouble : (float (int n).nearest).plain = integerText n :=
        (plain_integral _).symm.trans hplain
      refine ⟨(int n).nearest, ?_⟩
      unfold plain at hdouble
      simp only at hdouble
      split at hdouble
      · next k hk => rw [hk, integerText_injective hdouble]
      · exact absurd hdouble (write_ne_integerText (isNaN_nearest h) n)
    · intro hdouble
      rw [reread_int hdouble]

end Plain

end Number

/-! ### Bounds -/

namespace Filter

/-- The bound is open, or it is a number. -/
def IsBound (b : Option Number) : Prop := ∀ a ∈ b, a.isNaN = false

theorem isBound_none : IsBound none := fun a ha => absurd ha (Option.not_mem_none a)

theorem isBound_some {a : Number} (h : a.isNaN = false) : IsBound (some a) := by
  rintro a' ha'
  obtain rfl := Option.mem_some_iff.1 ha'
  exact h

/-- A bound as a constraint. -/
def boundConstraint (b : Option Number) : Constraint := (b.map .number).getD .absent

theorem spaced_boundText {b : Option Number} (h : IsBound b) : Spaced (boundText b).toList := by
  cases b with
  | none => exact .nil
  | some a => exact Number.spaced_plain (h a rfl)

theorem chars_boundText {b : Option Number} (h : IsBound b) :
    ∀ c ∈ (boundText b).toList, isNumeralChar c = true := by
  cases b with
  | none => exact nofun
  | some a => exact Number.chars_plain (h a rfl)

/-- The text of a bound is read as the bound, rounded. -/
theorem readBound_boundText (q : Quality) {b : Option Number} (h : IsBound b) :
    readBound q (boundText b).toList = .ok (boundConstraint (b.map Number.reread)) := by
  cases b with
  | none =>
    unfold readBound boundText
    rw [String.toList_empty]
    exact if_pos rfl
  | some a =>
    have ha := h a rfl
    obtain ⟨y, hy, hread⟩ := Number.exists_ofText?_plain ha
    unfold readBound boundText
    rw [strip_of_isNumeralChar (Number.chars_plain ha), if_neg (Number.plain_ne_nil ha)]
    simp only [hy, hread]
    rfl

theorem checkBound_boundConstraint (q : Quality) {b : Option Number} (h : IsBound b) :
    checkBound q (boundConstraint b) = .ok b := by
  cases b with
  | none => rfl
  | some a =>
    have ha := h a rfl
    simp [boundConstraint, checkBound, ha]

theorem isOpen_boundConstraint (b : Option Number) : isOpen (boundConstraint b) = b.isNone := by
  cases b <;> rfl

/-- What passes the check is a bound. -/
theorem isBound_of_checkBound {q : Quality} {c : Constraint} {b : Option Number}
    (h : checkBound q c = .ok b) : IsBound b ∧ c = boundConstraint b := by
  unfold checkBound at h
  split at h
  · obtain rfl := Except.ok.inj h
    exact ⟨isBound_none, rfl⟩
  · next n =>
    split at h
    · exact absurd h (by simp)
    · next hn =>
      obtain rfl := Except.ok.inj h
      exact ⟨isBound_some (by simpa using hn), rfl⟩
  · exact absurd h (by simp)

end Filter

end DatasetCatalog
