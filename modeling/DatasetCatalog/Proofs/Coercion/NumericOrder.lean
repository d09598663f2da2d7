import DatasetCatalog.Proofs.Coercion.Meaning
import DatasetCatalog.Proofs.Number.Value
import Mathlib.Data.List.Sort

/-! # Levels in numeric order

  A column of numbers that is given a finite type takes its levels from its numbers. One number has
  one level, however its texts spell it, and the levels ascend as the numbers do. The codes of the
  rows are therefore in the order of the numbers in the cells: the order of exact integers and of
  doubles on one line, with the infinities at its ends.
-/

namespace DatasetCatalog

open Arff Number

/-! ### What a text spells -/

/-- The text spells the number at this place: an integer numeral its integer, every other numeral
    the double that it is read as. -/
def Numeral.SpellsValue (s : String) (v : Line) : Prop :=
  match Numeral.integer s.toList with
  | .ok n => v = (Number.int n).value
  | .error _ => ∃ x, Binary64.ofText? s.toList = some x ∧ x.isNaN = false ∧
      v = (Number.float x).value

/-- The code of a row that is present in a column of a finite type. -/
def Column.code? (c : Column) (row : Nat) : Option Int :=
  match c.values, c.missing[row]? with
  | .finite _ _ codes, some false => codes[row]?
  | _, _ => none

namespace Coercion

open Packing

/-- The cell of a row spells the number at this place. -/
def RowSpells (cells : List Cell) (row : Nat) (v : Line) : Prop :=
  ∃ s, cells[row]? = some (.text s) ∧ Numeral.SpellsValue s v

/-- The codes of a column follow the numbers of its cells. -/
structure FollowsNumbers (cells : List Cell) (c : Column) : Prop where
  /-- No level occurs twice. -/
  nodup : c.levels.Nodup
  /-- The levels spell numbers, which ascend. -/
  ascending : ∃ values : List Line, List.Forall₂ Numeral.SpellsValue c.levels values ∧
    values.SortedLT
  /-- Every level is that of a present row. -/
  occurs : ∀ k < c.levels.length, ∃ row, c.code? row = some (k : Int)
  /-- The rows with a text are present, unless it says "not a number". -/
  present : ∀ row s, cells[row]? = some (.text s) → isNaNText s = false →
    ∃ code, c.code? row = some code
  /-- The cell of a present row spells a number, and only one. -/
  spells : ∀ row code, c.code? row = some code → ∃! v, RowSpells cells row v
  /-- Codes are ordered as the numbers are. -/
  lt_iff : ∀ i j a b v w, c.code? i = some a → c.code? j = some b → RowSpells cells i v →
    RowSpells cells j w → (a < b ↔ v < w)
  /-- Codes are equal when the numbers are. -/
  eq_iff : ∀ i j a b v w, c.code? i = some a → c.code? j = some b → RowSpells cells i v →
    RowSpells cells j w → (a = b ↔ v = w)

/-! ### Reading the number of a text -/

section Spelling

variable {s : String} {y : Number} {v w : Line}

/-- The number that a cell is read as is the one that its text spells. -/
theorem spellsValue_of_numberOf? (h : numberOf? s = some y) : Numeral.SpellsValue s y.value := by
  unfold numberOf? wholeOf? at h
  unfold Numeral.SpellsValue
  cases hinteger : Numeral.integer s.toList with
  | ok n =>
    rw [hinteger] at h
    rw [← Option.some.inj h]
  | error e =>
    rw [hinteger] at h
    simp only at h ⊢
    cases hreal : realOf? s with
    | none =>
      rw [hreal] at h
      exact absurd h nofun
    | some x =>
      rw [hreal, Option.bind_some] at h
      obtain ⟨htext, hnan⟩ := realOf?_eq_some_iff.1 hreal
      refine ⟨x, htext, hnan, ?_⟩
      -- a whole double is kept as its integer, which lies at the same place
      cases hint : x.toInt? with
      | none =>
        rw [hint] at h
        rw [← Option.some.inj h]
      | some n =>
        rw [hint] at h
        rw [← Option.some.inj h, value_of_toInt? hint]

theorem spellsValue_unique (hv : Numeral.SpellsValue s v) (hw : Numeral.SpellsValue s w) :
    v = w := by
  unfold Numeral.SpellsValue at hv hw
  cases hinteger : Numeral.integer s.toList with
  | ok n =>
    rw [hinteger] at hv hw
    exact hv.trans hw.symm
  | error e =>
    rw [hinteger] at hv hw
    obtain ⟨x, hx, -, rfl⟩ := hv
    obtain ⟨x', hx', -, rfl⟩ := hw
    rw [Option.some.inj (hx.symm.trans hx')]

theorem natAbs_lt_of_toInt? {x : Binary64} {n : Int} (h : x.toInt? = some n) :
    n.natAbs < 10 ^ Numeral.digitLimit := by
  have hlt : |x.extent| < Binary64.beyond := by
    cases x with
    | nan => exact absurd h nofun
    | infinite negative => exact absurd h nofun
    | finite negative m e hc => exact abs_extent_finite_lt negative m e hc
  -- the finite doubles end at a power of two that has far fewer digits
  obtain ⟨k, hk, hbeyond⟩ : ∃ k ≤ Numeral.digitLimit, Binary64.beyond = ((2 ^ k : Nat) : ℚ) :=
    ⟨1024, by decide, by rw [Nat.cast_pow]; exact zpow_natCast 2 1024⟩
  rw [Binary64.extent_of_toInt? h, ← Int.cast_abs, ← Nat.cast_natAbs, hbeyond, Nat.cast_lt] at hlt
  calc n.natAbs < 2 ^ k := hlt
    _ ≤ 10 ^ k := Nat.pow_le_pow_left (by decide) k
    _ ≤ 10 ^ Numeral.digitLimit := Nat.pow_le_pow_right (by decide) hk

/-- No integer that a text spells has too many digits to be read back. -/
theorem natAbs_lt_of_wholeOf? {n : Int} (h : wholeOf? s = some n) :
    n.natAbs < 10 ^ Numeral.digitLimit := by
  unfold wholeOf? at h
  split at h
  · next m hm =>
    obtain rfl := Option.some.inj h
    exact Numeral.natAbs_lt_of_integer hm
  · obtain ⟨x, -, hx⟩ := Option.bind_eq_some_iff.1 h
    exact natAbs_lt_of_toInt? hx

/-- The label of a number spells it again. -/
theorem spellsValue_plain (h : numberOf? s = some y) : Numeral.SpellsValue y.plain y.value := by
  have hreduced := reduced_of_numberOf? h
  unfold Numeral.SpellsValue
  cases y with
  | int n =>
    have hwhole : wholeOf? s = some n := by
      unfold numberOf? at h
      split at h
      · next m hm => rw [hm, Number.int.inj (Option.some.inj h)]
      · obtain ⟨x, -, hx⟩ := Option.map_eq_some_iff.1 h
        exact absurd hx nofun
    show match Numeral.integer (integerText n).toList with
      | .ok m => _
      | .error _ => _
    rw [integer_integerText (natAbs_lt_of_wholeOf? hwhole)]
  | float x =>
    have hplain : (Number.float x).plain = x.write := by
      unfold Number.plain
      simp only [hreduced.2]
    rw [hplain, Binary64.integer_write hreduced.1]
    exact ⟨x, Binary64.ofText?_write hreduced.1, hreduced.1, rfl⟩

end Spelling

/-! ### Columns of numeric levels -/

/-- The code of a text is the position of its number. -/
theorem exists_number_of_standsForLevel {cells : List Cell} {s : String} {code : Int}
    (h : StandsForLevel true (numericLevels cells) s code) :
    ∃ (k : Nat) (y : Number), code = k ∧ numberOf? s = some y ∧ (sortedNumbers cells)[k]? = some y := by
  obtain ⟨⟨hlow, hhigh⟩, label, hlabel, hat⟩ := h
  obtain ⟨k, rfl⟩ := Int.eq_ofNat_of_zero_le hlow
  obtain ⟨y, hy, rfl⟩ := Option.map_eq_some_iff.1 hlabel
  refine ⟨k, y, rfl, hy, ?_⟩
  rw [numericLevels_eq_map, List.length_map] at hhigh
  have hk : k < (sortedNumbers cells).length := by exact_mod_cast hhigh
  unfold Column.labelAt at hat
  rw [numericLevels_eq_map, Int.toNat_natCast, List.getElem?_map, List.getElem?_eq_getElem hk] at hat
  obtain ⟨r, -, hr⟩ := mem_sortedNumbers.1 (List.getElem_mem hk)
  rw [List.getElem?_eq_getElem hk]
  -- numbers are told apart by their labels
  exact congrArg some (Number.eq_of_plain_eq (reduced_of_numberOf? hr) (reduced_of_numberOf? hy) hat)

section Columns

variable {cells : List Cell} {attr : Attribute} {c : Column} {row : Nat} {code : Int}

/-- A present row of a column of numeric levels has the number at the position of its code. -/
theorem exists_number_of_code? (h : Means true attr cells c) (hcode : c.code? row = some code) :
    ∃ (s : String) (k : Nat) (y : Number), cells[row]? = some (Cell.text s) ∧ code = k ∧
      numberOf? s = some y ∧ (sortedNumbers cells)[k]? = some y := by
  have hvalues := h.values
  unfold Column.code? at hcode
  cases hfinite : c.values with
  | continuous _ | count _ | textual _ =>
    rw [hfinite] at hcode
    exact absurd hcode nofun
  | finite ordered levels codes =>
    rw [hfinite] at hcode hvalues
    split at hcode
    · next ordered' levels' codes' hmatch hmissing =>
      obtain ⟨-, -, rfl⟩ := Values.finite.inj hmatch
      obtain ⟨rfl, -, hslots⟩ := hvalues
      obtain ⟨s, hs, hstands⟩ := hslots.present row code hcode hmissing
      obtain ⟨k, y, hk, hy, hat⟩ := exists_number_of_standsForLevel hstands
      exact ⟨s, k, y, hs, hk, hy, hat⟩
    · exact absurd hcode nofun

/-- The rows with a text are present, unless it says "not a number". -/
theorem exists_code?_of_text (h : Means true attr cells c) (hfinite : c.scitype.isFinite = true)
    {s : String} (hs : cells[row]? = some (.text s)) (hnan : isNaNText s = false) :
    ∃ code, c.code? row = some code := by
  have hvalues := h.values
  have hmissing := h.missing
  unfold Column.code?
  unfold Column.scitype at hfinite
  cases hv : c.values with
  | continuous _ | count _ | textual _ =>
    rw [hv] at hfinite
    exact absurd hfinite nofun
  | finite ordered levels codes =>
    rw [hv] at hvalues hmissing
    have hbit : c.missing[row]? = some false := by
      rw [hmissing, List.getElem?_map, hs]
      simp [isAbsent, hnan]
    obtain ⟨-, -, hslots⟩ := hvalues
    obtain ⟨hrow, -⟩ := List.getElem?_eq_some_iff.1 hs
    rw [hbit]
    exact ⟨_, List.getElem?_eq_getElem (hslots.length ▸ hrow)⟩

theorem levels_of_means (h : Means true attr cells c) (hfinite : c.scitype.isFinite = true) :
    c.levels = (sortedNumbers cells).map Number.plain := by
  have hvalues := h.values
  unfold Column.scitype at hfinite
  unfold Column.levels
  cases hv : c.values with
  | continuous _ | count _ | textual _ =>
    rw [hv] at hfinite
    exact absurd hfinite nofun
  | finite ordered levels codes =>
    rw [hv] at hvalues
    exact hvalues.1.trans (numericLevels_eq_map cells)

/-- The code of a row is the position of its number among the places of the levels. -/
theorem exists_place_of_code? (h : Means true attr cells c) (hcode : c.code? row = some code)
    {v : Line} (hv : RowSpells cells row v) :
    ∃ (k : Nat) (hk : k < ((sortedNumbers cells).map Number.value).length),
      code = k ∧ ((sortedNumbers cells).map Number.value)[k] = v := by
  obtain ⟨s, hs, hv⟩ := hv
  obtain ⟨s', k, y, hs', hk, hy, hat⟩ := exists_number_of_code? h hcode
  obtain rfl := Cell.text.inj (Option.some.inj (hs.symm.trans hs'))
  obtain ⟨hlt, hget⟩ := List.getElem?_eq_some_iff.1 hat
  refine ⟨k, by rwa [List.length_map], hk, ?_⟩
  rw [List.getElem_map, hget]
  exact spellsValue_unique (spellsValue_of_numberOf? hy) hv

/-- Every level is that of a present row. -/
theorem exists_code?_of_level (h : Means true attr cells c) (hfinite : c.scitype.isFinite = true)
    {k : Nat} (hk : k < c.levels.length) : ∃ row, c.code? row = some (k : Int) := by
  rw [levels_of_means h hfinite, List.length_map] at hk
  obtain ⟨s, hs, hy⟩ := mem_sortedNumbers.1 (List.getElem_mem hk)
  obtain ⟨hcell, hnan⟩ := mem_presentTexts.1 hs
  obtain ⟨row, hcell⟩ := List.mem_iff_getElem?.1 hcell
  obtain ⟨code, hcode⟩ := exists_code?_of_text h hfinite hcell hnan
  obtain ⟨k', hk', rfl, hget⟩ :=
    exists_place_of_code? h hcode ⟨s, hcell, spellsValue_of_numberOf? hy⟩
  -- the code of the row is the position of its number, which is there only once
  have hk₀ : k < ((sortedNumbers cells).map Number.value).length := by rwa [List.length_map]
  have hsame : ((sortedNumbers cells).map Number.value)[k'] =
      ((sortedNumbers cells).map Number.value)[k] := by
    rw [hget, List.getElem_map]
  obtain rfl := (sortedLT_sortedNumbers cells).nodup.getElem_inj_iff.1 hsame
  exact ⟨row, hcode⟩

/-- **A column of numeric levels follows its numbers.** -/
theorem followsNumbers_of_means (h : Means true attr cells c)
    (hfinite : c.scitype.isFinite = true) : FollowsNumbers cells c where
  nodup := by
    rw [levels_of_means h hfinite]
    exact nodup_numericLevels cells
  ascending := by
    refine ⟨_, ?_, sortedLT_sortedNumbers cells⟩
    rw [levels_of_means h hfinite, List.forall₂_map_left_iff, List.forall₂_map_right_iff,
      List.forall₂_same]
    intro y hy
    obtain ⟨s, -, hs⟩ := mem_sortedNumbers.1 hy
    exact spellsValue_plain hs
  occurs := fun k => exists_code?_of_level h hfinite
  present := fun row s => exists_code?_of_text h hfinite
  spells := by
    intro row code hcode
    obtain ⟨s, k, y, hs, -, hy, -⟩ := exists_number_of_code? h hcode
    refine ⟨y.value, ⟨s, hs, spellsValue_of_numberOf? hy⟩, ?_⟩
    rintro v ⟨s', hs', hv⟩
    obtain rfl := Cell.text.inj (Option.some.inj (hs.symm.trans hs'))
    exact spellsValue_unique hv (spellsValue_of_numberOf? hy)
  lt_iff := by
    intro i j a b v w ha hb hv hw
    obtain ⟨k, hk, rfl, rfl⟩ := exists_place_of_code? h ha hv
    obtain ⟨l, hl, rfl, rfl⟩ := exists_place_of_code? h hb hw
    rw [(sortedLT_sortedNumbers cells).getElem_lt_getElem_iff]
    exact Int.ofNat_lt
  eq_iff := by
    intro i j a b v w ha hb hv hw
    obtain ⟨k, hk, rfl, rfl⟩ := exists_place_of_code? h ha hv
    obtain ⟨l, hl, rfl, rfl⟩ := exists_place_of_code? h hb hw
    rw [(sortedLT_sortedNumbers cells).nodup.getElem_inj_iff]
    exact Int.ofNat_inj

/-- A column that takes its levels from numbers follows them. -/
theorem followsNumbers_of_coerceColumn {settings : Settings}
    (h : coerceColumn settings attr cells = .ok c)
    (hnumeric : numericSource settings attr cells = true) (hfinite : c.scitype.isFinite = true) :
    FollowsNumbers cells c := by
  have hall := (allNumeric_eq_true_iff.1 (Bool.and_eq_true_iff.1 hnumeric).1).2
  rw [coerceColumn_eq_build, hnumeric] at h
  refine followsNumbers_of_means (means_of_build ?_ (fun _ => hall) h).2 hfinite
  exact nofun

end Columns

/-! ### Whole tables -/

/-- **Levels that are taken from numbers follow them.** In every mode, under every policy and with
    any types forced: where a column of numbers is given a finite type by the policy, or is forced
    to have one and its attribute is not nominal, the levels ascend as numbers, each of them occurs,
    and the codes of the present rows are ordered as the numbers of their cells are. -/
theorem followsNumbers_of_coerce {p : ParsedTable} {settings : Settings} {t : Table}
    (h : coerce settings p = .ok t) {j : Nat} {attr : Attribute}
    (hattr : p.attributes[j]? = some attr) : ∃ cells c, p.column? j = some cells ∧
      t.columns[j]? = some c ∧ (numericSource settings attr cells = true →
        c.scitype.isFinite = true → FollowsNumbers cells c) := by
  obtain ⟨cells, c, hcells, hc, hcoerce⟩ := exists_column_of_coerce h hattr
  exact ⟨cells, c, hcells, hc, followsNumbers_of_coerceColumn hcoerce⟩

/-- Several spellings of one number, a negative zero, both infinities, two integers that one double
    is nearest to, and one that does not fit into 64 bits. -/
theorem followsNumbers_of_mixed_numbers :
    let attr : Attribute := { name := "s", kind := .string }
    let settings : Settings := { forced := [("s", .multiclass)] }
    let p : ParsedTable :=
      { relation := "", attributes := [attr]
        rows := ["10", " 01 ", "inf", "1e0", "NaN", "9007199254740993", "9007199254740992.0", "-0.0",
          "-inf", "99999999999999999999"].map fun s => [.text s] }
    ∃ t cells c, coerce settings p = .ok t ∧ p.column? 0 = some cells ∧ t.columns[0]? = some c ∧
      numericSource settings attr cells = true ∧ c.scitype.isFinite = true ∧
      FollowsNumbers cells c ∧ c.levels = ["-inf", "0", "1", "10", "9007199254740992",
        "9007199254740993", "99999999999999999999", "inf"] := by
  intro attr settings p
  obtain ⟨cells, hcells⟩ : ∃ cells, p.column? 0 = some cells := ⟨_, rfl⟩
  have hcells' := Option.some.inj hcells
  have hnumeric : (profile attr cells).allNumeric = true := by
    subst hcells'
    decide +kernel
  have hall := (allNumeric_eq_true_iff.1 hnumeric).2
  have hsource : numericSource settings attr cells = true := Bool.and_eq_true_iff.2 ⟨hnumeric, rfl⟩
  have hnumbers : sortedNumbers cells =
      [.float (.infinite true), .int 0, .int 1, .int 10, .int 9007199254740992,
        .int 9007199254740993, .int 99999999999999999999, .float (.infinite false)] := by
    refine sortedNumbers_eq_of_perm ?_ (by decide +kernel) (by decide +kernel)
    subst hcells'
    decide +kernel
  -- the column is built whatever its numbers are, and alone in the table
  obtain ⟨c, hc⟩ := exists_numbers_column attr false hall
  rw [← build_finite_numbers] at hc
  have hcolumn : coerceColumn settings attr cells = .ok c := by
    rw [coerceColumn_eq_build, hsource]
    exact hc
  obtain ⟨t, hcoerce, hat⟩ := exists_coerce_of_single (p := p) rfl hcells (by decide) hcolumn
  have hlabels : true = false → attr.levels.Nodup := nofun
  obtain ⟨htype, hmeans⟩ := means_of_build hlabels (fun _ => hall) hc
  have hfinite : c.scitype.isFinite = true := by
    rw [htype]
    rfl
  have hattr : p.attributes[0]? = some attr := rfl
  obtain ⟨cells', c', hthere, hat', hfollows⟩ := followsNumbers_of_coerce hcoerce hattr
  obtain rfl := Option.some.inj (hcells.symm.trans hthere)
  obtain rfl := Option.some.inj (hat.symm.trans hat')
  refine ⟨t, cells, c, hcoerce, hcells, hat, hsource, hfinite, hfollows hsource hfinite, ?_⟩
  rw [levels_of_means hmeans hfinite, hnumbers]
  decide +kernel

end Coercion

end DatasetCatalog
