import DatasetCatalog.Proofs.Coercion.Build
import DatasetCatalog.Proofs.Coercion.CellNumber
import Mathlib.Data.List.Sort

/-! # Labels and codes

  The code of a label is a position of that label, so the label of the code is the label again.
  Levels that are numbers are the labels of the numbers in the column, each of them once and in
  ascending order, so every number of the column has a code.
-/

namespace DatasetCatalog.Coercion

open Arff

/-! ### Codes -/

section Codes

variable {levels : List String} {label s : String} {code : Int}

theorem codeOf?_eq_map : codeOf? levels label =
    (levels.zipIdx.reverse.lookup label).map fun i : Nat => (i : Int) := by
  unfold codeOf?
  cases levels.zipIdx.reverse.lookup label <;> rfl

/-- A code is a position of its label. -/
theorem codeOf?_spec (h : codeOf? levels label = some code) :
    (0 ≤ code ∧ code < levels.length) ∧ Column.labelAt levels code = label := by
  rw [codeOf?_eq_map] at h
  obtain ⟨i, hi, rfl⟩ := Option.map_eq_some_iff.1 h
  -- whichever of equal labels the search from behind finds, it stands at its position
  obtain ⟨front, back, hsplit, -⟩ := List.lookup_eq_some_iff.1 hi
  have hmem : (label, i) ∈ levels.zipIdx := by
    rw [← List.mem_reverse, hsplit]
    simp
  have hget : levels[i]? = some label := List.mem_zipIdx_iff_getElem?.1 hmem
  obtain ⟨hlt, -⟩ := List.getElem?_eq_some_iff.1 hget
  refine ⟨⟨by omega, by exact_mod_cast hlt⟩, ?_⟩
  unfold Column.labelAt
  rw [Int.toNat_natCast, hget]
  rfl

theorem exists_codeOf? (h : label ∈ levels) : ∃ code, codeOf? levels label = some code := by
  obtain ⟨i, hi, hget⟩ := List.getElem_of_mem h
  have hmem : (label, i) ∈ levels.zipIdx.reverse := by
    rw [List.mem_reverse, List.mem_zipIdx_iff_getElem?, List.getElem?_eq_getElem hi, hget]
  have hsome : (levels.zipIdx.reverse.lookup label).isSome = true :=
    List.lookup_isSome_iff.2 ⟨_, hmem, by simp⟩
  obtain ⟨j, hj⟩ := Option.isSome_iff_exists.1 hsome
  exact ⟨j, by rw [codeOf?_eq_map, hj]; rfl⟩

theorem toCode_eq_ok_iff {v : Option Int} : toCode levels label = .ok v ↔
    ∃ code, v = some code ∧ codeOf? levels label = some code := by
  unfold toCode
  cases codeOf? levels label with
  | none => simp
  | some code => simp [eq_comm]

theorem toNumericCode_of_isNaNText (h : isNaNText s = true) : toNumericCode levels s = .ok none := by
  unfold toNumericCode numericLabel?
  simp [h]

theorem toNumericCode_of_numberOf? (hs : isNaNText s = false) {y : Number}
    (hy : numberOf? s = some y) : toNumericCode levels s = toCode levels y.plain := by
  unfold toNumericCode numericLabel?
  simp [hs, hy]

theorem toNumericCode_of_wholeOf? (hs : isNaNText s = false) {w : Int} (hw : wholeOf? s = some w) :
    toNumericCode levels s = toCode levels (integerText w) :=
  toNumericCode_of_numberOf? hs (numberOf?_of_wholeOf? hw)

end Codes

/-! ### Distinct numbers -/

/-- What is kept comes from the list, and nothing of it is equal to something in front. -/
theorem pairwise_dedupBy {α : Type} (eq : α → α → Bool) (xs : List α) :
    (dedupBy eq xs).Pairwise (fun x y => eq y x = false) ∧ ∀ x ∈ dedupBy eq xs, x ∈ xs := by
  unfold dedupBy
  simp only [List.pairwise_reverse, List.mem_reverse]
  -- what was kept last stands in front
  apply List.foldlRecOn (motive := fun kept : List α =>
    kept.Pairwise (fun x y => eq x y = false) ∧ ∀ x ∈ kept, x ∈ xs)
  · exact ⟨.nil, nofun⟩
  · rintro kept ⟨hpairwise, hfrom⟩ x hx
    split
    · exact ⟨hpairwise, hfrom⟩
    · next hnew =>
      rw [List.any_eq_true, not_exists] at hnew
      refine ⟨List.pairwise_cons.2 ⟨fun y hy => ?_, hpairwise⟩, List.forall_mem_cons.2 ⟨hx, hfrom⟩⟩
      exact Bool.eq_false_iff.2 fun heq => hnew y ⟨hy, heq⟩

/-- Every element is kept, or something is that it is equal to. -/
theorem exists_mem_dedupBy {α : Type} {eq : α → α → Bool} {xs : List α} {x : α} (hx : x ∈ xs) :
    ∃ y ∈ dedupBy eq xs, y = x ∨ eq x y = true := by
  unfold dedupBy
  simp only [List.mem_reverse]
  -- what was kept stays, so it matters only what is kept when `x` is passed
  have hfold : ∀ ys kept : List α, (x ∈ ys ∨ ∃ y ∈ kept, y = x ∨ eq x y = true) →
      ∃ y ∈ ys.foldl (fun kept y => if kept.any (eq y) then kept else y :: kept) kept,
        y = x ∨ eq x y = true := by
    intro ys
    induction ys with
    | nil =>
      intro kept h
      exact h.resolve_left List.not_mem_nil
    | cons z ys ih =>
      intro kept h
      rw [List.foldl_cons]
      apply ih
      rcases h with hmem | ⟨y, hy, hxy⟩
      · rcases List.mem_cons.1 hmem with rfl | hmem
        · right
          split
          · next hany =>
            obtain ⟨y, hy, hxy⟩ := List.any_eq_true.1 hany
            exact ⟨y, hy, .inr hxy⟩
          · exact ⟨x, List.mem_cons_self, .inl rfl⟩
        · exact .inl hmem
      · right
        split
        · exact ⟨y, hy, hxy⟩
        · exact ⟨y, List.mem_cons_of_mem z hy, hxy⟩
  exact hfold xs [] (.inl hx)

theorem mem_dedupBy_of_eq {α : Type} {eq : α → α → Bool} {xs : List α} {x : α} (hx : x ∈ xs)
    (heq : ∀ y ∈ xs, eq x y = true → x = y) : x ∈ dedupBy eq xs := by
  obtain ⟨y, hy, rfl | hxy⟩ := exists_mem_dedupBy hx
  · exact hy
  · rw [heq y ((pairwise_dedupBy eq xs).2 y hy) hxy]
    exact hy

/-- What is kept comes from the list, and no two of it are one element. -/
theorem nodup_dedupBy {α : Type} {eq : α → α → Bool} {xs : List α} (h : ∀ x ∈ xs, eq x x = true) :
    (dedupBy eq xs).Nodup ∧ ∀ x ∈ dedupBy eq xs, x ∈ xs := by
  obtain ⟨hpairwise, hfrom⟩ := pairwise_dedupBy eq xs
  refine ⟨hpairwise.imp_of_mem fun {x y} hx _ hne heq => ?_, hfrom⟩
  subst heq
  rw [h x (hfrom x hx)] at hne
  exact absurd hne nofun

/-! ### The numbers behind the levels -/

/-- The distinct numbers of the cells, in ascending order. -/
def sortedNumbers (cells : List Cell) : List Number :=
  (dedupBy Number.same ((presentTexts cells).filterMap numberOf?)).mergeSort Number.le

theorem numericLevels_eq_map (cells : List Cell) :
    numericLevels cells = (sortedNumbers cells).map Number.plain := rfl

theorem reduced_of_mem_filterMap {texts : List String} {y : Number}
    (h : y ∈ texts.filterMap numberOf?) : y.Reduced := by
  obtain ⟨s, -, hs⟩ := List.mem_filterMap.1 h
  exact reduced_of_numberOf? hs

/-- What is sorted are the numbers that the present texts spell. -/
theorem mem_sortedNumbers {cells : List Cell} {y : Number} :
    y ∈ sortedNumbers cells ↔ ∃ s ∈ presentTexts cells, numberOf? s = some y := by
  unfold sortedNumbers
  rw [List.mem_mergeSort, ← List.mem_filterMap]
  refine ⟨(pairwise_dedupBy _ _).2 y, fun hy => mem_dedupBy_of_eq hy fun z hz hsame => ?_⟩
  -- equal numbers that texts are read as are one number
  have hy := reduced_of_mem_filterMap hy
  have hz := reduced_of_mem_filterMap hz
  exact Number.eq_of_value_eq hy hz ((Number.same_iff_value_eq hy.isNaN hz.isNaN).1 hsame)

/-- **The numbers behind the levels ascend.** -/
theorem sortedLT_sortedNumbers (cells : List Cell) :
    ((sortedNumbers cells).map Number.value).SortedLT := by
  obtain ⟨hpairwise, hfrom⟩ :=
    pairwise_dedupBy Number.same ((presentTexts cells).filterMap numberOf?)
  have hnan := fun y hy => (reduced_of_mem_filterMap (hfrom y hy)).isNaN
  -- sorting the numbers sorts their places, and no two of them have one place
  have hsort : (sortedNumbers cells).map Number.value =
      ((dedupBy Number.same ((presentTexts cells).filterMap numberOf?)).map
        Number.value).mergeSort fun v w => decide (v ≤ w) := by
    apply List.map_mergeSort
    intro a ha b hb
    rw [Bool.eq_iff_iff, Number.le_iff_value_le (hnan a ha) (hnan b hb), decide_eq_true_eq]
  rw [hsort]
  apply List.sortedLE_mergeSort.sortedLT_of_nodup
  rw [(List.mergeSort_perm _ _).nodup_iff]
  refine List.pairwise_map.2 (hpairwise.imp_of_mem fun {a b} ha hb hne heq => ?_)
  rw [(Number.same_iff_value_eq (hnan b hb) (hnan a ha)).2 heq.symm] at hne
  exact absurd hne nofun

/-- There is only one way to put the numbers in ascending order. -/
theorem sortedNumbers_eq_of_perm {cells : List Cell} {ys : List Number}
    (hperm : (dedupBy Number.same ((presentTexts cells).filterMap numberOf?)).Perm ys)
    (hnan : ∀ y ∈ ys, y.isNaN = false) (hys : ys.Pairwise fun a b => b.le a = false) :
    sortedNumbers cells = ys := by
  have hsorted := List.pairwise_map.1 (sortedLT_sortedNumbers cells).pairwise
  have hys' : ys.Pairwise fun a b => a.value < b.value := by
    refine hys.imp_of_mem fun {a b} ha hb hle => not_le.1 fun hge => ?_
    rw [(Number.le_iff_value_le (hnan b hb) (hnan a ha)).2 hge] at hle
    cases hle
  have hsame : (sortedNumbers cells).Perm ys := (List.mergeSort_perm _ _).trans hperm
  exact hsame.eq_of_pairwise (fun a b _ _ hlt hgt => absurd hgt (lt_asymm hlt)) hsorted hys'

theorem nodup_sortedNumbers (cells : List Cell) : (sortedNumbers cells).Nodup :=
  (sortedLT_sortedNumbers cells).nodup.of_map

theorem nodup_numericLevels (cells : List Cell) : (numericLevels cells).Nodup := by
  rw [numericLevels_eq_map]
  refine (nodup_sortedNumbers cells).map_on fun a ha b hb h => ?_
  obtain ⟨s, -, hs⟩ := mem_sortedNumbers.1 ha
  obtain ⟨r, -, hr⟩ := mem_sortedNumbers.1 hb
  exact Number.eq_of_plain_eq (reduced_of_numberOf? hs) (reduced_of_numberOf? hr) h

/-- The label of every number is a level. -/
theorem plain_mem_numericLevels {cells : List Cell} {s : String} (hs : s ∈ presentTexts cells)
    {y : Number} (hy : numberOf? s = some y) : y.plain ∈ numericLevels cells := by
  rw [numericLevels_eq_map]
  exact List.mem_map_of_mem (mem_sortedNumbers.2 ⟨s, hs, hy⟩)

theorem filterMap_numberOf? {texts : List String} {ws : List Int}
    (h : List.Forall₂ (fun s w => wholeOf? s = some w) texts ws) :
    texts.filterMap numberOf? = ws.map .int := by
  apply filterMap_eq_of_forall₂
  rw [List.forall₂_map_right_iff]
  exact h.imp fun _ _ hw => numberOf?_of_wholeOf? hw

/-- Columns with the same whole numbers have the same levels. -/
theorem numericLevels_congr {cells cells' : List Cell} {ws : List Int}
    (h : List.Forall₂ (fun s w => wholeOf? s = some w) (presentTexts cells) ws)
    (h' : List.Forall₂ (fun s w => wholeOf? s = some w) (presentTexts cells') ws) :
    numericLevels cells = numericLevels cells' := by
  unfold numericLevels
  rw [filterMap_numberOf? h, filterMap_numberOf? h']

/-- Codes of labels form a column of levels. -/
theorem codesValid_codes {levels : List String} {ordered : Bool} {cells : List Cell}
    {convert : String → Except CoercionFault (Option Int)} {vs : List (Option Int)}
    (h : List.Forall₂ (Converts convert) cells vs)
    (hcode : ∀ s code, convert s = .ok (some code) → ∃ label, codeOf? levels label = some code) :
    (Values.finite ordered levels (vs.map (·.getD 0))).CodesValid (vs.map (·.isNone)) := by
  intro p hp hpresent
  rw [List.zip_map', List.mem_map] at hp
  obtain ⟨v, hv, rfl⟩ := hp
  cases v with
  | none => exact absurd hpresent (by simp)
  | some code =>
    obtain ⟨s, -, hs⟩ := Packing.exists_text_of_mem h hv
    obtain ⟨label, hlabel⟩ := hcode s code hs
    exact (codeOf?_spec hlabel).1

theorem levels_of_column {attr : Attribute} {cells : List Cell} {c : Column} {ordered : Bool}
    {levels : List String} {convert : String → Except CoercionFault (Option Int)}
    (h : (Packing.codes ordered levels).column attr convert cells = .ok c) : c.levels = levels := by
  obtain ⟨vs, -, -, hholds⟩ := Packing.column_eq_ok_iff.1 h
  unfold Column.levels
  rw [hholds.values]
  rfl

end DatasetCatalog.Coercion
