import DatasetCatalog.Proofs.Forall2
import DatasetCatalog.Table.Basic
import Mathlib.Data.List.Nodup

/-! # Forming tables

  Columns form a table when their names differ and their lengths agree; nothing else about them
  matters. A table whose columns hold numbers only where they hold doubles is the same as itself.
-/

namespace DatasetCatalog

/-! ### Columns in a table -/

namespace Table

theorem addAll_spec {rows : Option Nat} {done columns : List Column} {t : Table}
    (hdone : (done.map (·.name)).Nodup) (h : addAll rows done columns = .ok t) :
    t.columns = done ++ columns ∧ t.names.Nodup ∧ (∀ c ∈ columns, c.length = t.rowCount) ∧
      ∀ n, rows = some n → t.rowCount = n := by
  induction columns generalizing rows done with
  | nil =>
    -- the names that were added one by one are all the names there are
    obtain rfl := Except.ok.inj h
    refine ⟨by simp, hdone, by simp, ?_⟩
    rintro n rfl
    rfl
  | cons c columns ih =>
    rw [addAll] at h
    split at h
    · exact absurd h (by simp)
    next hfresh =>
    split at h
    · exact absurd h (by simp)
    next hrows =>
    have hdone' : ((done ++ [c]).map (·.name)).Nodup := by
      rw [List.map_append, List.map_singleton, ← List.concat_eq_append]
      apply hdone.concat
      intro hmem
      obtain ⟨d, hd, hdc⟩ := List.mem_map.1 hmem
      exact hfresh (List.any_eq_true.2 ⟨d, hd, by simpa using hdc⟩)
    obtain ⟨hcolumns, hnames, hlengths, hcount⟩ := ih hdone' h
    have hc : t.rowCount = c.length := hcount _ rfl
    refine ⟨by rw [hcolumns, List.append_assoc]; rfl, hnames, ?_, ?_⟩
    · intro d hd
      rcases List.mem_cons.1 hd with rfl | hd
      · exact hc.symm
      · exact hlengths d hd
    · rintro n rfl
      rw [hc]
      exact (not_not.1 hrows).symm

/-- What a table of columns is. -/
theorem ofColumns_spec {columns : List Column} {t : Table} (h : ofColumns columns = .ok t) :
    t.columns = columns ∧ t.names.Nodup ∧ ∀ c ∈ columns, c.length = t.rowCount := by
  have hnil : (([] : List Column).map (·.name)).Nodup := .nil
  obtain ⟨hcolumns, hnames, hlengths, -⟩ := addAll_spec hnil h
  exact ⟨hcolumns, hnames, hlengths⟩

theorem addAll_congr {rows : Option Nat} {done done' columns columns' : List Column} {t : Table}
    (hdone : done'.map (·.name) = done.map (·.name))
    (hcolumns : List.Forall₂ (fun c c' => c'.name = c.name ∧ c'.length = c.length) columns columns')
    (h : addAll rows done columns = .ok t) :
    ∃ t', addAll rows done' columns' = .ok t' ∧ t'.columns = done' ++ columns' := by
  have hany : ∀ name, done'.any (·.name == name) = done.any (·.name == name) := by
    intro name
    have hmap := congrArg (fun names => names.any (· == name)) hdone
    simpa [List.any_map, Function.comp_def] using hmap
  induction hcolumns generalizing rows done done' with
  | nil => exact ⟨_, rfl, by simp⟩
  | @cons c c' columns columns' hc _ ih =>
    rw [addAll] at h ⊢
    rw [hany, hc.1, hc.2]
    split at h
    · exact absurd h (by simp)
    next hfresh =>
    split at h
    · exact absurd h (by simp)
    next hrows =>
    rw [if_neg hfresh, if_neg hrows]
    have hdone' : (done' ++ [c']).map (·.name) = (done ++ [c]).map (·.name) := by
      simp [hdone, hc.1]
    obtain ⟨t', ht', hcolumns'⟩ := ih hdone' h (fun name => by simp [hany, hc.1])
    exact ⟨t', ht', by rw [hcolumns', List.append_assoc]; rfl⟩

/-- Columns with the names and lengths of the columns of a table form a table, too. -/
theorem exists_ofColumns {columns columns' : List Column} {t : Table}
    (hcolumns : List.Forall₂ (fun c c' => c'.name = c.name ∧ c'.length = c.length) columns columns')
    (h : ofColumns columns = .ok t) :
    ∃ t', ofColumns columns' = .ok t' ∧ t'.columns = columns' := by
  have hnil : ([] : List Column).map (·.name) = ([] : List Column).map (·.name) := rfl
  exact addAll_congr hnil hcolumns h

/-! ### Columns by name -/

/-- Names differ, so a column is found by its name. -/
theorem column?_of_getElem? {t : Table} (h : t.names.Nodup) {j : Nat} {c : Column}
    (hc : t.columns[j]? = some c) : t.column? c.name = some c := by
  obtain ⟨hj, rfl⟩ := List.getElem?_eq_some_iff.1 hc
  refine List.find?_eq_some_iff_getElem.2 ⟨beq_self_eq_true _, j, hj, rfl, fun k hk => ?_⟩
  -- an earlier column of the same name would be the same column
  have hne : (t.columns[k].name == t.columns[j].name) = false := by
    rw [beq_eq_false_iff_ne]
    intro hname
    have hsame := List.inj_on_of_nodup_map h (List.getElem_mem _) (List.getElem_mem hj) hname
    exact absurd ((List.Nodup.of_map _ h).getElem_inj_iff.1 hsame) (Nat.ne_of_lt hk)
  rw [hne]
  rfl

theorem column?_eq_none {t : Table} {name : String} (h : name ∉ t.names) :
    t.column? name = none := by
  refine List.find?_eq_none.2 fun c hc hname => h ?_
  exact List.mem_map.2 ⟨c, hc, eq_of_beq hname⟩

end Table

/-! ### Sameness -/

theorem Column.sameBy_eq_true_iff {α : Type} {eq : α → α → Bool} {xs ys : List α} :
    Column.sameBy eq xs ys = true ↔ List.Forall₂ (fun x y => eq x y = true) xs ys := by
  induction xs generalizing ys with
  | nil => cases ys <;> simp [Column.sameBy]
  | cons x xs ih =>
    cases ys with
    | nil => simp [Column.sameBy]
    | cons y ys => simp [Column.sameBy, ih]

/-- Every number is the same as itself. -/
theorem Number.same_float_self {x : Binary64} (hx : x.isNaN = false) :
    (Number.float x).same (.float x) = true := by
  have hle : (Number.float x).le (.float x) = true := by
    unfold Number.le
    cases x with
    | nan => exact absurd hx (by decide)
    | infinite negative => cases negative <;> rfl
    | finite negative m e h => exact decide_eq_true (Int.le_refl _)
  unfold Number.same
  rw [hle]
  rfl

/-- The doubles of a column are numbers. -/
def Column.NumbersOnly (c : Column) : Prop :=
  ∀ xs, c.values = .continuous xs → ∀ x ∈ xs, x.isNaN = false

theorem Column.same_self {c : Column} (h : c.NumbersOnly) : c.same c = true := by
  unfold Column.same
  simp only [beq_self_eq_true, Bool.true_and]
  cases hc : c.values with
  | continuous xs =>
    simp only
    rw [Column.sameBy_eq_true_iff, List.forall₂_same]
    intro x hx
    obtain ⟨⟨y, m⟩, hmem, hy⟩ := List.mem_filterMap.1 hx
    cases m with
    | true => exact absurd hy (by simp)
    | false =>
      obtain rfl := Option.some.inj hy
      exact Number.same_float_self (h xs hc y (List.of_mem_zip hmem).1)
  | count xs => simp
  | finite ordered levels codes => simp
  | textual xs => simp

theorem Table.same_iff {t t' : Table} : t'.same t = true ↔
    List.Forall₂ (fun c c' => c'.same c = true) t.columns t'.columns := by
  unfold Table.same
  rw [Column.sameBy_eq_true_iff]
  exact ⟨List.Forall₂.flip, List.Forall₂.flip⟩

end DatasetCatalog
