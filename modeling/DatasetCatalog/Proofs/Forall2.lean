import Mathlib.Data.List.Forall2

/-! # Lists side by side

  Two lists of which every element of one stands beside a related element of the other.
-/

namespace DatasetCatalog

variable {α β γ δ : Type} {R : α → β → Prop} {S : α → γ → Prop} {xs : List α} {ys : List β}
  {zs : List γ}

theorem exists_of_mem_forall₂ (h : List.Forall₂ R xs ys) {x : α} (hx : x ∈ xs) :
    ∃ y ∈ ys, R x y := by
  obtain ⟨i, hi, rfl⟩ := List.getElem_of_mem hx
  exact ⟨_, List.getElem_mem (h.length_eq ▸ hi), h.get hi (h.length_eq ▸ hi)⟩

theorem exists_of_forall₂_mem (h : List.Forall₂ R xs ys) {y : β} (hy : y ∈ ys) :
    ∃ x ∈ xs, R x y := by
  obtain ⟨i, hi, rfl⟩ := List.getElem_of_mem hy
  exact ⟨_, List.getElem_mem (h.length_eq ▸ hi), h.get (h.length_eq ▸ hi) hi⟩

theorem exists_getElem?_of_forall₂ (h : List.Forall₂ R xs ys) {i : Nat} {y : β}
    (hy : ys[i]? = some y) : ∃ x, xs[i]? = some x ∧ R x y := by
  obtain ⟨hi, rfl⟩ := List.getElem?_eq_some_iff.1 hy
  exact ⟨_, List.getElem?_eq_getElem (h.length_eq ▸ hi), h.get (h.length_eq ▸ hi) hi⟩

/-- What stands beside an append is an append. -/
theorem exists_append_of_forall₂ {ys' : List β} (h : List.Forall₂ R xs (ys ++ ys')) :
    ∃ front back, xs = front ++ back ∧ List.Forall₂ R front ys ∧ List.Forall₂ R back ys' :=
  ⟨xs.take ys.length, xs.drop ys.length, (List.take_append_drop _ _).symm,
    List.forall₂_take_append xs ys ys' h, List.forall₂_drop_append xs ys ys' h⟩

/-- Where every element has a related one, there is a list of them. -/
theorem exists_forall₂ (h : ∀ x ∈ xs, ∃ y, R x y) : ∃ ys, List.Forall₂ R xs ys := by
  induction xs with
  | nil => exact ⟨[], .nil⟩
  | cons x xs ih =>
    obtain ⟨y, hy⟩ := h x List.mem_cons_self
    obtain ⟨ys, hys⟩ := ih fun x' hx' => h x' (List.mem_cons_of_mem x hx')
    exact ⟨y :: ys, .cons hy hys⟩

/-- A list beside something is not empty, and neither is another list beside the same. -/
theorem ne_nil_of_forall₂ {T : δ → γ → Prop} {ws : List δ} (h : List.Forall₂ S xs zs)
    (h' : List.Forall₂ T ws zs) (hne : xs ≠ []) : ws ≠ [] := by
  rintro rfl
  cases h'
  cases h
  exact hne rfl

/-- Relations that agree on the elements of the first list relate it to the same lists. -/
theorem forall₂_congr_of_mem {S : α → β → Prop} (h : ∀ x ∈ xs, ∀ y, R x y ↔ S x y) :
    List.Forall₂ R xs ys ↔ List.Forall₂ S xs ys := by
  induction xs generalizing ys with
  | nil => simp
  | cons x xs ih =>
    have htail : ∀ zs, List.Forall₂ R xs zs ↔ List.Forall₂ S xs zs := fun zs =>
      ih fun x' hx' => h x' (List.mem_cons_of_mem x hx')
    simp only [List.forall₂_cons_left_iff, h x List.mem_cons_self, htail]

/-- A list is mapped if every element is, and each stands beside its image. -/
theorem mapM_eq_some_iff {f : α → Option β} :
    xs.mapM f = some ys ↔ List.Forall₂ (fun x y => f x = some y) xs ys := by
  induction xs generalizing ys with
  | nil =>
    rw [List.mapM_nil, List.forall₂_nil_left_iff, eq_comm]
    exact Option.some_inj
  | cons x xs ih =>
    rw [List.mapM_cons, List.forall₂_cons_left_iff]
    simp only [← ih]
    cases f x <;> cases xs.mapM f <;> simp [eq_comm]

theorem filterMap_eq_of_forall₂ {f : α → Option β}
    (h : List.Forall₂ (fun x y => f x = some y) xs ys) : xs.filterMap f = ys := by
  induction h with
  | nil => rfl
  | cons hxy _ ih => rw [List.filterMap_cons_some hxy, ih]

theorem forall₂_comp {T : β → δ → Prop} {ws : List δ} (h : List.Forall₂ R xs ys)
    (h' : List.Forall₂ T ys ws) : List.Forall₂ (fun x w => ∃ y, R x y ∧ T y w) xs ws := by
  induction h generalizing ws with
  | nil =>
    cases h'
    exact .nil
  | cons hxy _ ih =>
    cases h' with
    | cons hyw hrest => exact .cons ⟨_, hxy, hyw⟩ (ih hrest)

/-- Lists side by side have equal images when related elements do. -/
theorem map_eq_of_forall₂ {f : α → δ} {g : β → δ} (h : List.Forall₂ R xs ys)
    (heq : ∀ x y, R x y → f x = g y) : xs.map f = ys.map g := by
  induction h with
  | nil => rfl
  | cons hxy _ ih => rw [List.map_cons, List.map_cons, heq _ _ hxy, ih]

/-- Lists that stand beside the same list have equal images when related elements do. -/
theorem map_eq_map_of_forall₂ {f : β → δ} {g : γ → δ} (h : List.Forall₂ R xs ys)
    (h' : List.Forall₂ S xs zs) (heq : ∀ x y z, R x y → S x z → f y = g z) :
    ys.map f = zs.map g := by
  induction h generalizing zs with
  | nil =>
    cases h'
    rfl
  | cons hxy _ ih =>
    cases h' with
    | cons hxz hrest => rw [List.map_cons, List.map_cons, heq _ _ _ hxy hxz, ih hrest]

end DatasetCatalog
