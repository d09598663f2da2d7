import DatasetCatalog.Json.Basic
import Mathlib.Data.List.Forall2
import Mathlib.Data.List.Nodup
import Mathlib.Data.Option.Defs

/-! # Values by keys

  A list of values by their keys. Where the keys are distinct, a value is found exactly where it
  is listed. Setting a key changes the value at its place, or adds the key at the end; setting the
  keys of one list in another keeps what stands there in order and adds the rest.
-/

namespace DatasetCatalog

variable {κ α β : Type} [BEq κ] [LawfulBEq κ]

theorem mem_of_lookup {xs : List (κ × α)} {key : κ} {value : α}
    (h : xs.lookup key = some value) : (key, value) ∈ xs := by
  obtain ⟨front, back, rfl, -⟩ := List.lookup_eq_some_iff.1 h
  simp

/-- A listed value is found, unless the key is listed before. -/
theorem lookup_of_mem {xs : List (κ × α)} (hdistinct : (xs.map (·.1)).Nodup) {x : κ × α}
    (hmem : x ∈ xs) : xs.lookup x.1 = some x.2 := by
  induction xs with
  | nil => exact absurd hmem List.not_mem_nil
  | cons first xs ih =>
    obtain ⟨hfresh, hrest⟩ := List.nodup_cons.1 hdistinct
    rcases List.mem_cons.1 hmem with rfl | hlater
    · exact List.lookup_cons_self
    · have hne : x.1 ≠ first.1 := by
        intro heq
        exact hfresh (List.mem_map.2 ⟨x, hlater, heq⟩)
      rw [List.lookup_cons, beq_false_of_ne hne]
      exact ih hrest hlater

theorem lookup_eq_none_of_not_mem {xs : List (κ × α)} {key : κ} (h : key ∉ xs.map (·.1)) :
    xs.lookup key = none := by
  rw [List.lookup_eq_none_iff]
  intro x hx
  exact bne_iff_ne.2 fun heq => h (List.mem_map.2 ⟨x, hx, heq.symm⟩)

/-- A change of values depends on their keys, and finds what was found before. -/
theorem lookup_map_values (g : κ → α → β) (xs : List (κ × α)) (key : κ) :
    (xs.map fun x => (x.1, g x.1 x.2)).lookup key = (xs.lookup key).map (g key) := by
  induction xs with
  | nil => rfl
  | cons x xs ih =>
    obtain ⟨key', v⟩ := x
    rw [List.map_cons]
    by_cases hkey : key = key'
    · subst hkey
      rw [List.lookup_cons_self, List.lookup_cons_self, Option.map_some]
    · have hne : (key == key') = false := beq_false_of_ne hkey
      rw [List.lookup_cons, List.lookup_cons, hne]
      exact ih

/-- Of lists with the same keys in the same order the same is found. -/
theorem lookup_forall₂ {R : κ × α → κ × β → Prop} {xs : List (κ × α)} {ys : List (κ × β)}
    (h : List.Forall₂ (fun x y => y.1 = x.1 ∧ R x y) xs ys) (key : κ) :
    Option.Rel (fun a b => R (key, a) (key, b)) (xs.lookup key) (ys.lookup key) := by
  induction h with
  | nil => exact .none
  | @cons x y xs ys hxy _ ih =>
    obtain ⟨key₁, a⟩ := x
    obtain ⟨key₂, b⟩ := y
    obtain ⟨rfl, hR⟩ := hxy
    by_cases hkey : key = key₂
    · subst hkey
      rw [List.lookup_cons_self, List.lookup_cons_self]
      exact .some hR
    · rw [List.lookup_cons, List.lookup_cons, beq_false_of_ne hkey]
      exact ih

/-! ### Setting keys -/

namespace Json

variable {fields : List (String × α)} {key : String} {value : α}

theorem setField_of_notMem (h : key ∉ fields.map (·.1)) :
    setField fields key value = fields ++ [(key, value)] := by
  induction fields with
  | nil => rfl
  | cons field fields ih =>
    obtain ⟨hne, hrest⟩ := not_or.1 (List.mem_cons.not.1 h)
    unfold setField
    rw [if_neg (Ne.symm hne), ih hrest]
    rfl

theorem setField_of_mem (hdistinct : (fields.map (·.1)).Nodup) (h : key ∈ fields.map (·.1)) :
    setField fields key value =
      fields.map fun field => (field.1, if field.1 = key then value else field.2) := by
  induction fields with
  | nil => exact absurd h List.not_mem_nil
  | cons field fields ih =>
    obtain ⟨hfresh, hrest⟩ := List.nodup_cons.1 hdistinct
    unfold setField
    rw [List.map_cons]
    by_cases hkey : field.1 = key
    · have hothers : ∀ other ∈ fields,
          (other.1, if other.1 = key then value else other.2) = other := by
        intro other hother
        have hne : other.1 ≠ key := fun heq =>
          hfresh (List.mem_map.2 ⟨other, hother, heq.trans hkey.symm⟩)
        rw [if_neg hne]
      rw [if_pos hkey, if_pos hkey, List.map_congr_left hothers, List.map_id', hkey]
    · rw [if_neg hkey, if_neg hkey, ih hrest ((List.mem_cons.1 h).resolve_left (Ne.symm hkey))]

theorem keys_setField : (setField fields key value).map (·.1) =
    if key ∈ fields.map (·.1) then fields.map (·.1) else fields.map (·.1) ++ [key] := by
  induction fields with
  | nil => rfl
  | cons field fields ih =>
    unfold setField
    by_cases hkey : field.1 = key
    · simp [hkey]
    · simp only [if_neg hkey, List.map_cons, ih, List.mem_cons, Ne.symm hkey, false_or]
      split <;> rfl

theorem mem_keys_setField {key' : String} :
    key' ∈ (setField fields key value).map (·.1) ↔ key' = key ∨ key' ∈ fields.map (·.1) := by
  rw [keys_setField]
  split
  · next hmem => exact ⟨.inr, fun h => h.elim (fun heq => heq ▸ hmem) id⟩
  · rw [List.mem_append, List.mem_singleton, or_comm]

theorem nodup_setField (hdistinct : (fields.map (·.1)).Nodup) :
    ((setField fields key value).map (·.1)).Nodup := by
  rw [keys_setField]
  split
  · exact hdistinct
  · next hfresh =>
    refine List.nodup_append.2 ⟨hdistinct, List.nodup_singleton key, ?_⟩
    rintro k hk _ hkey rfl
    exact hfresh (List.mem_singleton.1 hkey ▸ hk)

theorem lookup_setField (key' : String) : (setField fields key value).lookup key' =
    if key' = key then some value else fields.lookup key' := by
  induction fields with
  | nil =>
    by_cases hkey : key' = key
    · simp [setField, hkey]
    · simp [setField, List.lookup_cons, hkey, beq_false_of_ne hkey]
  | cons field fields ih =>
    unfold setField
    by_cases hfield : field.1 = key
    · rw [if_pos hfield, List.lookup_cons, List.lookup_cons, hfield]
      by_cases hkey : key' = key
      · simp [hkey]
      · simp [hkey, beq_false_of_ne hkey]
    · rw [if_neg hfield, List.lookup_cons, List.lookup_cons, ih]
      by_cases hkey : key' = field.1
      · simp [hkey, hfield]
      · simp [beq_false_of_ne hkey]

theorem setField_setField (value' : α) :
    setField (setField fields key value) key value' = setField fields key value' := by
  induction fields with
  | nil => simp [setField]
  | cons field fields ih =>
    by_cases hkey : field.1 = key
    · simp [setField, hkey]
    · simp [setField, hkey, ih]

/-- Keys are set in either order, when the one that is set first is there before. -/
theorem setField_comm {key' : String} {value' : α} (hne : key ≠ key')
    (hmem : key ∈ fields.map (·.1)) :
    setField (setField fields key value) key' value' =
      setField (setField fields key' value') key value := by
  induction fields with
  | nil => exact absurd hmem List.not_mem_nil
  | cons field fields ih =>
    by_cases hkey : field.1 = key
    · simp [setField, hkey, hne]
    · have hrest := ih ((List.mem_cons.1 hmem).resolve_left (Ne.symm hkey))
      by_cases hkey' : field.1 = key'
      · simp [setField, hkey', Ne.symm hne]
      · simp [setField, hkey, hkey', hrest]

/-- **Setting the distinct keys of a list in another** keeps what is there in order, each with the
    new value of its key if there is one, and adds the rest in order. -/
theorem foldl_setField {news : List (String × α)} (hfields : (fields.map (·.1)).Nodup)
    (hnews : (news.map (·.1)).Nodup) :
    news.foldl (fun fields (key, value) => setField fields key value) fields =
      fields.map (fun field => (field.1, (news.lookup field.1).getD field.2)) ++
        news.filter (·.1 ∉ fields.map (·.1)) := by
  induction news generalizing fields with
  | nil => simp
  | cons first news ih =>
    obtain ⟨key, value⟩ := first
    obtain ⟨hfresh, hrest⟩ := List.nodup_cons.1 hnews
    have hlater : news.lookup key = none := lookup_eq_none_of_not_mem hfresh
    rw [List.foldl_cons]
    dsimp only
    rw [ih (nodup_setField hfields) hrest, keys_setField]
    by_cases hmem : key ∈ fields.map (·.1)
    · rw [if_pos hmem, setField_of_mem hfields hmem, List.map_map,
        List.filter_cons_of_neg (by simpa using hmem)]
      congr 1
      apply List.map_congr_left
      intro field _
      by_cases hkey : field.1 = key
      · simp [hkey, hlater]
      · simp [hkey, List.lookup_cons, beq_false_of_ne hkey]
    · rw [if_neg hmem, setField_of_notMem hmem, List.map_append, List.append_assoc,
        List.filter_cons_of_pos (by simpa using hmem)]
      congr 1
      · apply List.map_congr_left
        intro field hfield
        have hkey : field.1 ≠ key := fun heq => hmem (List.mem_map.2 ⟨field, hfield, heq⟩)
        rw [List.lookup_cons, beq_false_of_ne hkey]
      · -- the key is listed once, so the rest is told from the fields as before
        have hothers : ∀ new ∈ news, new.1 ≠ key := fun new hnew heq =>
          hfresh (List.mem_map.2 ⟨new, hnew, heq⟩)
        rw [List.map_singleton, hlater, Option.getD_none, List.singleton_append]
        congr 1
        apply List.filter_congr
        intro new hnew
        simp [hothers new hnew]

end Json

end DatasetCatalog
