import DatasetCatalog.Disk.Basic
import DatasetCatalog.Proofs.Text.Blank
import Mathlib.Data.List.Basic

/-! # Names and resolved paths

  What can stand as a name in a path and in a directory, and where the paths lead that are made
  from a directory and a name in it.
-/

namespace DatasetCatalog.Path

/-! ### Names -/

/-- A name as it can stand in a path. -/
structure IsName (name : String) : Prop where
  /-- It is not empty. -/
  ne_empty : name ≠ ""
  /-- It is not the directory itself. -/
  ne_dot : name ≠ "."
  /-- It is one name. -/
  noSlash : '/' ∉ name.toList

/-- A name as it can stand in a directory: it does not go up. -/
structure IsEntryName (name : String) : Prop extends IsName name where
  /-- It is not the directory above. -/
  ne_up : name ≠ ".."

theorem isName_up : IsName ".." := ⟨by decide, by decide, by decide⟩

/-- All names of the path are names, as in every path that is read. -/
def WellFormed (p : Path) : Prop := ∀ name ∈ p.names, IsName name

theorem wellFormed_ofText (s : String) : (ofText s).WellFormed := by
  intro name hname
  simp only [ofText, namesOf, List.mem_filter, List.mem_map, Bool.and_eq_true,
    decide_eq_true_eq] at hname
  obtain ⟨⟨piece, hpiece, rfl⟩, hempty, hdot⟩ := hname
  refine ⟨hempty, hdot, ?_⟩
  rw [String.toList_ofList]
  exact Text.notMem_of_mem_splitOn hpiece

/-- A name is read as a path of its own. -/
theorem ofText_of_isName {name : String} (h : IsName name) : ofText name = ⟨0, [name]⟩ := by
  have hslashes : name.toList.takeWhile (· == '/') = [] := by
    rw [List.takeWhile_eq_nil_iff]
    intro hlen hslash
    exact h.noSlash (beq_iff_eq.1 hslash ▸ List.getElem_mem hlen)
  have hnames : namesOf name.toList = [name] := by
    rw [namesOf, Text.splitOn_of_notMem h.noSlash]
    simp [h.ne_empty, h.ne_dot]
  rw [ofText, hslashes, hnames]
  rfl

/-! ### Names in a directory -/

variable {p : Path} {name : String}

theorem child_eq (p : Path) (h : IsName name) : p.child name = ⟨p.slashes, p.names ++ [name]⟩ := by
  rw [child, ofText_of_isName h]
  rfl

theorem parent_child (p : Path) (h : IsName name) : (p.child name).parent = p := by
  rw [child_eq p h]
  simp [parent]

theorem addSuffix_child (p : Path) {suffix : String} (h : IsName name)
    (h' : IsName (name ++ suffix)) :
    (p.child name).addSuffix suffix = p.child (name ++ suffix) := by
  rw [child_eq p h, child_eq p h']
  simp [addSuffix]

theorem wellFormed_child (hp : p.WellFormed) (h : IsName name) : (p.child name).WellFormed := by
  intro other hother
  rw [child_eq p h, List.mem_append, List.mem_singleton] at hother
  exact hother.elim (hp other) (· ▸ h)

theorem wellFormed_parent (hp : p.WellFormed) : p.parent.WellFormed :=
  fun other hother => hp other (List.dropLast_subset _ hother)

/-! ### Resolved paths -/

/-- The resolved path of a name in a directory. -/
def inside (p : Path) (name : String) : Path := ⟨p.resolved.slashes, p.resolved.names ++ [name]⟩

theorem inside_inj {name' : String} : p.inside name = p.inside name' ↔ name = name' := by
  simp [inside]

/-- Without steps up nothing is resolved. -/
theorem names_resolved (h : ".." ∉ p.names) : p.resolved.names = p.names := by
  have hfold : ∀ (names above : List String), ".." ∉ names → names.foldl (fun above name =>
      if name = ".." then goUp (decide (p.slashes ≠ 0)) above else name :: above) above =
        names.reverse ++ above := by
    intro names
    induction names with
    | nil => exact fun above _ => rfl
    | cons first names ih =>
      intro above hnames
      obtain ⟨hfirst, hrest⟩ := not_or.1 (mt List.mem_cons.2 hnames)
      rw [List.foldl_cons, if_neg (Ne.symm hfirst), ih _ hrest, List.reverse_cons,
        List.append_assoc, List.singleton_append]
  rw [resolved, hfold p.names [] h, List.append_nil, List.reverse_reverse]

/-- A last name that does not go up stays the last one when the path is resolved. -/
theorem resolved_append (s : Nat) (names : List String) (h : name ≠ "..") :
    (⟨s, names ++ [name]⟩ : Path).resolved = (⟨s, names⟩ : Path).inside name := by
  simp [resolved, inside, h]

theorem resolved_child (p : Path) (h : IsEntryName name) :
    (p.child name).resolved = p.inside name := by
  rw [child_eq p h.toIsName, resolved_append _ _ h.ne_up]

/-- A last name that goes up takes the resolved path back by one name when there is one. -/
theorem resolved_append_up (s : Nat) (names : List String) :
    (⟨s, names ++ [".."]⟩ : Path).resolved.names = [] ∨
      (⟨s, names ++ [".."]⟩ : Path).resolved = (⟨s, names⟩ : Path).inside ".." ∨
      ∃ last, (⟨s, names⟩ : Path).resolved = (⟨s, names ++ [".."]⟩ : Path).inside last := by
  simp only [resolved, inside, List.foldl_append, List.foldl_cons, List.foldl_nil, if_true]
  generalize names.foldl _ [] = above
  cases above with
  | nil =>
    by_cases hs : s = 0
    · exact .inr (.inl (by simp [goUp, hs]))
    · exact .inl (by simp [goUp, hs])
  | cons last above =>
    by_cases hlast : last = ".."
    · exact .inr (.inl (by simp [goUp, hlast]))
    · exact .inr (.inr ⟨last, by simp [goUp, hlast]⟩)

theorem isName_goUp {absolute : Bool} {above : List String} (h : ∀ n ∈ above, IsName n) :
    ∀ n ∈ goUp absolute above, IsName n := by
  intro n hn
  cases above with
  | nil =>
    cases absolute with
    | true => exact absurd hn List.not_mem_nil
    | false => exact List.mem_singleton.1 hn ▸ isName_up
  | cons last above =>
    by_cases hlast : last = ".."
    · rw [goUp, if_pos hlast, List.mem_cons] at hn
      exact hn.elim (· ▸ isName_up) fun hn => h n (hlast ▸ hn)
    · rw [goUp, if_neg hlast] at hn
      exact h n (List.mem_cons_of_mem _ hn)

/-- The names of a resolved path are names. -/
theorem isName_of_mem_resolved (hp : p.WellFormed) (h : name ∈ p.resolved.names) : IsName name := by
  -- the names that are kept so far are names, whichever name comes next
  have hfold : ∀ (names above : List String), (∀ n ∈ names, IsName n) → (∀ n ∈ above, IsName n) →
      ∀ n ∈ names.foldl (fun above name =>
        if name = ".." then goUp (decide (p.slashes ≠ 0)) above else name :: above) above,
        IsName n := by
    intro names
    induction names with
    | nil => exact fun above _ habove => habove
    | cons first names ih =>
      intro above hnames habove
      obtain ⟨hfirst, hrest⟩ := List.forall_mem_cons.1 hnames
      rw [List.foldl_cons]
      refine ih _ hrest ?_
      split
      · exact isName_goUp habove
      · exact List.forall_mem_cons.2 ⟨hfirst, habove⟩
  rw [resolved, List.mem_reverse] at h
  exact hfold p.names [] hp (by simp) name h

end DatasetCatalog.Path
