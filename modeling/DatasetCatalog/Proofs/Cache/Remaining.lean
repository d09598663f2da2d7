import DatasetCatalog.Proofs.Cache.Listing
import DatasetCatalog.Proofs.Cache.Stocked

/-! # The entries that remain

  After any run the listing names every data set once and is in ascending order, so it is determined
  by its members. When some entries are evicted and the files of all others stay as they are, the
  listing is the old one without the evicted entries, in the old order.
-/

namespace DatasetCatalog

open DatasetCatalog.Path

/-! ### Paths that occur once -/

namespace Disk

variable {p q : Path} {node : Node} {d d' : Disk}

/-- Nothing stands twice in the directory. -/
def Distinct (p : Path) (d : Disk) : Prop :=
  ((d.nodes.map (·.1)).filter fun r => r.names ≠ [] && r.parent = p.resolved).Nodup

theorem Distinct.nodup_list (h : Distinct p d) : (d.list p).Nodup := by
  unfold list
  simp only
  rw [(List.mergeSort_perm _ _).nodup_iff]
  refine h.map_on fun a ha b hb hname => ?_
  -- a path in the directory is made of the directory and its name
  have hpath : ∀ r ∈ (d.nodes.map (·.1)).filter fun r => r.names ≠ [] && r.parent = p.resolved,
      r = p.inside r.name := by
    intro r hr
    obtain ⟨-, hr⟩ := List.mem_filter.1 hr
    simp only [Bool.and_eq_true, decide_eq_true_eq] at hr
    obtain ⟨hne, hparent⟩ := hr
    obtain ⟨slashes, names⟩ := r
    obtain ⟨above, last, rfl⟩ := (List.eq_nil_or_concat names).resolve_left hne
    rw [inside, ← hparent]
    simp [parent, Path.name]
  rw [hpath a ha, hpath b hb, hname]

theorem map_fst_setNode (nodes : List (Path × Node)) (p : Path) (node : Node) :
    (setNode nodes p node).map (·.1) =
      if p ∈ nodes.map (·.1) then nodes.map (·.1) else nodes.map (·.1) ++ [p] := by
  induction nodes with
  | nil => rfl
  | cons first rest ih =>
    obtain ⟨q, old⟩ := first
    rw [setNode]
    by_cases hq : q = p
    · simp [hq]
    · rw [if_neg hq, List.map_cons, ih]
      by_cases hp : p ∈ rest.map (·.1)
      · simp [hp]
      · rw [if_neg hp, if_neg (by simpa [Ne.symm hq] using hp)]
        rfl

theorem Distinct.put (h : Distinct p d) (q : Path) (node : Node) : Distinct p (d.put q node) := by
  unfold Distinct Disk.put at *
  rw [map_fst_setNode]
  split
  · exact h
  · next hnew =>
    rw [List.filter_append, List.nodup_append]
    refine ⟨h, (List.nodup_singleton _).filter _, fun a ha b hb => ?_⟩
    rintro rfl
    obtain rfl := List.mem_singleton.1 (List.mem_filter.1 hb).1
    exact hnew (List.mem_filter.1 ha).1

theorem Distinct.erase (h : Distinct p d) (q : Path) : Distinct p (d.erase q) := by
  unfold Distinct Disk.erase at *
  exact h.sublist ((List.filter_sublist.map _).filter _)

theorem distinct_of_empty (h : d.list p = []) : Distinct p d := by
  have hlength := congrArg List.length h
  unfold list at hlength
  simp only [List.length_mergeSort, List.length_map, List.length_nil] at hlength
  unfold Distinct
  rw [List.length_eq_zero_iff.1 hlength]
  exact List.nodup_nil

end Disk

namespace Cache

open DatasetCatalog.Disk

variable {ε : Type} {root : Path} {n : Nat} {stored : History} {d d' : Disk}

theorem stable_distinct (hroot : root.WellFormed) :
    Stable root fun d => Stocked root d ∧ Distinct root d where
  makeDirectory := by
    rintro q d d' hq ⟨hstocked, hdistinct⟩ hmake
    refine ⟨hstocked.makeDirectory hroot hq hmake, ?_⟩
    obtain ⟨-, -, rfl⟩ := makeDirectory_eq_ok hmake
    exact hdistinct.put _ _
  put := fun hname hfits hdir h => ⟨h.1.put hname hfits hdir, h.2.put _ _⟩
  erase := fun hname h => ⟨h.1.erase hname, h.2.erase _⟩
  names := fun h hmem => h.1.names _ hmem

theorem distinct_of_run (hroot : root.WellFormed) (h : Run ε root d stored) : Distinct root d :=
  ((stable_distinct hroot).run h fun _ hempty =>
    ⟨stocked_of_empty hempty, distinct_of_empty hempty⟩).2

/-! ### The order of a listing -/

namespace Entry

variable {a b e : Entry}

theorem le_iff : a.le b = true ↔
    a.storedAt < b.storedAt ∨ a.storedAt = b.storedAt ∧ a.dataset ≤ b.dataset := by
  simp [le]

theorem le_trans (hab : a.le b = true) (hbe : b.le e = true) : a.le e = true := by
  rw [le_iff] at *
  rcases hab with hab | ⟨hab, hab'⟩
  · rcases hbe with hbe | ⟨hbe, -⟩
    · exact .inl (String.lt_trans hab hbe)
    · exact .inl (hbe ▸ hab)
  · rw [hab]
    exact hbe.imp id fun h => ⟨h.1, hab'.trans h.2⟩

theorem le_total (a b : Entry) : (a.le b || b.le a) = true := by
  rw [Bool.or_eq_true, le_iff, le_iff]
  by_cases hab : a.storedAt < b.storedAt
  · exact .inl (.inl hab)
  by_cases hba : b.storedAt < a.storedAt
  · exact .inr (.inl hba)
  have heq := String.le_antisymm (String.not_lt.1 hba) (String.not_lt.1 hab)
  exact (Int.le_total a.dataset b.dataset).imp (fun h => .inr ⟨heq, h⟩) fun h => .inr ⟨heq.symm, h⟩

theorem dataset_eq_of_le (hab : a.le b = true) (hba : b.le a = true) : a.dataset = b.dataset := by
  rw [le_iff] at hab hba
  rcases hab with hab | ⟨heq, hab⟩
  · rcases hba with hba | ⟨heq, -⟩
    · exact absurd hba (String.lt_asymm hab)
    · rw [heq] at hab
      exact absurd hab (String.lt_irrefl _)
  · rcases hba with hba | ⟨-, hba⟩
    · rw [heq] at hba
      exact absurd hba (String.lt_irrefl _)
    · exact Int.le_antisymm hab hba

end Entry

/-- The entries are in the order of storing, and of different data sets. -/
def Ordered (entries : List Entry) : Prop :=
  entries.Pairwise fun a b => a.le b = true ∧ a.dataset ≠ b.dataset

variable {entries other : List Entry} {evicted : List Int}

/-- Entries in order are determined by their members. -/
theorem Ordered.eq_of_mem_iff (h : Ordered entries) (h' : Ordered other)
    (hmem : ∀ entry, entry ∈ entries ↔ entry ∈ other) : entries = other := by
  have hnodup : ∀ {es : List Entry}, Ordered es → es.Nodup :=
    fun h => h.imp fun hab heq => hab.2 (congrArg Entry.dataset heq)
  have hperm := (List.perm_ext_iff_of_nodup (hnodup h) (hnodup h')).2 hmem
  exact hperm.eq_of_pairwise
    (fun a b _ _ hab hba => absurd (Entry.dataset_eq_of_le hab.1 hba.1) hab.2) h h'

/-- An entry has the data set of the name that it is listed under. -/
theorem eq_markerName_of_entryAt (h : Consistent root stored d) {name : String} {entry : Entry}
    (hname : name ∈ markerNames d root) (hentry : (opened root n).entryAt d name = some entry) :
    name = markerName entry.dataset := by
  obtain ⟨m, hm, hof⟩ := Option.bind_eq_some_iff.1 hentry
  obtain ⟨id, rfl⟩ := exists_marker_of_markerAt h hname hm
  obtain ⟨data, moment, -, -, rfl, hfits⟩ := h.markerAt_eq hm
  rw [entryOf_markerName hfits] at hof
  exact congrArg markerName (congrArg Entry.dataset (Option.some.inj hof))

theorem nodup_markerNames (h : Distinct root d) : (markerNames d root).Nodup := by
  unfold markerNames
  apply List.Nodup.filter
  split
  · exact h.nodup_list
  · exact List.nodup_nil

theorem ordered_mergeSort (h : entries.Pairwise fun a b => a.dataset ≠ b.dataset) :
    Ordered (entries.mergeSort Entry.le) := by
  have htrans : ∀ a b e : Entry, a.le b = true → b.le e = true → a.le e = true :=
    fun _ _ _ => Entry.le_trans
  have hsorted : (entries.mergeSort Entry.le).Pairwise fun a b => a.le b = true :=
    List.pairwise_mergeSort htrans Entry.le_total entries
  have hdistinct : (entries.mergeSort Entry.le).Pairwise fun a b => a.dataset ≠ b.dataset :=
    ((List.mergeSort_perm entries Entry.le).pairwise_iff Ne.symm).2 h
  exact hsorted.and hdistinct

/-- After any run the listing is in order. -/
theorem ordered_listing (hroot : root.WellFormed) (h : Run ε root d stored) :
    Ordered ((opened root n).listing d) := by
  have hconsistent := h.consistent hroot
  have hnodup := nodup_markerNames (distinct_of_run hroot h)
  apply ordered_mergeSort
  refine List.pairwise_filterMap.2 (hnodup.imp_of_mem ?_)
  intro x y hx hy hne a ha b hb heq
  have hx := eq_markerName_of_entryAt hconsistent hx ha
  have hy := eq_markerName_of_entryAt hconsistent hy hb
  exact hne (hx.trans ((congrArg markerName heq).trans hy.symm))

/-! ### Without the evicted entries -/

/-- The entries that are not evicted. -/
def remaining (entries : List Entry) (evicted : List Int) : List Entry :=
  entries.filter fun entry => entry.dataset ∉ evicted

theorem mem_remaining {entry : Entry} :
    entry ∈ remaining entries evicted ↔ entry ∈ entries ∧ entry.dataset ∉ evicted := by
  unfold remaining
  rw [List.mem_filter, decide_eq_true_eq]

/-- **What is listed after an eviction.** -/
theorem listing_eq_remaining (hroot : root.WellFormed) (h : Run ε root d stored)
    (h' : Run ε root d' stored) (halike : Alike root (· ∈ evicted) d d')
    (hgone : ∀ id ∈ evicted, Unmarked root id d') :
    (opened root n).listing d' = remaining ((opened root n).listing d) evicted := by
  have hordered : Ordered (remaining ((opened root n).listing d) evicted) :=
    List.Pairwise.filter _ (ordered_listing hroot h)
  refine (ordered_listing hroot h').eq_of_mem_iff hordered fun entry => ?_
  rw [mem_remaining, mem_listing_iff (h'.consistent hroot),
    mem_listing_iff (h.consistent hroot)]
  have hmarker : ∀ id ∉ evicted, ∀ m, markerAt d' (root.child (markerName id)) = some m ↔
      markerAt d (root.child (markerName id)) = some m := by
    intro id hid m
    rw [read_of_markerAt, read_of_markerAt]
    exact exists_congr fun bytes => and_congr_left fun _ => halike.marker id hid bytes
  constructor
  · rintro ⟨id, data, moment, hm, hdata, rfl⟩
    have hid : id ∉ evicted := by
      intro hmem
      obtain ⟨bytes, hread, -⟩ := exists_read_of_markerAt hm
      exact hgone id hmem bytes hread
    exact ⟨⟨id, data, moment, (hmarker id hid _).1 hm, (halike.data id hid data).1 hdata, rfl⟩, hid⟩
  · rintro ⟨⟨id, data, moment, hm, hdata, rfl⟩, hid⟩
    exact ⟨id, data, moment, (hmarker id hid _).2 hm, (halike.data id hid data).2 hdata, rfl⟩

end Cache

end DatasetCatalog
