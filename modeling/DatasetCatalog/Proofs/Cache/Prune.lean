import DatasetCatalog.Proofs.Cache.Lockable
import DatasetCatalog.Proofs.Cache.Remaining
import Mathlib.Algebra.Order.BigOperators.Group.List

/-! # What pruning evicts

  Pruning goes through the listing from the oldest entry on, and passes by the data sets with an
  open flight. As long as the sum that it keeps exceeds the limit, it evicts. Each eviction takes
  away the files of one listed entry and nothing else, so this sum is always that of the entries
  that are still there.
-/

namespace DatasetCatalog.Cache

open DatasetCatalog.Action DatasetCatalog.Disk DatasetCatalog.Path

variable {ε : Type} {root : Path} {n : Nat} {id : Int} {limit carried : Int} {stored : History}
  {busy : Int → Prop} {entry : Entry} {entries rest : List Entry} {evicted front : List Int}
  {d : Disk} {w w' last : World}

/-! ### Evicting a listed entry -/

/-- The data set has neither a marker nor data. -/
structure Gone (root : Path) (id : Int) (d : Disk) : Prop where
  unmarked : Unmarked root id d
  data : ∀ bytes, d.read (root.child (dataName id)) ≠ .ok bytes

/-- Of the world `w` the data sets have been evicted, and nothing else has been done. -/
structure Evicted (ε : Type) (root : Path) (stored : History) (w : World) (evicted : List Int)
    (w' : World) : Prop where
  run : Run ε root w'.disk stored
  /-- The entries of the other data sets are as they were. -/
  alike : Alike root (· ∈ evicted) w.disk w'.disk
  gone : ∀ id ∈ evicted, Gone root id w'.disk
  look : w'.disk.look root = w.disk.look root
  others : ∃ disk trace, w' = { w with disk, trace }

theorem evicted_nil (hroot : root.WellFormed) (h : Run ε root w.disk stored) :
    Evicted ε root stored w [] w where
  run := h
  alike := alike_refl (lockable_of_run hroot h).grounded
  gone := nofun
  look := rfl
  others := ⟨w.disk, w.trace, rfl⟩

theorem Evicted.trans (h : Evicted ε root stored w [id] w')
    (h' : Evicted ε root stored w' evicted last) :
    Evicted ε root stored w (id :: evicted) last where
  run := h'.run
  alike := by
    refine (h.alike.mono fun other hother => ?_).trans
      (h'.alike.mono fun other hother => List.mem_cons_of_mem _ hother)
    exact List.mem_cons.2 (.inl (List.mem_singleton.1 hother))
  gone := by
    intro other hmem
    by_cases hother : other ∈ evicted
    · exact h'.gone other hother
    · -- the later evictions leave alone what the first one has left
      have hfirst : other ∈ [id] :=
        List.mem_singleton.2 ((List.mem_cons.1 hmem).resolve_right hother)
      have hgone := h.gone other hfirst
      exact ⟨hgone.unmarked.of_agree (h'.alike.marker other hother), fun bytes hread =>
        hgone.data bytes ((h'.alike.data other hother bytes).1 hread)⟩
  look := h'.look.trans h.look
  others := by
    obtain ⟨disk, trace, rfl⟩ := h.others
    obtain ⟨disk', trace', rfl⟩ := h'.others
    exact ⟨disk', trace', rfl⟩

theorem exec_removeIfThere {p : Path} {bytes : ByteArray} (hread : w.disk.read p = .ok bytes)
    (hv : w.verdicts = []) :
    ∃ d, w.disk.remove p = .ok d ∧
      ∃ trace, (removeIfThere p).exec w = (some (.ok true), { w with disk := d, trace }) := by
  have hlook := look_of_read hread
  have hpresent : Gives w.disk (Action.present p) (.ok true) := by
    have h := gives_inspect (d := w.disk) (·.present p)
    rwa [Disk.present, hlook] at h
  have hremove : w.disk.remove p = .ok (w.disk.erase p) := by
    rw [Disk.remove, hlook]
  obtain ⟨trace, hexec, -⟩ := hpresent w rfl hv
  refine ⟨_, hremove, trace, ?_⟩
  unfold removeIfThere Action.remove
  rw [exec_bind, hexec]
  simp only [if_pos, exec_bind, exec_alter, hv, hremove]
  rfl

theorem exists_reads_of_marked (h : Consistent root stored d) (hmarked : ¬ Unmarked root id d) :
    ∃ bytes data, d.read (root.child (markerName id)) = .ok bytes ∧
      d.read (root.child (dataName id)) = .ok data := by
  obtain ⟨bytes, hread⟩ : ∃ bytes, d.read (root.child (markerName id)) = .ok bytes := by
    by_contra hnone
    exact hmarked fun bytes hread => hnone ⟨bytes, hread⟩
  obtain ⟨data, moment, -, hdata, -⟩ := h.read_data hread
  exact ⟨bytes, data, hread, hdata⟩

/-- The lock is taken, the marker is removed, then the data, and the lock is given back. -/
theorem exec_evict {bytes data : ByteArray} (hlock : (opened root 0).lockFile id w.disk = .ok ())
    (hv : w.verdicts = []) (hfree : (root, id) ∉ w.locks)
    (hmarker : w.disk.read (root.child (markerName id)) = .ok bytes)
    (hdata : w.disk.read (root.child (dataName id)) = .ok data) :
    ∃ d₁ d₂ trace, w.disk.remove (root.child (markerName id)) = .ok d₁ ∧
      d₁.remove (root.child (dataName id)) = .ok d₂ ∧
      ((opened root n).evict (.ofInt id)).exec w =
        (some (.ok true), { w with disk := d₂, trace }) := by
  obtain ⟨trace, -, hexec⟩ := exec_takeLock (n := n) hlock hv
  rw [if_neg hfree] at hexec
  obtain ⟨d₁, hremove₁, trace₁, hexec₁⟩ := exec_removeIfThere
    (w := { w with trace, locks := (root, id) :: w.locks }) hmarker hv
  obtain ⟨-, hoff, -⟩ := remove_child_eq_ok (isEntryName_markerName id) hremove₁
  have hdata₁ : d₁.read (root.child (dataName id)) = .ok data :=
    (hoff.read (isEntryName_markerName id) (isEntryName_dataName id)
      ((endsIn_markerName id).ne (endsIn_dataName id) (by decide))).trans hdata
  obtain ⟨d₂, hremove₂, trace₂, hexec₂⟩ := exec_removeIfThere
    (w := { w with disk := d₁, trace := trace₁, locks := (root, id) :: w.locks }) hdata₁ hv
  refine ⟨d₁, d₂, trace₂, hremove₁, hremove₂, ?_⟩
  unfold evict thenRelease releaseLock
  simp only [DatasetName.ofInt, markerPath_opened, dataPath_opened, exec_bind, exec_mapError,
    exec_attempt, hexec, hexec₁, hexec₂, exec_pure, exec_change, exec_ofExcept, Bool.or_true]
  rw [List.erase_cons_head]

theorem gone_of_removed {d₁ d₂ : Disk}
    (hmarker : d.remove (root.child (markerName id)) = .ok d₁)
    (hdata : d₁.remove (root.child (dataName id)) = .ok d₂) :
    Gone root id d₂ ∧ d₂.look root = d.look root := by
  have hmarkerName := isEntryName_markerName id
  have hdataName := isEntryName_dataName id
  obtain ⟨-, hoff₁, hunmarked⟩ := remove_child_eq_ok hmarkerName hmarker
  obtain ⟨-, hoff₂, hgone⟩ := remove_child_eq_ok hdataName hdata
  refine ⟨⟨fun bytes hread => hunmarked bytes ?_, hgone⟩, ?_⟩
  · rwa [hoff₂.read hdataName hmarkerName
      ((endsIn_dataName id).ne (endsIn_markerName id) (by decide))] at hread
  · exact (hoff₂ _ (avoids_child root hdataName)).trans (hoff₁ _ (avoids_child root hmarkerName))

/-- **An entry with a marker is evicted** when nobody holds its lock. -/
theorem exec_evict_of_marked (hroot : root.WellFormed) (h : Run ε root w.disk stored)
    (hv : w.verdicts = []) (hmarked : ¬ Unmarked root id w.disk) (hfree : (root, id) ∉ w.locks) :
    ∃ w', ((opened root n).evict (.ofInt id)).exec w = (some (.ok true), w') ∧
      Evicted ε root stored w [id] w' := by
  have hlockable := lockable_of_run hroot h
  obtain ⟨bytes, data, hmarker, hdata⟩ := exists_reads_of_marked (h.consistent hroot) hmarked
  obtain ⟨d₁, d₂, trace, hremove₁, hremove₂, hexec⟩ :=
    exec_evict (n := n) (hlockable.lock id hmarked) hv hfree hmarker hdata
  obtain ⟨hgone, hlook⟩ := gone_of_removed hremove₁ hremove₂
  have halike := (triple_evict_alike (n := n) hroot (.ofInt id)).disk (w := w)
    (alike_refl hlockable.grounded)
  have hrun := h.step n rfl (show (Command.evict (.ofInt id) : Command ε).Undisturbed from trivial)
  unfold Command.after at hrun
  simp only [hexec] at halike hrun
  refine ⟨_, hexec, ?_⟩
  exact {
    run := hrun
    alike := halike.1.mono fun other hother => List.mem_singleton.2 hother
    gone := by
      intro other hother
      obtain rfl := List.mem_singleton.1 hother
      exact hgone
    look := hlook
    others := ⟨d₂, trace, rfl⟩ }

/-! ### Sums of sizes -/

theorem sizeOf_eq_sum (entries : List Entry) : sizeOf entries = (entries.map (·.size)).sum := by
  rw [sizeOf, List.sum_eq_foldl, List.foldl_map]

theorem sizeOf_cons (entry : Entry) (rest : List Entry) :
    sizeOf (entry :: rest) = entry.size + sizeOf rest := by
  rw [sizeOf_eq_sum, sizeOf_eq_sum, List.map_cons, List.sum_cons]

theorem size_le_sizeOf (h : ∀ other ∈ entries, 0 ≤ other.size) (hentry : entry ∈ entries) :
    entry.size ≤ sizeOf entries := by
  rw [sizeOf_eq_sum]
  exact List.single_le_sum (List.forall_mem_map.2 h) _ (List.mem_map_of_mem hentry)

theorem size_nonneg_of_mem_listing (h : Consistent root stored d)
    (hentry : entry ∈ (opened root n).listing d) : 0 ≤ entry.size := by
  obtain ⟨id, data, moment, -, -, rfl⟩ := (mem_listing_iff h entry).1 hentry
  exact Int.natCast_nonneg _

theorem remaining_nil (entries : List Entry) : remaining entries [] = entries :=
  List.filter_eq_self.2 fun _ _ => rfl

theorem remaining_cons_of_not_mem (h : entry.dataset ∉ evicted) :
    remaining (entry :: rest) evicted = entry :: remaining rest evicted :=
  List.filter_cons_of_pos (decide_eq_true h)

/-- An entry that is evicted is the only one of its data set. -/
theorem remaining_cons_cons (h : ∀ other ∈ rest, entry.dataset ≠ other.dataset) :
    remaining (entry :: rest) (entry.dataset :: evicted) = remaining rest evicted := by
  unfold remaining
  rw [List.filter_cons_of_neg (by simp)]
  refine List.filter_congr fun other hother => decide_eq_decide.2 (not_congr ?_)
  rw [List.mem_cons, or_iff_right (h other hother).symm]

/-! ### The shortest beginning -/

/-- The entries that may be evicted. -/
def evictable (busy : Int → Prop) [DecidablePred busy] (entries : List Entry) : List Int :=
  (entries.filter fun entry => ¬ busy entry.dataset).map (·.dataset)

/-- Evicted is the shortest beginning of the entries that may be evicted that brings the sum down to
    the limit, or all of them; `carried` is what else is in the sum. -/
structure Shortest (busy : Int → Prop) [DecidablePred busy] (limit carried : Int)
    (entries : List Entry) (evicted : List Int) : Prop where
  oldest : evicted <+: evictable busy entries
  /-- Each one was evicted when what remained exceeded the limit. -/
  needed : ∀ front id, front ++ [id] <+: evicted →
    limit < carried + sizeOf (remaining entries front)
  enough : carried + sizeOf (remaining entries evicted) ≤ limit ∨
    ∀ entry ∈ remaining entries evicted, busy entry.dataset

section Shortest

variable [DecidablePred busy]

/-- Nothing is evicted when that is enough, or when nothing is there. -/
theorem shortest_nil (h : carried + sizeOf entries ≤ limit ∨ entries = []) :
    Shortest busy limit carried entries [] where
  oldest := List.nil_prefix
  needed := fun front id hfront => absurd (List.prefix_nil.1 hfront) (by simp)
  enough := by
    rw [remaining_nil]
    rcases h with h | rfl
    · exact .inl h
    · exact .inr nofun

theorem not_mem_of_prefix_evictable (h : front <+: evictable busy rest)
    (hdistinct : ∀ other ∈ rest, entry.dataset ≠ other.dataset) : entry.dataset ∉ front := by
  intro hmem
  obtain ⟨other, hother, heq⟩ := List.mem_map.1 (h.subset hmem)
  exact hdistinct other (List.mem_of_mem_filter hother) heq.symm

/-- A busy entry stays in the sum. -/
theorem Shortest.skip (h : Shortest busy limit (carried + entry.size) rest evicted)
    (hbusy : busy entry.dataset) (hdistinct : ∀ other ∈ rest, entry.dataset ≠ other.dataset) :
    Shortest busy limit carried (entry :: rest) evicted := by
  have hsum : ∀ front, front <+: evicted → carried + sizeOf (remaining (entry :: rest) front) =
      carried + entry.size + sizeOf (remaining rest front) := by
    intro front hfront
    have hnot := not_mem_of_prefix_evictable (hfront.trans h.oldest) hdistinct
    rw [remaining_cons_of_not_mem hnot, sizeOf_cons, Int.add_assoc]
  refine ⟨?_, fun front id hfront => ?_, ?_⟩
  · rw [evictable, List.filter_cons_of_neg (by simpa using hbusy)]
    exact h.oldest
  · rw [hsum front ((List.prefix_append _ _).trans hfront)]
    exact h.needed front id hfront
  · rw [hsum evicted List.prefix_rfl]
    refine h.enough.imp id fun hall other hother => ?_
    rw [remaining_cons_of_not_mem (not_mem_of_prefix_evictable h.oldest hdistinct)] at hother
    exact (List.mem_cons.1 hother).elim (fun heq => heq ▸ hbusy) (hall other)

/-- An entry that is evicted leaves the sum. -/
theorem Shortest.evict (h : Shortest busy limit carried rest evicted)
    (hbusy : ¬ busy entry.dataset) (hdistinct : ∀ other ∈ rest, entry.dataset ≠ other.dataset)
    (hexceeds : limit < carried + sizeOf (entry :: rest)) :
    Shortest busy limit carried (entry :: rest) (entry.dataset :: evicted) := by
  refine ⟨?_, fun front id hfront => ?_, ?_⟩
  · rw [evictable, List.filter_cons_of_pos (by simpa using hbusy)]
    exact List.cons_prefix_cons.2 ⟨rfl, h.oldest⟩
  · cases front with
    | nil =>
      rw [remaining_nil]
      exact hexceeds
    | cons first front =>
      obtain ⟨rfl, htail⟩ := List.cons_prefix_cons.1 hfront
      rw [remaining_cons_cons hdistinct]
      exact h.needed front id htail
  · rw [remaining_cons_cons hdistinct]
    exact h.enough

end Shortest

/-! ### The loop -/

/-- Nobody else holds the lock of the data set when it may be evicted, and it has a marker. -/
structure Waiting (root : Path) (n : Nat) (w : World) (id : Int) : Prop where
  marked : ¬ Unmarked root id w.disk
  free : (n, id) ∉ w.flights → (root, id) ∉ w.locks

theorem Waiting.of_evicted (h : Waiting root n w id) (hevicted : Evicted ε root stored w evicted w')
    (hid : id ∉ evicted) : Waiting root n w' id where
  marked := fun hunmarked => h.marked fun bytes hread =>
    hunmarked bytes ((hevicted.alike.marker id hid bytes).2 hread)
  free := by
    obtain ⟨disk, trace, rfl⟩ := hevicted.others
    exact h.free

/-- **The loop evicts the shortest beginning.** -/
theorem exec_pruneFrom (limit carried : Int) (hroot : root.WellFormed)
    (hdistinct : entries.Pairwise fun a b => a.dataset ≠ b.dataset)
    (h : Run ε root w.disk stored) (hv : w.verdicts = [])
    (hwaiting : ∀ entry ∈ entries, Waiting root n w entry.dataset) :
    ∃ evicted w', ((opened root n).pruneFrom limit (carried + sizeOf entries) entries).exec w =
        (some (.ok evicted), w') ∧ Evicted ε root stored w evicted w' ∧
      Shortest (fun id => (n, id) ∈ w.flights) limit carried entries evicted := by
  -- what has been passed by is carried along in the sum
  induction entries generalizing carried w with
  | nil => exact ⟨[], w, rfl, evicted_nil hroot h, shortest_nil (.inr rfl)⟩
  | cons entry rest ih =>
    obtain ⟨hothers, hrest⟩ := List.pairwise_cons.1 hdistinct
    obtain ⟨hfirst, hwaiting⟩ := List.forall_mem_cons.1 hwaiting
    unfold pruneFrom
    by_cases hlimit : carried + sizeOf (entry :: rest) ≤ limit
    · rw [if_pos hlimit]
      exact ⟨[], w, rfl, evicted_nil hroot h, shortest_nil (.inl hlimit)⟩
    · rw [if_neg hlimit, exec_bind]
      unfold inFlight
      rw [exec_look]
      dsimp only
      have hsum : carried + sizeOf (entry :: rest) = carried + entry.size + sizeOf rest := by
        rw [sizeOf_cons, Int.add_assoc]
      by_cases hbusy : (n, entry.dataset) ∈ w.flights
      · rw [if_pos (decide_eq_true hbusy), hsum]
        obtain ⟨evicted, w', hexec, hevicted, hshortest⟩ := ih _ hrest h hv hwaiting
        exact ⟨evicted, w', hexec, hevicted, hshortest.skip hbusy hothers⟩
      · have hdiff : carried + sizeOf (entry :: rest) - entry.size = carried + sizeOf rest := by
          rw [sizeOf_cons]
          omega
        rw [if_neg (by simpa using hbusy), hdiff]
        obtain ⟨w₁, hexec₁, hevicted₁⟩ :=
          exec_evict_of_marked (n := n) hroot h hv hfirst.marked (hfirst.free hbusy)
        obtain ⟨disk, trace, hw₁⟩ := hevicted₁.others
        have hwaiting₁ : ∀ other ∈ rest, Waiting root n w₁ other.dataset := fun other hother =>
          (hwaiting other hother).of_evicted hevicted₁
            (by simpa using (hothers other hother).symm)
        obtain ⟨evicted, w', hexec, hevicted, hshortest⟩ :=
          ih carried hrest hevicted₁.run (by rw [hw₁]; exact hv) hwaiting₁
        refine ⟨entry.dataset :: evicted, w', ?_, hevicted₁.trans hevicted, ?_⟩
        · rw [exec_bind, hexec₁]
          dsimp only
          rw [if_pos rfl, exec_bind, hexec]
          rfl
        · rw [hw₁] at hshortest
          exact hshortest.evict hbusy hothers (by omega)

/-! ### Pruning -/

/-- Nothing stands in the way of pruning: no file operation fails, the directory can be looked at,
    and nobody else holds the lock of a data set with a marker and without an open flight. -/
structure Unhindered (root : Path) (n : Nat) (w : World) : Prop where
  undisturbed : w.verdicts = []
  there : ∃ there, w.disk.present root = .ok there
  free : ∀ id, ¬ Unmarked root id w.disk → (n, id) ∉ w.flights → (root, id) ∉ w.locks

/-- What pruning has made of the world `w` with the given entries when it tells what it has
    evicted. -/
structure Pruned (root : Path) (n : Nat) (limit : Int) (w : World) (entries : List Entry)
    (evicted : List Int) (w' : World) : Prop where
  /-- Evicted are the oldest entries but for those with an open flight. -/
  oldest : evicted <+: evictable (fun id => (n, id) ∈ w.flights) entries
  /-- Each one was evicted when the entries that remained exceeded the limit. -/
  needed : ∀ front id, front ++ [id] <+: evicted → limit < sizeOf (remaining entries front)
  /-- Now the entries that remain are within the limit, or all of them have an open flight. -/
  enough : sizeOf (remaining entries evicted) ≤ limit ∨
    ∀ entry ∈ remaining entries evicted, (n, entry.dataset) ∈ w.flights
  /-- When the limit was kept already, nothing is evicted. -/
  unneeded : sizeOf entries ≤ limit → evicted = []
  /-- The files of what is evicted are gone. -/
  gone : ∀ id ∈ evicted, Gone root id w'.disk
  /-- All other entries have their bytes. -/
  kept : ∀ id ∉ evicted, ∀ data,
    Valid (opened root n) w'.disk id data ↔ Valid (opened root n) w.disk id data
  /-- The entries that remain are listed as before. -/
  listed : ((opened root n).entries.exec w').1 = some (.ok (remaining entries evicted))
  total : ((opened root n).total.exec w').1 = some (.ok (sizeOf (remaining entries evicted)))
  /-- Nothing else happens but notices. -/
  others : ∃ disk trace, w' = { w with disk, trace }

theorem waiting_of_listed (h : Consistent root stored w.disk) (hw : Unhindered root n w)
    (hentry : entry ∈ (opened root n).listing w.disk) : Waiting root n w entry.dataset := by
  obtain ⟨id, data, moment, hm, -, rfl⟩ := (mem_listing_iff h entry).1 hentry
  obtain ⟨bytes, hread, -⟩ := exists_read_of_markerAt hm
  have hmarked : ¬ Unmarked root id w.disk := fun hunmarked => hunmarked bytes hread
  exact ⟨hmarked, hw.free id hmarked⟩

/-- **What pruning evicts.** After any run, when nothing stands in its way, pruning ends. It has
    evicted the shortest beginning of the listing, apart from the data sets with an open flight,
    that brings the sum of the sizes down to the limit; all other entries are still there. -/
theorem pruned_of_run (hroot : root.WellFormed) (h : Run ε root w.disk stored)
    (hw : Unhindered root n w) (hlimit : 0 ≤ limit) :
    ∃ entries evicted w', ((opened root n).entries.exec w).1 = some (.ok entries) ∧
      Ordered entries ∧ ((opened root n).prune limit).exec w = (some (.ok evicted), w') ∧
      Pruned root n limit w entries evicted w' := by
  have hconsistent := h.consistent hroot
  obtain ⟨there, hthere⟩ := hw.there
  obtain ⟨trace, hentries, -⟩ := gives_entries (n := n) hconsistent hthere w rfl hw.undisturbed
  have hordered := ordered_listing (n := n) hroot h
  have hwaiting : ∀ entry ∈ (opened root n).listing w.disk,
      Waiting root n { w with trace } entry.dataset := by
    intro entry hentry
    obtain ⟨hmarked, hfree⟩ := waiting_of_listed hconsistent hw hentry
    exact ⟨hmarked, hfree⟩
  obtain ⟨evicted, w', hexec, hevicted, hshortest⟩ := exec_pruneFrom (n := n) limit 0
    (w := { w with trace }) hroot (hordered.imp And.right) h hw.undisturbed hwaiting
  obtain ⟨oldest, needed, enough⟩ := hshortest
  simp only [Int.zero_add] at hexec needed enough
  obtain ⟨disk, trace', rfl⟩ := hevicted.others
  -- the listing is told again by what is left on the disk
  have hthere' : disk.present root = .ok there := by
    rw [← hthere, Disk.present, Disk.present, hevicted.look]
  have hlisting := listing_eq_remaining (n := n) hroot h hevicted.run hevicted.alike
    fun id hid => (hevicted.gone id hid).unmarked
  have hlisted := gives_entries (n := n) (hevicted.run.consistent hroot) hthere'
  rw [hlisting] at hlisted
  refine ⟨(opened root n).listing w.disk, evicted, { w with disk, trace := trace' }, ?_, hordered,
    ?_, ?_⟩
  · rw [hentries]
  · unfold prune
    rw [if_neg (Int.not_lt.2 hlimit), exec_bind, hentries]
    exact hexec
  · exact {
      oldest := oldest
      needed := needed
      enough := enough
      unneeded := by
        intro hkept
        cases evicted with
        | nil => rfl
        | cons first rest =>
          have hexceeds := needed [] first (List.cons_prefix_cons.2 ⟨rfl, List.nil_prefix⟩)
          rw [remaining_nil] at hexceeds
          omega
      gone := hevicted.gone
      kept := fun id hid data => hevicted.alike.valid_iff hid
      listed := hlisted.outcome rfl hw.undisturbed
      total := (gives_total hlisted).outcome rfl hw.undisturbed
      others := ⟨disk, trace', rfl⟩ }

/-- Two artifacts of three bytes are stored. -/
theorem exists_two_stored : ∃ d : Disk,
    Run Empty (.ofText "cache") d [(2, ⟨#[4, 5, 6]⟩), (1, ⟨#[1, 2, 3]⟩)] ∧
      d.present (.ofText "cache") = .ok true ∧
      d.read ((opened (.ofText "cache") 0).dataPath 2) = .ok ⟨#[4, 5, 6]⟩ ∧
      (d.read ((opened (.ofText "cache") 0).markerPath 2)).toOption.isSome = true := by
  let first : Command Empty := .get ⟨1, none, none, pure (.bytes ⟨#[1, 2, 3]⟩)⟩
  let second : Command Empty := .get ⟨2, none, none, pure (.bytes ⟨#[4, 5, 6]⟩)⟩
  have hstart : Run Empty (.ofText "cache") ({} : World).disk [] := .start (by decide +kernel)
  have hfirst := hstart.call 0 [] first fun _ => rfl
  have hsecond := hfirst.call 0 [] second fun _ => rfl
  have hstored : first.stores (opened (.ofText "cache") 0) {} = [(1, ⟨#[1, 2, 3]⟩)] ∧
      second.stores (opened (.ofText "cache") 0)
        { first.after (opened (.ofText "cache") 0) {} with verdicts := [] } =
          [(2, ⟨#[4, 5, 6]⟩)] := by
    decide +kernel
  rw [hstored.1, hstored.2] at hsecond
  refine ⟨_, hsecond, ?_, ?_, ?_⟩
  · decide +kernel
  · decide +kernel
  · decide +kernel

/-- While the older entry is being fetched again, the other one is evicted in its place. -/
theorem pruned_beside_open_flight : ∃ w w' : World, ∃ evicted,
    Run Empty (.ofText "cache") w.disk [(2, ⟨#[4, 5, 6]⟩), (1, ⟨#[1, 2, 3]⟩)] ∧
      w.flights = [(0, 1)] ∧ w.locks = [(.ofText "cache", 1)] ∧
      ((opened (.ofText "cache") 0).prune 0).exec w = (some (.ok evicted), w') ∧
      1 ∉ evicted ∧ 2 ∈ evicted := by
  obtain ⟨d, hrun, hthere, hdata, hmarker⟩ := exists_two_stored
  have hroot := Path.wellFormed_ofText "cache"
  have hconsistent := hrun.consistent hroot
  let w : World := { disk := d, flights := [(0, 1)], locks := [(.ofText "cache", 1)] }
  have hunhindered : Unhindered (.ofText "cache") 0 w := ⟨rfl, ⟨true, hthere⟩, by simp [w]⟩
  obtain ⟨entries, evicted, w', hentries, -, hprune, hpruned⟩ :=
    pruned_of_run hroot (w := w) hrun hunhindered (Int.le_refl 0)
  refine ⟨w, w', evicted, hrun, rfl, rfl, hprune, ?_, ?_⟩
  · intro hmem
    obtain ⟨entry, hentry, hid⟩ := List.mem_map.1 (hpruned.oldest.subset hmem)
    simp [w, hid] at hentry
  · -- it is listed without an open flight, and its size is positive
    by_contra hnot
    obtain ⟨bytes, hbytes⟩ := Option.isSome_iff_exists.1 hmarker
    have hshort : ∀ data, d.read ((opened (.ofText "cache") 0).dataPath 2) = .ok data →
        data.size < 10 ^ Numeral.digitLimit := by
      intro data hread
      obtain rfl := Except.ok.inj (hread.symm.trans hdata)
      decide +kernel
    obtain ⟨data, moment, hread, hm⟩ :=
      exists_markerAt_of_read hconsistent (toOption_eq_some_iff.1 hbytes) hshort
    obtain rfl := Except.ok.inj (hread.symm.trans hdata)
    obtain rfl := eq_listing hconsistent (w := w) rfl rfl hentries
    have hlisted := (mem_listing_iff (n := 0) hconsistent _).2 ⟨2, _, moment, hm, hdata, rfl⟩
    have hleft := mem_remaining.2 ⟨hlisted, hnot⟩
    have hlimit := hpruned.enough.resolve_right fun hall => by simpa [w] using hall _ hleft
    have hle := size_le_sizeOf (fun other hother =>
      size_nonneg_of_mem_listing hconsistent (mem_remaining.1 hother).1) hleft
    exact absurd (hle.trans hlimit) (by decide : ¬ (3 : Int) ≤ 0)

end DatasetCatalog.Cache
