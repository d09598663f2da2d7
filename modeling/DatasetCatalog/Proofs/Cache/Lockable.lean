import DatasetCatalog.Proofs.Cache.Kept
import DatasetCatalog.Proofs.Cache.Stocked

/-! # Locks of stored entries

  A marker is put into place under the lock of its data set, so the lock could be opened then. No
  call removes the directory of the locks or puts anything into it, so after any run the lock of a
  data set with a marker can be opened.
-/

namespace DatasetCatalog.Cache

open DatasetCatalog.Action DatasetCatalog.Disk DatasetCatalog.Path

variable {ε : Type} {root : Path} {n : Nat} {id : Int} {stored : History} {changed : Int → Prop}
  {d d' : Disk}

/-- The lock of a data set with a marker can be opened. -/
structure Lockable (root : Path) (d : Disk) : Prop where
  /-- There are no files without the directory. -/
  grounded : Grounded root d
  lock : ∀ id, ¬ Unmarked root id d → (opened root 0).lockFile id d = .ok ()

/-- Locks that could be opened can still be opened. -/
theorem lockable_of_alike (halike : Alike root changed d d')
    (hlock : ∀ id, ¬ Unmarked root id d' → (opened root 0).lockFile id d = .ok ()) :
    Lockable root d' where
  grounded := halike.grounded
  lock := by
    intro id hmarked
    have hlock := hlock id hmarked
    exact ((halike.locks (isDirectory_of_lockFile hlock)).2 id).trans hlock

theorem Lockable.of_same (h : Lockable root d) (hsame : Same root d d') : Lockable root d' :=
  lockable_of_alike hsame fun id hmarked =>
    h.lock id fun hunmarked => hmarked (hunmarked.of_agree (hsame.marker id not_false))

/-- A call for a data set that does not store leaves no new marker. -/
theorem Lockable.of_left (h : Lockable root d)
    (hleft : Alike root (· = id) d d' ∧ Left root id d d') : Lockable root d' := by
  obtain ⟨halike, hleft⟩ := hleft
  refine lockable_of_alike halike fun other hmarked => h.lock other fun hunmarked => hmarked ?_
  by_cases hother : other = id
  · subst hother
    exact hleft.elim (fun huntouched => hunmarked.of_agree huntouched.1) fun hgone => hgone
  · exact hunmarked.of_agree (halike.marker other hother)

/-! ### Calls -/

theorem keeps_evict_lockable (hroot : root.WellFormed) (name : DatasetName) :
    Keeps (Lockable root) ((opened root n).evict name) := by
  refine Triple.of_forall fun d h => ?_
  refine Triple.consequence (P := Same root d) (triple_evict_alike hroot name) ?_ ?_ ?_
  · rintro _ rfl
    exact alike_refl h.grounded
  · exact fun _ _ hd => h.of_left hd
  · exact fun _ hd => h.of_left hd

theorem keeps_removePart_lockable {name : String} (hname : IsEntryName name)
    (hpart : EndsIn 't' name) : Keeps (Lockable root) (removeIfPresent (root.child name)) := by
  refine Triple.of_forall fun d h => ?_
  have hremove : Keeps (fun d' => Same root d d' ∧ True) (removeIfPresent (root.child name)) :=
    keeps_removeIfPresent_alike (spares_part hname hpart) fun _ _ _ _ => trivial
  refine hremove.consequence ?_ ?_ ?_
  · rintro _ rfl
    exact ⟨alike_refl h.grounded, trivial⟩
  · exact fun _ _ hd => h.of_same hd.1
  · exact fun _ hd => h.of_same hd.1

/-- A marker is only put into place where the lock could be opened. -/
theorem keeps_complete_lockable (hroot : root.WellFormed) (id : Int) (expected : Option String)
    (fetched : Fetched ε) :
    Triple (fun d => Lockable root d ∧ (opened root 0).lockFile id d = .ok ())
      ((opened root n).complete id expected fetched) (fun _ => Lockable root) (Lockable root) := by
  refine Triple.of_forall fun d hd => ?_
  obtain ⟨h, hlock⟩ := hd
  refine Triple.consequence (P := Same root d) (triple_complete_alike hroot id expected fetched)
    ?_ ?_ ?_
  · rintro _ rfl
    exact alike_refl h.grounded
  · rintro a d' ⟨-, halike, -⟩
    refine lockable_of_alike halike fun other hmarked => ?_
    by_cases hother : other = id
    · exact hother ▸ hlock
    · exact h.lock other fun hunmarked =>
        hmarked (hunmarked.of_agree (halike.marker other hother))
  · exact fun _ hd => h.of_left hd

theorem keeps_getOrFetch_lockable (hroot : root.WellFormed) (r : Request ε)
    (hfetch : ∀ w, (r.fetch.exec w).2.disk = w.disk) :
    Keeps (Lockable root)
      ((opened root n).getOrFetch r.dataset r.expected r.timeout r.fetch) := by
  have hmake : Keeps (Lockable root) (makeDirectories (locksOf root)) := by
    refine Triple.of_forall fun d h => ?_
    have hsame : Keeps (Same root d) (makeDirectories (locksOf root)) :=
      keeps_makeDirectories_alike (wellFormed_locksOf hroot) fun _ h => h
    refine hsame.consequence ?_ (fun _ _ => h.of_same) fun _ => h.of_same
    rintro _ rfl
    exact alike_refl h.grounded
  have hbegin := (triple_begin_valid (ε := ε) (n := n) hmake r.dataset r.timeout).mono
    fun _ _ hd => hd.1
  unfold getOrFetch
  refine hbegin.bind fun found => ?_
  cases found with
  | some a => exact triple_pure fun _ hd => hd.1
  | none =>
    refine (Triple.mapError ?_).bind fun fetched =>
      keeps_complete_lockable hroot r.dataset r.expected fetched
    exact (keeps_of_disk_eq hfetch).weaken fun _ hd => hd.1

/-- **After any run the lock of a data set with a marker can be opened.** -/
theorem lockable_of_run (hroot : root.WellFormed) (h : Run ε root d stored) : Lockable root d := by
  have hevict : ∀ n name, Keeps (fun d => Stocked root d ∧ Lockable root d)
      ((opened root n).evict name) := fun n name =>
    keeps_and ((stable_stocked hroot).keeps_evict name) (keeps_evict_lockable hroot name)
  have hall : Stocked root d ∧ Lockable root d := by
    induction h with
    | start empty =>
      refine ⟨stocked_of_empty empty, grounded_of_empty empty, fun id hmarked => ?_⟩
      refine absurd (fun bytes hread => ?_) hmarked
      have hfile := ((read_child_eq_ok_iff (isEntryName_markerName id)).1 hread).2.2
      rw [file?_of_empty empty] at hfile
      exact absurd hfile nofun
    | @step d stored run number w same command undisturbed ih =>
      subst same
      cases command with
      | get r =>
        exact (keeps_and
          ((stable_stocked hroot).keeps_getOrFetch r.dataset r.expected r.timeout undisturbed)
          (keeps_getOrFetch_lockable hroot r undisturbed)).disk ih
      | evict name => exact (hevict number name).disk ih
      | prune limit => exact (keeps_prune (hevict number) limit).disk ih
      | clear =>
        have hremove : ∀ name, IsEntryName name → EndsIn 't' name →
            Keeps (fun d => Stocked root d ∧ Lockable root d)
              (removeIfPresent (root.child name)) := fun name hname hpart =>
          keeps_and ((stable_stocked hroot).keeps_removeIfPresent hname)
            (keeps_removePart_lockable hname hpart)
        exact (keeps_clear_of (hevict number) (fun _ _ hd => hd.1.names _) hremove).disk ih
  exact hall.2

end DatasetCatalog.Cache
