import DatasetCatalog.Proofs.Cache.Alike
import DatasetCatalog.Proofs.Cache.Consistency
import DatasetCatalog.Proofs.Local

/-! # Entries that are kept

  A valid entry whose lock can be opened is found without a fetch, by every caller that nothing
  stands in the way of. It is kept by everything that is done for other data sets, and by pruning
  as long as it is not evicted.
-/

namespace DatasetCatalog.Cache

open DatasetCatalog.Action DatasetCatalog.Disk DatasetCatalog.Path

variable {ε : Type} {root : Path} {n : Nat} {id : Int} {data : ByteArray} {changed : Int → Prop}
  {d d' : Disk} {w : World}

/-- Nothing stands in the way of a caller: no file operation fails, nobody holds the lock of the
    data set, and no other caller is on its way to fetch the artifact. -/
structure Ready (c : Cache) (id : Int) (w : World) : Prop where
  undisturbed : w.verdicts = []
  unlocked : (c.root, id) ∉ w.locks
  landed : (c.number, id) ∉ w.flights

/-- The data is there as a valid entry, and its lock can be opened. -/
structure Kept (root : Path) (id : Int) (data : ByteArray) (d : Disk) : Prop where
  valid : Valid (opened root 0) d id data
  lock : (opened root 0).lockFile id d = .ok ()

/-! ### Hits -/

/-- A lock that can be opened is taken, unless it is held. -/
theorem exec_takeLock (hlock : (opened root 0).lockFile id w.disk = .ok ())
    (hv : w.verdicts = []) :
    ∃ trace, trace.requests = w.trace.requests ∧ ((opened root n).takeLock id).exec w =
      if (root, id) ∈ w.locks then (some (.error .busy), { w with trace })
      else (some (.ok ()), { w with trace, locks := (root, id) :: w.locks }) := by
  rw [← lockFile_opened root n] at hlock
  have hmake : Gives w.disk (makeDirectories (opened root n).lockRoot) (.ok ()) :=
    gives_makeDirectories_there (isDirectory_of_lockFile hlock)
  have hfile : Gives w.disk (inspect ((opened root n).lockFile id))
      ((opened root n).lockFile id w.disk) := gives_inspect _
  rw [hlock] at hfile
  obtain ⟨trace, hexec, hrequests⟩ := (hmake.mapError (f := LockFault.file)) w rfl hv
  obtain ⟨trace', hexec', hrequests'⟩ :=
    (hfile.mapError (f := LockFault.file)) { w with trace } rfl hv
  refine ⟨trace', hrequests'.trans hrequests, ?_⟩
  unfold takeLock
  rw [exec_bind, hexec]
  dsimp only [Except.mapError]
  rw [exec_bind, hexec']
  dsimp only [Except.mapError]
  rw [exec_bind, exec_look]
  by_cases hheld : (root, id) ∈ w.locks
  · rw [if_pos hheld, decide_eq_true hheld]
    dsimp only
    rw [if_pos rfl]
    rfl
  · rw [if_neg hheld, decide_eq_false hheld]
    dsimp only
    rw [if_neg Bool.false_ne_true]
    rfl

/-- The entry is found, unless the lock is held. -/
theorem exec_probe_of_kept (h : Kept root id data w.disk) (hv : w.verdicts = []) :
    ∃ r trace, ((opened root n).probe id).exec w = (some r, { w with trace }) ∧
      trace.requests = w.trace.requests ∧ r ≠ .ok none ∧
      ((root, id) ∉ w.locks → ∃ a, r = .ok (some a) ∧ a.data = data) := by
  obtain ⟨trace, hrequests, hexec⟩ := exec_takeLock (n := n) h.lock hv
  unfold probe
  rw [exec_bind, exec_mapError, hexec]
  by_cases hheld : (root, id) ∈ w.locks
  · rw [if_pos hheld]
    exact ⟨_, trace, rfl, hrequests, nofun, fun hfree => absurd hheld hfree⟩
  · obtain ⟨format, hgives⟩ := gives_readEntry_of_valid (c := opened root n) h.valid
    obtain ⟨trace', hexec', hrequests'⟩ :=
      hgives { w with trace, locks := (root, id) :: w.locks } rfl hv
    refine ⟨.ok (some ⟨id, data, format, (opened root n).dataPath id⟩), trace', ?_,
      hrequests'.trans hrequests, nofun, fun _ => ⟨_, rfl, rfl⟩⟩
    rw [if_neg hheld]
    dsimp only
    rw [exec_bind, exec_attempt, hexec']
    dsimp only
    unfold releaseLock
    rw [exec_bind, exec_change]
    dsimp only
    rw [List.erase_cons_head]
    rfl

/-- **An entry that is kept is found without a fetch**, when nobody has to be waited for and the
    lock is free. In any case nothing else happens but notices, as long as no file operation
    fails. -/
theorem exec_getOrFetch_of_kept (h : Kept root id data w.disk) (hv : w.verdicts = [])
    (expected : Option String) (timeout : Option Number) (fetch : Action Empty (Fetched ε)) :
    ∃ r trace, ((opened root n).getOrFetch id expected timeout fetch).exec w =
        (r, { w with trace }) ∧ trace.requests = w.trace.requests ∧
      (Ready (opened root n) id w → ∃ a, r = some (.ok a) ∧ a.data = data) := by
  rw [exec_getOrFetch_eq (opened root n) ⟨id, expected, timeout, fetch⟩ w, exec_begin]
  by_cases hflight : (n, id) ∈ w.flights
  · rw [if_pos hflight]
    cases timeout with
    | some seconds => exact ⟨_, w.trace, rfl, rfl, fun hready => absurd hflight hready.landed⟩
    | none => exact ⟨_, w.trace, rfl, rfl, fun hready => absurd hflight hready.landed⟩
  · rw [if_neg hflight]
    obtain ⟨r, trace, hexec, hrequests, hsome, hfound⟩ := exec_probe_of_kept (n := n)
      (w := { w with flights := (n, id) :: w.flights }) h hv
    -- the caller departs and lands again, so that the flights are as before
    have hdepart : ((opened root n).depart id : Action (GetError ε) _).exec w =
        (some (r.mapError ((opened root n).settle id)), { w with trace }) := by
      unfold depart
      rw [exec_bind, exec_change]
      dsimp only
      rw [exec_bind, exec_attempt, hexec]
      unfold land
      rcases r with e | _ | a
      · dsimp only
        rw [exec_bind, exec_change]
        dsimp only
        rw [List.erase_cons_head]
        rfl
      · exact absurd rfl hsome
      · dsimp only
        rw [exec_bind, exec_change]
        dsimp only
        rw [List.erase_cons_head]
        rfl
    rw [hdepart]
    rcases r with e | _ | a
    · exact ⟨_, trace, rfl, hrequests,
        fun hready => absurd (hfound hready.unlocked).choose_spec.1 nofun⟩
    · exact absurd rfl hsome
    · refine ⟨_, trace, rfl, hrequests, fun hready => ⟨a, rfl, ?_⟩⟩
      obtain ⟨found, heq, hdata⟩ := hfound hready.unlocked
      obtain rfl := Option.some.inj (Except.ok.inj heq)
      exact hdata

/-! ### What keeps an entry -/

/-- An entry is kept by what changes other data sets only. -/
theorem Kept.of_alike (h : Kept root id data d) (halike : Alike root changed d d')
    (hid : ¬ changed id) : Kept root id data d' where
  valid := (halike.valid_iff hid).2 h.valid
  lock := ((halike.locks (isDirectory_of_lockFile h.lock)).2 id).trans h.lock

theorem Kept.of_untouched (h : Kept root id data d) (halike : Alike root changed d d')
    (huntouched : Untouched root id d d') : Kept root id data d' where
  valid := huntouched.valid_iff.2 h.valid
  lock := ((halike.locks (isDirectory_of_lockFile h.lock)).2 id).trans h.lock

theorem Unmarked.of_agree (h : Unmarked root id d)
    (hagree : Agree (root.child (markerName id)) d d') : Unmarked root id d' :=
  fun bytes hread => h bytes ((hagree bytes).1 hread)

/-- The entry is kept, or its marker is gone. -/
structure KeptOrEvicted (root : Path) (id : Int) (data : ByteArray) (d : Disk) : Prop where
  grounded : Grounded root d
  either : Kept root id data d ∨ Unmarked root id d

theorem Kept.orEvicted (h : Kept root id data d) : KeptOrEvicted root id data d :=
  ⟨grounded_of_lockFile h.lock, .inl h⟩

/-- An eviction takes the marker away, or nothing. -/
theorem KeptOrEvicted.of_evicted {evicted : Int} (h : KeptOrEvicted root id data d)
    (halike : Alike root (· = evicted) d d') (hleft : Left root evicted d d') :
    KeptOrEvicted root id data d' := by
  refine ⟨halike.grounded, ?_⟩
  by_cases hid : id = evicted
  · subst hid
    obtain huntouched | hunmarked := hleft
    · exact h.either.imp (fun hkept => hkept.of_untouched halike huntouched)
        fun hunmarked => hunmarked.of_agree huntouched.1
    · exact .inr hunmarked
  · exact h.either.imp (fun hkept => hkept.of_alike halike hid)
      fun hunmarked => hunmarked.of_agree (halike.marker id hid)

theorem keeps_evict_keptOrEvicted (hroot : root.WellFormed) (name : DatasetName) :
    Keeps (KeptOrEvicted root id data) ((opened root n).evict name) := by
  refine Triple.of_forall fun d₀ h => ?_
  refine Triple.consequence (P := Same root d₀) (triple_evict_alike hroot name) ?_ ?_ ?_
  · rintro _ rfl
    exact alike_refl h.grounded
  · exact fun _ d hd => h.of_evicted hd.1 hd.2
  · exact fun d hd => h.of_evicted hd.1 hd.2

namespace Command

/-- The call is for another data set, or it gets the artifact and no file operation fails, or it
    prunes and does not evict the entry. -/
def Spares (c : Cache) (id : Int) (w : World) : Command ε → Prop
  | get r => r.dataset ≠ id ∧ (get r).Undisturbed ∨ r.dataset = id ∧ w.verdicts = []
  | evict name => name.id ≠ id
  | prune limit => ¬ Unmarked c.root id ((prune limit : Command ε).after c w).disk
  | clear => False

end Command

/-- **An entry is kept by calls that spare it**, whatever becomes of their file operations. -/
theorem Kept.after_command (hroot : root.WellFormed) (h : Kept root id data w.disk)
    {command : Command ε} (hspares : command.Spares (opened root n) id w) :
    Kept root id data (command.after (opened root n) w).disk := by
  have hsame : Same root w.disk w.disk := alike_refl (grounded_of_lockFile h.lock)
  cases command with
  | get r =>
    obtain ⟨hother, hfetch⟩ | ⟨rfl, hv⟩ := hspares
    · have halike := (triple_getOrFetch_alike (n := n) hroot r.dataset r.expected r.timeout
        hfetch).disk hsame
      exact h.of_alike halike hother.symm
    · obtain ⟨result, trace, hexec, -⟩ :=
        exec_getOrFetch_of_kept (n := n) h hv r.expected r.timeout r.fetch
      unfold Command.after
      dsimp only
      rwa [hexec]
  | evict name =>
    have halike := ((triple_evict_alike (n := n) hroot name).disk hsame).1
    exact h.of_alike halike (Ne.symm hspares)
  | prune limit =>
    have hprune : Keeps (KeptOrEvicted root id data) ((opened root n).prune limit) :=
      keeps_prune (keeps_evict_keptOrEvicted hroot) limit
    have hafter := hprune.disk h.orEvicted
    exact hafter.either.resolve_right hspares
  | clear => exact absurd hspares not_false

end DatasetCatalog.Cache
