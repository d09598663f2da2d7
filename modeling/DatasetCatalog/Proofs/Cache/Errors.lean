import DatasetCatalog.Proofs.Cache.Clear
import DatasetCatalog.Proofs.Ending

/-! # How calls for single data sets end

  A cache takes its files as it finds them, and other programs may have changed them. Reading a
  single entry checks whatever a marker holds, so nothing that stands there makes a call for a
  single data set fail: evicting and getting end with storage errors at most, and so does asking
  for an entry whose data has a name that the disk takes.
-/

namespace DatasetCatalog.Cache

open DatasetCatalog.Action DatasetCatalog.Path

variable {ε : Type} {root : Path} {n : Nat} {c : Cache} {id : Int} {d : Disk} {m : Marker}

/-! ### Storage errors -/

/-- The error is a storage error. -/
def CacheError.IsStorage : CacheError → Prop
  | .storage _ => True
  | _ => False

/-- The error is a storage error, or the digest is not the one that was announced. -/
def GetError.IsAllowed (expected : Option String) : GetError ε → Prop
  | .storage _ => True
  | .fetch (.checksum m) => expected = some m.expected
  | _ => False

theorem isAllowed_settle {expected : Option String} {e : CacheError} (h : e.IsStorage) :
    (c.settle id e : GetError ε).IsAllowed expected := by
  cases e with
  | storage e => trivial
  | file | size | negativeLimit => exact absurd h not_false

/-! ### Removing -/

theorem local_removeIfThere (p : Path) : Local (removeIfThere p) := by
  unfold removeIfThere
  refine (filing_inspect _).isLocal.bind fun there => ?_
  split
  · exact (filing_alter _).isLocal.bind fun _ => local_pure _
  · exact local_pure _

/-- An eviction fails with storage errors only. -/
theorem confined_evict (c : Cache) (name : DatasetName) :
    Confined CacheError.IsStorage (c.evict name) := by
  unfold evict
  refine ((local_takeLock c _).confined_mapError ?_).bind fun _ => ?_
  · intro fault
    cases fault <;> trivial
  · have hremoved : Local (do
        let marker ← removeIfThere (c.markerPath name.id)
        let data ← removeIfThere (c.dataPath name.id)
        return marker || data) :=
      (local_removeIfThere _).bind fun marker => (local_removeIfThere _).bind fun data =>
        local_pure _
    exact (hremoved.confined_mapError fun _ => trivial).finally (local_releaseLock c _)

theorem confined_pruneFrom (c : Cache) (limit total : Int) (entries : List Entry) :
    Confined CacheError.IsStorage (c.pruneFrom limit total entries) := by
  induction entries generalizing total with
  | nil => exact confined_pure _
  | cons entry rest ih =>
    unfold pruneFrom
    split
    · exact confined_pure _
    · refine (confined_look _).bind fun flying => ?_
      split
      · exact ih total
      · refine (confined_evict c _).bind fun removed => ?_
        split
        · exact (ih _).bind fun _ => confined_pure _
        · exact ih total

theorem confined_evictAll (c : Cache) (entries : List Entry) :
    Confined CacheError.IsStorage (c.evictAll entries) := by
  induction entries with
  | nil => exact confined_pure _
  | cons entry rest ih =>
    unfold evictAll
    exact (confined_evict c _).bind fun removed => ih.bind fun count => confined_pure _

theorem confined_sweepAll (c : Cache) (names : List String) :
    Confined CacheError.IsStorage (c.sweepAll names) := by
  induction names with
  | nil => exact confined_pure _
  | cons name rest ih =>
    unfold sweepAll
    exact ((filing_removeIfPresent _).isLocal.confined_mapError fun _ => trivial).bind fun _ => ih

/-! ### Single entries -/

theorem settles_readData (d : Disk) (path : Path) (m : Marker) :
    Settles d (fun _ => True) (readData path m) := by
  unfold readData
  refine (settles_inspect fun _ _ => trivial).bind fun there => ?_
  split
  · refine (settles_inspect fun _ _ => trivial).bind fun size => ?_
    split
    · exact (settles_inspect fun _ _ => trivial).bind fun bytes => settles_pure _
    · exact settles_pure _
  · exact settles_pure _

/-- Reading an entry fails with storage errors only, whatever its files hold, when the name of its
    data is not too long for the disk. -/
theorem settles_readEntry (hpresent : d.present (c.dataPath id) ≠ .error .refused) :
    Settles d CacheError.IsStorage (c.readEntry id) := by
  unfold readEntry
  refine (gives_readMarker d _).settles_ok.bind fun found => ?_
  cases found with
  | none =>
    -- the one look at the disk whose error is passed on as it is
    have hthere : Settles d (fun _ => False) (Action.present (c.dataPath id)) := by
      apply settles_inspect
      intro fault hfault
      obtain rfl := Disk.eq_refused_of_present hfault
      exact hpresent hfault
    refine (hthere.mapError fun _ => False.elim).bind fun there => ?_
    split
    · exact (settles_note _).bind fun _ => settles_pure none
    · exact settles_pure none
  | some m =>
    refine ((settles_readData d _ m).mapError fun _ _ => trivial).bind fun data => ?_
    cases data with
    | none => exact (settles_note _).bind fun _ => settles_pure none
    | some data =>
      dsimp only
      split
      · exact settles_pure _
      · exact (settles_note _).bind fun _ => settles_pure none

theorem settles_contains (hpresent : d.present (c.dataPath id) ≠ .error .refused) :
    Settles d CacheError.IsStorage (c.contains id) :=
  (settles_readEntry hpresent).bind fun _ => settles_pure _

/-- Whether something stands under a name in a directory can be told, unless the name is too
    long. -/
theorem exists_present_child {name : String} (hname : IsEntryName name)
    (hdir : d.isDirectory root = true) (hshort : name.utf8ByteSize ≤ Disk.longestName) :
    ∃ there, d.present (root.child name) = .ok there := by
  have hlook := Disk.look_child d root hname
  rw [Disk.isDirectory_eq_true_iff.1 hdir] at hlook
  simp only [if_neg (Nat.not_lt.2 hshort)] at hlook
  unfold Disk.present
  rw [hlook]
  cases d.child? root name with
  | none => exact ⟨false, rfl⟩
  | some node => exact ⟨true, rfl⟩

/-- A marker that can be read stands in a directory, under a name that is not too long. -/
theorem directory_of_markerAt (hm : markerAt d (root.child (markerName id)) = some m) :
    d.isDirectory root = true ∧ (markerName id).utf8ByteSize ≤ Disk.longestName := by
  obtain ⟨bytes, hread, -⟩ := exists_read_of_markerAt hm
  obtain ⟨hdir, hshort, -⟩ := (Disk.read_child_eq_ok_iff (isEntryName_markerName id)).1 hread
  exact ⟨hdir, hshort⟩

/-- The name of a marker is longer than that of its data. -/
theorem exists_present_dataName (hm : markerAt d (root.child (markerName id)) = some m) :
    ∃ there, d.present (root.child (dataName id)) = .ok there := by
  obtain ⟨hdir, hshort⟩ := directory_of_markerAt hm
  exact exists_present_child (isEntryName_dataName id) hdir ((size_dataName_le id).trans hshort)

/-- A name of data that is too long for the disk cannot be told from a disk that fails. -/
theorem gives_contains_of_refused
    (hrefused : d.present (root.child (dataName id)) = .error .refused) :
    Gives d ((opened root n).contains id) (.error (.file .refused)) := by
  have hmarker := gives_readMarker (ε := CacheError) d (root.child (markerName id))
  have hpresent : Gives d (Action.present (root.child (dataName id))) (.error .refused) :=
    hrefused ▸ gives_inspect _
  cases hm : markerAt d (root.child (markerName id)) with
  | some m =>
    obtain ⟨there, hthere⟩ := exists_present_dataName hm
    rw [hthere] at hrefused
    exact absurd hrefused nofun
  | none =>
    rw [hm] at hmarker
    have hentry : Gives d ((opened root n).readEntry id) (.error (.file .refused)) :=
      hmarker.bind hpresent.mapError.bind_error
    exact hentry.bind_error

/-! ### Getting -/

theorem fits_of_lockFile (h : c.lockFile id d = .ok ()) :
    (integerText id ++ ".lock").utf8ByteSize ≤ Disk.longestName := by
  unfold lockFile at h
  rcases hlook : d.lookToPut (c.lockRoot.child (integerText id ++ ".lock")) with fault | found
  · rw [hlook] at h
    exact absurd h nofun
  · exact Disk.fits_of_lookToPut (isEntryName_lock id) hlook

/-- Where the lock of a data set can be taken, the name of its data is not too long. -/
theorem present_of_lockFile (h : (opened root n).lockFile id d = .ok ()) :
    d.present (root.child (dataName id)) ≠ .error .refused := by
  have hlocks := isDirectory_of_lockFile h
  have hshort := fits_of_lockFile h
  -- both names end in five bytes behind the identifier
  have hsame : (dataName id).utf8ByteSize = (integerText id ++ ".lock").utf8ByteSize := by
    have hdot : ".".utf8ByteSize = 1 := by decide
    have harff : "arff".utf8ByteSize = 4 := by decide
    have hlock : ".lock".utf8ByteSize = 5 := by decide
    simp only [dataName, String.utf8ByteSize_append, hdot, harff, hlock]
  obtain ⟨there, hthere⟩ := exists_present_child (isEntryName_dataName id)
    (isDirectory_of_locks hlocks) (hsame.le.trans hshort)
  intro hrefused
  rw [hthere] at hrefused
  cases hrefused

/-- Behind a lock that is taken, the lock can still be opened. -/
theorem lockFile_of_takeLock {w next : World}
    (h : ((opened root n).takeLock id).exec w = (some (.ok ()), next)) :
    (opened root n).lockFile id next.disk = .ok () := by
  have hmake : Keeps (fun _ => True) (makeDirectories (locksOf root)) :=
    keeps_makeDirectories_of (C := fun _ => True) trivial (fun _ _ => trivial)
      fun _ _ _ _ _ _ => trivial
  have hlock := triple_takeLock (n := n) hmake id w trivial
  rw [h] at hlock
  exact (lockFile_opened root n id _).trans hlock.2

/-- Looking for an entry under its lock fails with storage errors only. -/
theorem finishes_probe {w : World} (hv : w.verdicts = []) :
    Finishes CacheError.IsStorage ((opened root n).probe id) w := by
  unfold probe
  refine Finishes.bind (((local_takeLock _ id).confined_mapError ?_).finishes hv)
    fun _ next hnext hv' => ?_
  · intro fault
    cases fault <;> trivial
  -- the lock has been taken, so the disk takes a name as long as that of the data
  have hpresent : next.disk.present ((opened root n).dataPath id) ≠ .error .refused :=
    present_of_lockFile (lockFile_of_takeLock (exec_of_mapError_ok hnext))
  refine ((settles_readEntry hpresent).finishes hv').attempt_bind fun r last hv'' herror => ?_
  rcases r with e | _ | artifact
  · exact ((confined_change (local_releaseLock _ id)).finishes hv'').bind fun _ _ _ hlast =>
      finishes_throw (herror e rfl) hlast
  · exact finishes_pure none hv''
  · exact ((confined_change (local_releaseLock _ id)).finishes hv'').bind fun _ _ _ hlast =>
      finishes_pure _ hlast

/-- Getting begins without a fault, or with a storage error. -/
theorem finishes_begin {expected : Option String} {timeout : Option Number} {w : World}
    (hflight : (n, id) ∉ w.flights) (hv : w.verdicts = []) :
    Finishes (GetError.IsAllowed expected)
      ((opened root n).begin id timeout : Action (GetError ε) _) w := by
  unfold Finishes
  rw [exec_begin, if_neg hflight]
  change Finishes _ (depart _ id) w
  unfold depart
  refine Finishes.bind ((confined_change ?_).finishes hv) fun _ next _ hv' => ?_
  · exact local_change (fun _ => rfl) fun _ => rfl
  refine (finishes_probe hv').attempt_bind fun r last hv'' herror => ?_
  rcases r with e | _ | artifact
  · exact ((confined_change (local_land _ id)).finishes hv'').bind fun _ _ _ hlast =>
      finishes_throw (isAllowed_settle (herror e rfl)) hlast
  · exact finishes_pure none hv''
  · exact ((confined_change (local_land _ id)).finishes hv'').bind fun _ _ _ hlast =>
      finishes_pure _ hlast

theorem confined_check (id : Int) (data : ByteArray) (expected : Option String) :
    Confined (GetError.IsAllowed expected) (check (ε := ε) id data expected) := by
  unfold check
  split
  · exact confined_pure _
  · exact confined_pure _
  · split
    · exact confined_pure _
    · next m hverify =>
      refine (confined_change (local_note _)).bind fun _ => confined_throw ?_
      unfold verify at hverify
      split at hverify
      · exact absurd hverify nofun
      · obtain rfl := Except.error.inj hverify
        rfl

/-- Bytes are stored, unless they are not what was announced or the disk refuses them. -/
theorem confined_complete (c : Cache) (id : Int) (expected : Option String) (data : ByteArray) :
    Confined (GetError.IsAllowed expected)
      (c.complete id expected (.bytes data) : Action (GetError ε) _) := by
  have hstore : Confined (GetError.IsAllowed expected)
      (c.store id expected (.bytes data) : Action (GetError ε) _) :=
    (confined_check id data expected).bind fun _ =>
      (filing_writeEntry c id data).isLocal.confined_mapError fun _ => trivial
  exact (hstore.finally (local_releaseLock c id)).finally (local_land c id)

/-- The fetch ends with bytes, when the process is not stopped before. -/
def FetchesBytes (fetch : Action Empty (Fetched ε)) : Prop :=
  ∀ w, w.verdicts = [] → ∃ data next,
    fetch.exec w = (some (.ok (.bytes data)), next) ∧ next.verdicts = []

/-- **Getting an artifact whose fetch gives bytes** fails with storage errors only, or because the
    bytes are not what was announced. -/
theorem finishes_getOrFetch {expected : Option String} {timeout : Option Number}
    {fetch : Action Empty (Fetched ε)} (hfetch : FetchesBytes fetch) {w : World}
    (hflight : (n, id) ∉ w.flights) (hv : w.verdicts = []) :
    Finishes (GetError.IsAllowed expected)
      ((opened root n).getOrFetch id expected timeout fetch) w := by
  unfold getOrFetch
  refine (finishes_begin hflight hv).bind fun found next _ hv' => ?_
  cases found with
  | some artifact => exact finishes_pure _ hv'
  | none =>
    obtain ⟨data, last, hexec, hlast⟩ := hfetch next hv'
    have hcomplete :=
      (confined_complete (ε := ε) (opened root n) id expected data).finishes hlast
    unfold Finishes
    rw [exec_bind, exec_mapError, hexec]
    exact hcomplete

end DatasetCatalog.Cache
