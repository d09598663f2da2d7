import DatasetCatalog.Proofs.Cache.Apart
import DatasetCatalog.Proofs.Local

/-! # The stages of a request

  A request for an artifact takes the lock of its data set, reads the entry, fetches, checks and
  writes. For each stage it is told how it can fail, with the error and the operation that has
  failed, and what becomes of the only fault when there is one: a stage comes before it, or meets
  it.
-/

namespace DatasetCatalog.Cache

open DatasetCatalog.Action DatasetCatalog.Disk DatasetCatalog.Path

variable {ε : Type} {root : Path} {n : Nat} {c : Cache} {id : Int} {data : ByteArray}
  {written : Nat} {fetched : Fetched ε} {w w' : World}

/-! ### Pending faults -/

/-- No verdict is left, or those that let one file operation fail. -/
def Pending (written : Nat) (verdicts : List Verdict) : Prop :=
  verdicts = [] ∨ ∃ k, verdicts = faultAfter k written

theorem fault_or_met {ε α : Type} {x : Action ε α} (hx : Filing x) {k : Nat}
    (hv : w.verdicts = faultAfter k written) :
    (∃ j, x.exec w = ((x.exec { w with verdicts := [] }).1,
      { (x.exec { w with verdicts := [] }).2 with verdicts := faultAfter j written })) ∨
    (x.exec w).2.verdicts = [] := by
  have h := hx.fault { w with verdicts := [] } k written rfl
  rwa [← hv] at h

theorem pending_of_filing {ε α : Type} {x : Action ε α} (hx : Filing x)
    (hp : Pending written w.verdicts) : Pending written (x.exec w).2.verdicts := by
  obtain hv | ⟨k, hv⟩ := hp
  · exact .inl ((hx.isLocal w).2 hv).2
  · obtain ⟨j, heq⟩ | hmet := fault_or_met hx hv
    · rw [heq]
      exact .inr ⟨j, rfl⟩
    · exact .inl hmet

/-! ### The lock -/

/-- What is done on the disk to take a lock. -/
def openLock (c : Cache) (id : Int) : Action LockFault Unit := do
  (Action.makeDirectories c.lockRoot).mapError .file
  (Action.inspect (c.lockFile id)).mapError .file

theorem filing_openLock (c : Cache) (id : Int) : Filing (c.openLock id) := by
  unfold openLock
  exact (filing_makeDirectories _).mapError.bind fun _ => (filing_inspect _).mapError

theorem exec_takeLock_eq (c : Cache) (id : Int) (w : World) :
    (c.takeLock id).exec w = match (c.openLock id).exec w with
      | (none, next) => (none, next)
      | (some (.error fault), next) => (some (.error fault), next)
      | (some (.ok ()), next) =>
        if (c.root, id) ∈ next.locks then (some (.error .busy), next)
        else (some (.ok ()), { next with locks := (c.root, id) :: next.locks }) := by
  unfold takeLock openLock
  rw [exec_bind, exec_bind]
  rcases ((makeDirectories c.lockRoot).mapError LockFault.file).exec w with ⟨_ | _ | _, next⟩
  · rfl
  · rfl
  · dsimp only
    rw [exec_bind]
    rcases ((inspect (c.lockFile id)).mapError LockFault.file).exec next with ⟨_ | _ | _, last⟩
    · rfl
    · rfl
    · dsimp only
      rw [exec_bind, exec_look]
      by_cases hheld : (c.root, id) ∈ last.locks
      · rw [decide_eq_true hheld, if_pos hheld]
        rfl
      · rw [decide_eq_false hheld, if_neg hheld]
        rfl

/-- Under its flight, a request does not get the lock of its data set. -/
def LockFails (c : Cache) (id : Int) (w : World) (fault : LockFault) : Prop :=
  ((c.takeLock id).exec { w with flights := (c.number, id) :: w.flights }).1 = some (.error fault)

/-- A lock that is not taken leaves all locks and flights as they are. -/
theorem steady_of_takeLock_error {fault : LockFault}
    (h : (c.takeLock id).exec w = (some (.error fault), w')) :
    w'.locks = w.locks ∧ w'.flights = w.flights := by
  have hsteady := (filing_openLock c id).steady w
  rw [exec_takeLock_eq] at h
  revert h hsteady
  rcases (c.openLock id).exec w with ⟨_ | _ | _, next⟩
  · exact nofun
  · intro h hsteady
    cases h
    exact hsteady
  · intro h hsteady
    dsimp only at h
    split at h
    · cases h
      exact hsteady
    · cases h

/-- A lock that is taken has been opened. -/
theorem exec_openLock_of_takeLock (h : (c.takeLock id).exec w = (some (.ok ()), w')) :
    ∃ next, (c.openLock id).exec w = (some (.ok ()), next) ∧
      w' = { next with locks := (c.root, id) :: next.locks } := by
  rw [exec_takeLock_eq] at h
  revert h
  rcases (c.openLock id).exec w with ⟨_ | _ | _, next⟩
  · exact nofun
  · exact nofun
  · intro h
    dsimp only at h
    split at h
    · cases h
    · cases h
      exact ⟨next, rfl, rfl⟩

theorem steady_of_takeLock_ok (h : (c.takeLock id).exec w = (some (.ok ()), w')) :
    w'.locks = (c.root, id) :: w.locks ∧ w'.flights = w.flights := by
  obtain ⟨next, hopen, rfl⟩ := exec_openLock_of_takeLock h
  have hsteady := (filing_openLock c id).steady w
  rw [hopen] at hsteady
  exact ⟨congrArg _ hsteady.1, hsteady.2⟩

theorem pending_of_takeLock_ok (h : (c.takeLock id).exec w = (some (.ok ()), w'))
    (hp : Pending written w.verdicts) : Pending written w'.verdicts := by
  obtain ⟨next, hopen, rfl⟩ := exec_openLock_of_takeLock h
  have hpending := pending_of_filing (filing_openLock c id) hp
  rwa [hopen] at hpending

/-! ### Reading -/

/-- Under its flight and its lock, a request has read the marker of its data set. -/
def ReadsMarker (c : Cache) (id : Int) (w : World) (found : Option Marker) (read : World) : Prop :=
  ∃ locked, (c.takeLock id).exec { w with flights := (c.number, id) :: w.flights } =
      (some (.ok ()), locked) ∧
    (readMarker (c.markerPath id) : Action CacheError _).exec locked = (some (.ok found), read)

/-- No marker is found, and the look for the data fails. -/
def LookFails (c : Cache) (id : Int) (w : World) (fault : FileFault) : Prop :=
  ∃ read, ReadsMarker c id w none read ∧
    ((Action.present (c.dataPath id)).exec read).1 = some (.error fault)

/-- A marker is found, and its data cannot be read. -/
def DataFails (c : Cache) (id : Int) (w : World) (fault : FileFault) : Prop :=
  ∃ m read, ReadsMarker c id w (some m) read ∧
    ((readData (c.dataPath id) m).exec read).1 = some (.error fault)

/-- A marker that cannot be read is no failure. -/
theorem exec_readMarker_ne_error {path : Path} {e : CacheError} :
    (readMarker path).exec w ≠ (some (.error e), w') := by
  intro h
  unfold readMarker at h
  obtain herror | ⟨found, between, -, h⟩ := exec_bind_error h
  · exact exec_attempt_ne_error (congrArg Prod.fst herror)
  · revert h
    rcases found with fault | bytes
    · cases fault <;> exact nofun
    · dsimp only
      cases Marker.ofBytes bytes <;> exact nofun

/-- An entry cannot be read because its data cannot, or because the look for data without a marker
    fails. -/
theorem exec_readEntry_error {e : CacheError}
    (h : (c.readEntry id).exec w = (some (.error e), w')) :
    ∃ found read fault,
      (readMarker (c.markerPath id) : Action CacheError _).exec w = (some (.ok found), read) ∧
      match found with
      | none => ((Action.present (c.dataPath id)).exec read).1 = some (.error fault) ∧
        e = .file fault
      | some m => ((readData (c.dataPath id) m).exec read).1 = some (.error fault) ∧
        e = .storage (.unreadable (c.dataPath id)) := by
  unfold readEntry at h
  obtain herror | ⟨found, read, hmarker, h⟩ := exec_bind_error h
  · exact absurd herror exec_readMarker_ne_error
  cases found with
  | none =>
    obtain herror | ⟨there, last, -, h⟩ := exec_bind_error h
    · obtain ⟨fault, hlook, rfl⟩ := exec_mapError_error herror
      exact ⟨none, read, fault, hmarker, congrArg Prod.fst hlook, rfl⟩
    · cases there <;> cases h
  | some m =>
    obtain herror | ⟨data, last, -, h⟩ := exec_bind_error h
    · obtain ⟨fault, hdata, rfl⟩ := exec_mapError_error herror
      exact ⟨some m, read, fault, hmarker, congrArg Prod.fst hdata, rfl⟩
    · cases data with
      | none => cases h
      | some data =>
        dsimp only at h
        split at h <;> cases h

theorem exec_readEntry_of_lookFails {read : World} {fault : FileFault}
    (hmarker : (readMarker (c.markerPath id) : Action CacheError _).exec w =
      (some (.ok none), read))
    (hlook : ((Action.present (c.dataPath id)).exec read).1 = some (.error fault)) :
    ∃ last, (c.readEntry id).exec w = (some (.error (.file fault)), last) := by
  have hexec : (Action.present (c.dataPath id)).exec read =
      (some (.error fault), ((Action.present (c.dataPath id)).exec read).2) := Prod.ext hlook rfl
  unfold readEntry
  rw [exec_bind, hmarker]
  dsimp only
  rw [exec_bind, exec_mapError, hexec]
  exact ⟨_, rfl⟩

/-! ### Beginning -/

theorem exec_probe (c : Cache) (id : Int) (w : World) :
    (c.probe id).exec w = match (c.takeLock id).exec w with
      | (none, next) => (none, next)
      | (some (.error .busy), next) => (some (.error (.storage (.lockBusy (integerText id)))), next)
      | (some (.error (.file _)), next) => (some (.error (.storage (.noLock c.root))), next)
      | (some (.ok ()), next) => match (c.readEntry id).exec next with
        | (some (.ok none), last) => (some (.ok none), last)
        | (none, last) => (none, last)
        | (some r, last) => (some r, { last with locks := last.locks.erase (c.root, id) }) := by
  unfold probe releaseLock
  rw [exec_bind, exec_mapError]
  rcases (c.takeLock id).exec w with ⟨_ | fault | _, next⟩
  · rfl
  · cases fault <;> rfl
  · dsimp only
    rw [exec_bind, exec_attempt]
    rcases (c.readEntry id).exec next with ⟨_ | _ | _ | a, last⟩ <;> rfl

theorem exec_depart (c : Cache) (id : Int) (w : World) :
    (c.depart id : Action (GetError ε) _).exec w =
      match (c.probe id).exec { w with flights := (c.number, id) :: w.flights } with
        | (some (.ok none), next) => (some (.ok none), next)
        | (none, next) => (none, next)
        | (some r, next) => (some (r.mapError (c.settle id)),
            { next with flights := next.flights.erase (c.number, id) }) := by
  unfold depart land
  rw [exec_bind, exec_change]
  dsimp only
  rw [exec_bind, exec_attempt]
  rcases (c.probe id).exec { w with flights := (c.number, id) :: w.flights } with
    ⟨_ | _ | _ | a, next⟩ <;> rfl

/-- Why a request fails before its own fetch is run. -/
inductive Unbegun (c : Cache) (id : Int) (w : World) : GetError ε → Prop where
  | lockBusy (h : LockFails c id w .busy) : Unbegun c id w (.storage (.lockBusy (integerText id)))
  | noLock {fault : FileFault} (h : LockFails c id w (.file fault)) :
      Unbegun c id w (.storage (.noLock c.root))
  | unreadable {fault : FileFault} (h : DataFails c id w fault) :
      Unbegun c id w (.storage (.unreadable (c.dataPath id)))
  /-- The look for data without a marker is not expected to fail. -/
  | unlooked {fault : FileFault} (h : LookFails c id w fault) :
      Unbegun c id w (.fetch (.failed id (.file ⟨fault, c.dataPath id⟩)))

theorem unbegun_of_depart_error {e : GetError ε}
    (h : (c.depart id).exec w = (some (.error e), w')) :
    (w'.locks = w.locks ∧ w'.flights = w.flights) ∧ Unbegun c id w e := by
  rw [exec_depart, exec_probe] at h
  rcases htake : (c.takeLock id).exec { w with flights := (c.number, id) :: w.flights } with
    ⟨_ | fault | _, locked⟩
  · rw [htake] at h
    cases h
  · -- the flight is closed, and no lock has been taken
    obtain ⟨hlocks, hflights⟩ := steady_of_takeLock_error htake
    have hsteady : locked.locks = w.locks ∧
        locked.flights.erase (c.number, id) = w.flights := by
      rw [hlocks, hflights, List.erase_cons_head]
      exact ⟨rfl, rfl⟩
    rw [htake] at h
    cases fault with
    | busy =>
      cases h
      exact ⟨hsteady, .lockBusy (congrArg Prod.fst htake)⟩
    | file fault =>
      cases h
      exact ⟨hsteady, .noLock (congrArg Prod.fst htake)⟩
  · obtain ⟨hlocks, hflights⟩ := steady_of_takeLock_ok htake
    rw [htake] at h
    dsimp only at h
    rcases hread : (c.readEntry id).exec locked with ⟨_ | e' | _ | a, last⟩
    · rw [hread] at h
      cases h
    · -- both are given back
      have hsteady := (filing_readEntry c id).steady locked
      rw [hread, hlocks, hflights] at hsteady
      rw [hread] at h
      cases h
      refine ⟨?_, ?_⟩
      · dsimp only
        rw [hsteady.1, hsteady.2, List.erase_cons_head, List.erase_cons_head]
        exact ⟨rfl, rfl⟩
      · obtain ⟨_ | m, read, fault, hmarker, hfails, rfl⟩ := exec_readEntry_error hread
        · exact .unlooked ⟨read, ⟨locked, htake, hmarker⟩, hfails⟩
        · exact .unreadable ⟨m, read, ⟨locked, htake, hmarker⟩, hfails⟩
    · rw [hread] at h
      cases h
    · rw [hread] at h
      cases h

/-- Where the look for the data fails, that is the error. -/
theorem exec_depart_of_lookFails {fault : FileFault} (h : LookFails c id w fault) :
    ((c.depart id : Action (GetError ε) _).exec w).1 =
      some (.error (.fetch (.failed id (.file ⟨fault, c.dataPath id⟩)))) := by
  obtain ⟨read, ⟨locked, htake, hmarker⟩, hlook⟩ := h
  obtain ⟨last, hread⟩ := exec_readEntry_of_lookFails hmarker hlook
  rw [exec_depart, exec_probe, htake]
  dsimp only
  rw [hread]
  rfl

/-- A fetch is due behind the lock, when no entry has been read. -/
theorem exec_depart_none
    (h : (c.depart id : Action (GetError ε) _).exec w = (some (.ok none), w')) :
    ∃ locked, (c.takeLock id).exec { w with flights := (c.number, id) :: w.flights } =
        (some (.ok ()), locked) ∧ (c.readEntry id).exec locked = (some (.ok none), w') := by
  rw [exec_depart, exec_probe] at h
  rcases htake : (c.takeLock id).exec { w with flights := (c.number, id) :: w.flights } with
    ⟨_ | fault | _, locked⟩
  · rw [htake] at h
    cases h
  · rw [htake] at h
    cases fault <;> cases h
  · rw [htake] at h
    dsimp only at h
    rcases hread : (c.readEntry id).exec locked with ⟨_ | e' | _ | a, last⟩
    · rw [hread] at h
      cases h
    · rw [hread] at h
      cases h
    · rw [hread] at h
      cases h
      exact ⟨locked, rfl, hread⟩
    · rw [hread] at h
      cases h

theorem steady_of_depart_none
    (h : (c.depart id : Action (GetError ε) _).exec w = (some (.ok none), w')) :
    w'.locks = (c.root, id) :: w.locks ∧ w'.flights = (c.number, id) :: w.flights := by
  obtain ⟨locked, htake, hread⟩ := exec_depart_none h
  obtain ⟨hlocks, hflights⟩ := steady_of_takeLock_ok htake
  have hsteady := (filing_readEntry c id).steady locked
  rwa [hread, hlocks, hflights] at hsteady

theorem not_valid_of_readEntry_none (hv : w.verdicts = [])
    (h : ((c.readEntry id).exec w).1 = some (.ok none)) : ¬ Valid c w.disk id data := by
  intro hvalid
  obtain ⟨a, ha, -⟩ := (valid_iff_readEntry hv).1 hvalid
  rw [h] at ha
  cases ha

/-- A fetch is only due beside a valid entry when the fault has been met in the reading. -/
theorem pending_of_depart_none
    (h : (c.depart id : Action (GetError ε) _).exec w = (some (.ok none), w'))
    (hp : Pending written w.verdicts) :
    Pending written w'.verdicts ∧
      ∀ data, Valid c w'.disk id data → w.verdicts ≠ [] ∧ w'.verdicts = [] := by
  obtain ⟨locked, htake, hread⟩ := exec_depart_none h
  have hlocked := pending_of_takeLock_ok htake hp
  have hpending := pending_of_filing (filing_readEntry c id) hlocked
  have hdisk := triple_readEntry_valid c locked.disk id locked rfl
  rw [hread] at hpending hdisk
  refine ⟨hpending, fun data hvalid => ?_⟩
  rw [hdisk.1] at hvalid
  constructor
  · -- nothing would have disturbed the reading
    intro hv
    have hv' := ((local_takeLock c id) { w with flights := (c.number, id) :: w.flights }).2 hv
    rw [htake] at hv'
    exact not_valid_of_readEntry_none hv'.2 (congrArg Prod.fst hread) hvalid
  · obtain hv | ⟨k, hv⟩ := hlocked
    · exact absurd hvalid (not_valid_of_readEntry_none hv (congrArg Prod.fst hread))
    · obtain ⟨j, heq⟩ | hmet := fault_or_met (filing_readEntry c id) hv
      · rw [heq] at hread
        have hnone := (Prod.mk.inj hread).1
        exact absurd hvalid
          (not_valid_of_readEntry_none (w := { locked with verdicts := [] }) rfl hnone)
      · rwa [hread] at hmet

/-! ### Storing -/

/-- The disk takes the data when nothing disturbs the writing. -/
def Takes (c : Cache) (id : Int) (data : ByteArray) (w : World) : Prop :=
  ∃ a next, (c.writeEntry id data).exec { w with verdicts := [] } = (some (.ok a), next)

theorem exec_sweep {p : Path} (hv : w.verdicts = []) :
    ∃ disk trace, (sweep p : Action ε Unit).exec w = (some (.ok ()), { w with disk, trace }) ∧
      (w.disk.remove p = .ok disk ∨ disk = w.disk ∧ ∀ bytes, w.disk.read p ≠ .ok bytes) := by
  unfold sweep removeIfPresent Action.remove
  simp only [exec_bind, exec_attempt, exec_alter, hv, List.head?_nil, Option.getD_none,
    List.tail_nil]
  cases hremove : w.disk.remove p with
  | ok disk => exact ⟨disk, w.trace, rfl, .inl rfl⟩
  | error fault =>
    have hread : ∀ bytes, w.disk.read p ≠ .ok bytes := by
      intro bytes hread
      rw [Disk.remove, look_of_read hread] at hremove
      cases hremove
    cases fault with
    | missing => exact ⟨w.disk, w.trace, rfl, .inr ⟨rfl, hread⟩⟩
    | notDirectory | refused =>
      exact ⟨w.disk, w.trace.note (.partialStuck p), rfl, .inr ⟨rfl, hread⟩⟩

/-- Removing what is left of two files leaves neither of them. -/
theorem unread_of_sweeps {a b : String} (ha : IsEntryName a) (hb : IsEntryName b) (hne : a ≠ b)
    (hv : w.verdicts = []) {e : StorageError}
    (h : (do
        sweep (root.child a)
        sweep (root.child b)
        throw e : Action StorageError Artifact).exec w = (some (.error e), w')) :
    ∀ name ∈ [a, b], ∀ bytes, w'.disk.read (root.child name) ≠ .ok bytes := by
  obtain ⟨d₁, trace₁, hexec₁, hfirst⟩ := exec_sweep (ε := StorageError) (p := root.child a) hv
  obtain ⟨d₂, trace₂, hexec₂, hsecond⟩ := exec_sweep (ε := StorageError) (p := root.child b)
    (w := { w with disk := d₁, trace := trace₁ }) hv
  rw [exec_bind, hexec₁] at h
  dsimp only at h
  rw [exec_bind, hexec₂] at h
  cases h
  have hgone : ∀ {p : String} {d d' : Disk}, IsEntryName p →
      (d.remove (root.child p) = .ok d' ∨ d' = d ∧ ∀ bytes, d.read (root.child p) ≠ .ok bytes) →
      ∀ bytes, d'.read (root.child p) ≠ .ok bytes := by
    rintro p d d' hp (hremove | ⟨rfl, hread⟩)
    · exact (remove_child_eq_ok hp hremove).2.2
    · exact hread
  -- the second removal does not bring the first file back
  have hstill : ∀ bytes, d₂.read (root.child a) ≠ .ok bytes := by
    intro bytes
    obtain hremove | ⟨rfl, -⟩ := hsecond
    · rw [(remove_child_eq_ok hb hremove).2.1.read hb ha hne.symm]
      exact hgone ha hfirst bytes
    · exact hgone ha hfirst bytes
  intro name hmem
  rcases List.mem_cons.1 hmem with rfl | hmem
  · exact hstill
  · obtain rfl := List.mem_singleton.1 hmem
    exact hgone hb hsecond

theorem exec_sweep_ne_error {p : Path} {e : ε} :
    (sweep p : Action ε Unit).exec w ≠ (some (.error e), w') := by
  intro h
  unfold sweep at h
  obtain herror | ⟨r, between, -, h⟩ := exec_bind_error h
  · exact exec_attempt_ne_error (congrArg Prod.fst herror)
  · revert h
    rcases r with fault | _ <;> exact nofun

/-- A write fails where data and marker are put into place; what is left of them is swept. -/
theorem exec_writeEntry_error {e : StorageError}
    (h : (c.writeEntry id data).exec w = (some (.error e), w')) :
    e = .unwritable (c.dataPath id) ∧ ∃ fault placed,
      (c.placeEntry id data (Marker.ofData id c.format data w.now)).exec
        { w with now := w.now.add w.tick } = (some (.error fault), placed) ∧
      (do
        sweep ((c.dataPath id).addSuffix partSuffix)
        sweep ((c.markerPath id).addSuffix partSuffix)
        throw e : Action StorageError Artifact).exec placed = (some (.error e), w') := by
  unfold writeEntry at h
  obtain herror | ⟨moment, stamped, hstamp, h⟩ := exec_bind_error h
  · cases herror
  cases hstamp
  obtain herror | ⟨r, placed, hplace, h⟩ := exec_bind_error h
  · exact absurd (congrArg Prod.fst herror) exec_attempt_ne_error
  have hplace := exec_attempt_ok hplace
  rcases r with fault | _
  · obtain herror | ⟨_, between, -, hrest⟩ := exec_bind_error h
    · exact absurd herror exec_sweep_ne_error
    obtain herror | ⟨_, last, -, hthrow⟩ := exec_bind_error hrest
    · exact absurd herror exec_sweep_ne_error
    cases hthrow
    exact ⟨rfl, fault, placed, hplace, h⟩
  · cases h

theorem exec_placeEntry_of_takes (h : Takes c id data w) :
    ((c.placeEntry id data (Marker.ofData id c.format data w.now)).exec
      { w with verdicts := [], now := w.now.add w.tick }).1 = some (.ok ()) := by
  obtain ⟨a, next, h⟩ := h
  unfold writeEntry at h
  obtain ⟨moment, stamped, hstamp, h⟩ := exec_bind_ok h
  cases hstamp
  obtain ⟨r, placed, hplace, h⟩ := exec_bind_ok h
  have hplace := exec_attempt_ok hplace
  rcases r with fault | _
  · obtain ⟨_, between, -, hrest⟩ := exec_bind_ok h
    obtain ⟨_, last, -, hthrow⟩ := exec_bind_ok hrest
    cases hthrow
  · exact congrArg Prod.fst hplace

/-- **Nothing is left of what was being written** when a write fails, if nothing else does. -/
theorem unread_of_writeEntry_error {e : StorageError} (hp : Pending written w.verdicts)
    (htakes : w.verdicts = [] ∨ Takes (opened root n) id data w)
    (h : ((opened root n).writeEntry id data).exec w = (some (.error e), w')) :
    ∀ name ∈ partsOf id, ∀ bytes, w'.disk.read (root.child name) ≠ .ok bytes := by
  obtain ⟨-, fault, placed, hplace, hsweeps⟩ := exec_writeEntry_error h
  have hfiling := filing_placeEntry (opened root n) id data
    (Marker.ofData id (opened root n).format data w.now)
  -- the fault has been met, if there was one
  have hverdicts : placed.verdicts = [] := by
    by_cases hv : w.verdicts = []
    · have hnone := ((hfiling.isLocal { w with now := w.now.add w.tick }).2 hv).2
      rwa [hplace] at hnone
    · obtain ⟨k, hk⟩ := hp.resolve_left hv
      have htaken := exec_placeEntry_of_takes (htakes.resolve_left hv)
      obtain ⟨j, heq⟩ | hmet := fault_or_met (w := { w with now := w.now.add w.tick }) hfiling hk
      · rw [hplace, htaken] at heq
        cases heq
      · rwa [hplace] at hmet
  simp only [dataPath_opened, markerPath_opened, addSuffix_dataName,
    addSuffix_markerName] at hsweeps
  exact unread_of_sweeps (isEntryName_dataPart id) (isEntryName_markerPart id)
    (dataPart_ne_markerPart id) hverdicts hsweeps

/-! ### Completing -/

theorem exec_complete (c : Cache) (id : Int) (expected : Option String) (fetched : Fetched ε)
    (w : World) :
    (c.complete id expected fetched).exec w =
      match (c.store id expected fetched).exec w with
      | (none, next) => (none, next)
      | (some r, next) => (some r, { next with
          locks := next.locks.erase (c.root, id)
          flights := next.flights.erase (c.number, id) }) := by
  unfold complete thenLand thenRelease releaseLock land
  rw [exec_bind, exec_attempt, exec_bind, exec_attempt]
  rcases (c.store id expected fetched).exec w with ⟨_ | r, next⟩ <;> rfl

/-- Bytes are checked without a change, but for a notice. -/
theorem exec_check_ok {expected : Option String}
    (h : (check (ε := ε) id data expected).exec w = (some (.ok ()), w')) : w' = w := by
  unfold check at h
  split at h
  · cases h
    rfl
  · cases h
    rfl
  · split at h
    · cases h
      rfl
    · obtain ⟨_, between, -, hthrow⟩ := exec_bind_ok h
      cases hthrow

/-- Why what was fetched is not stored. -/
inductive Unstored (c : Cache) (id : Int) (expected : Option String) (w : World) :
    Fetched ε → GetError ε → Prop where
  | notBytes (type : String) : Unstored c id expected w (.other type) (.fetch (.notBytes id type))
  | fetchError (e : FetchError ε) : Unstored c id expected w (.fetchError e) (.fetch e)
  | storageError (e : StorageError) : Unstored c id expected w (.storageError e) (.storage e)
  | failure (e : ε) : Unstored c id expected w (.failure e) (.fetch (.failed id (.given e)))
  | interruption (e : ε) : Unstored c id expected w (.interruption e) (.interrupted e)
  | checksum {data : ByteArray} {digest : String} {m : ChecksumMismatch}
      (announced : expected = some digest) (nonempty : digest ≠ "")
      (h : verify (integerText id) data digest = .error m) :
      Unstored c id expected w (.bytes data) (.fetch (.checksum m))
  | unwritable {data : ByteArray} {fault : FileFault}
      (h : ((c.placeEntry id data (Marker.ofData id c.format data w.now)).exec
        { w with now := w.now.add w.tick }).1 = some (.error fault)) :
      Unstored c id expected w (.bytes data) (.storage (.unwritable (c.dataPath id)))

theorem exec_check_error {expected : Option String} {e : GetError ε}
    (h : (check (ε := ε) id data expected).exec w = (some (.error e), w')) :
    w'.disk = w.disk ∧ Unstored c id expected w (.bytes data) e := by
  unfold check at h
  split at h
  · cases h
  · cases h
  · next digest hempty =>
    split at h
    · cases h
    · next m hverify =>
      obtain herror | ⟨_, between, hnote, hthrow⟩ := exec_bind_error h
      · cases herror
      · cases hnote
        cases hthrow
        exact ⟨rfl, .checksum rfl hempty hverify⟩

/-- Where nothing is stored, the disk stays as it is, or the data was being written. -/
theorem exec_store_error {expected : Option String} {e : GetError ε}
    (h : (c.store id expected fetched).exec w = (some (.error e), w')) :
    Unstored c id expected w fetched e ∧ (w'.disk = w.disk ∨ ∃ data e',
      fetched = .bytes data ∧ (c.writeEntry id data).exec w = (some (.error e'), w')) := by
  cases fetched with
  | other type =>
    cases h
    exact ⟨.notBytes type, .inl rfl⟩
  | fetchError e =>
    cases h
    exact ⟨.fetchError e, .inl rfl⟩
  | storageError e =>
    cases h
    exact ⟨.storageError e, .inl rfl⟩
  | failure e =>
    cases h
    exact ⟨.failure e, .inl rfl⟩
  | interruption e =>
    cases h
    exact ⟨.interruption e, .inl rfl⟩
  | bytes data =>
    obtain hcheck | ⟨_, checked, hcheck, hwrite⟩ := exec_bind_error h
    · obtain ⟨hdisk, hreason⟩ := exec_check_error hcheck
      exact ⟨hreason, .inl hdisk⟩
    · obtain rfl := exec_check_ok hcheck
      obtain ⟨e', hexec, rfl⟩ := exec_mapError_error hwrite
      obtain ⟨rfl, fault, placed, hplace, -⟩ := exec_writeEntry_error hexec
      exact ⟨.unwritable (congrArg Prod.fst hplace), .inr ⟨data, _, rfl, hexec⟩⟩

end DatasetCatalog.Cache
