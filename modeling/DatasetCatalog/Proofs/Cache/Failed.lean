import DatasetCatalog.Proofs.Cache.Errors
import DatasetCatalog.Proofs.Cache.Stages

/-! # Requests that fail

  A request for an artifact can fail at the lock, at the files of the entry, at the fetch, at the
  digest and at the files that it writes. Wherever a single operation fails, the valid entries stay
  what they were, nothing is left of what was being written, and lock and flight are given back, so
  that the next request starts anew. What goes wrong on the disk is told as a storage error, with
  one exception: where there is no marker, the look for the data stands outside of what is expected
  to fail, and its fault is told as a failed fetch.
-/

namespace DatasetCatalog.Cache

open DatasetCatalog.Action DatasetCatalog.Disk DatasetCatalog.Path

variable {ε : Type} {root : Path} {n : Nat} {c : Cache} {id : Int} {data : ByteArray}
  {written : Nat} {r : Request ε} {fetched : Fetched ε} {w w' : World}

/-! ### What a failed request leaves -/

/-- A request for the data set has come and gone, and nothing tells of it. -/
structure Unharmed (root : Path) (n : Nat) (id : Int) (w w' : World) : Prop where
  /-- The files under all other names are as they were. -/
  files : Apart root (filesOf id) w.disk w'.disk
  /-- No file that was being written stays behind. -/
  parts : ∀ name ∈ partsOf id, ∀ bytes, w'.disk.read (root.child name) = .ok bytes →
    w.disk.read (root.child name) = .ok bytes
  /-- All data sets have the valid entries that they had. -/
  entries : ∀ i data,
    Valid (opened root n) w'.disk i data ↔ Valid (opened root n) w.disk i data
  locks : w'.locks = w.locks
  flights : w'.flights = w.flights

/-- Where no file has changed, it is enough that lock and flight are given back. -/
theorem unharmed_of_apart (h : Apart root [] w.disk w'.disk) (hlocks : w'.locks = w.locks)
    (hflights : w'.flights = w.flights) : Unharmed root n id w w' where
  files := h.mono (List.nil_subset _)
  parts := by
    intro name hmem bytes hread
    have hname : IsEntryName name :=
      isEntryName_of_mem_filesOf (List.mem_cons_of_mem _ (List.mem_cons_of_mem _ hmem))
    exact (h.agree name hname List.not_mem_nil bytes).1 hread
  entries := fun _ _ => h.valid_iff List.not_mem_nil List.not_mem_nil
  locks := hlocks
  flights := hflights

/-- What fails to be stored harms nothing: a valid entry that is there is one whose reading has met
    the only fault, and then the data is stored. -/
theorem unharmed_of_store_error {expected : Option String} {e : GetError ε} {arrived last : World}
    (hroot : root.WellFormed) (hbegun : Apart root [] w.disk arrived.disk)
    (hlocks : arrived.locks = (root, id) :: w.locks)
    (hflights : arrived.flights = (n, id) :: w.flights)
    (hp : Pending written arrived.verdicts)
    (htakes : ∀ data, fetched = .bytes data →
      arrived.verdicts = [] ∨ Takes (opened root n) id data arrived)
    (hvalid : ∀ old data, Valid (opened root n) arrived.disk id old → fetched = .bytes data →
      arrived.verdicts = [] ∧ Takes (opened root n) id data arrived)
    (h : ((opened root n).store id expected fetched).exec arrived = (some (.error e), last)) :
    Unharmed root n id w { last with
      locks := last.locks.erase (root, id)
      flights := last.flights.erase (n, id) } := by
  have hsteady := (filing_store (opened root n) id expected fetched).steady arrived
  rw [h, hlocks, hflights] at hsteady
  have hgiven : last.locks.erase (root, id) = w.locks ∧
      last.flights.erase (n, id) = w.flights := by
    rw [hsteady.1, hsteady.2, List.erase_cons_head, List.erase_cons_head]
    exact ⟨rfl, rfl⟩
  obtain ⟨-, hsame | ⟨data, e', rfl, hwrite⟩⟩ := exec_store_error h
  · exact unharmed_of_apart (hsame.symm ▸ hbegun) hgiven.1 hgiven.2
  · have hstored := keeps_store_apart (n := n) hroot id expected
      (.bytes data : Fetched ε) arrived (apart_refl hbegun.grounded)
    have hleft := triple_store_alike (n := n) hroot id expected
      (.bytes data : Fetched ε) arrived (alike_refl hbegun.grounded)
    rw [h] at hstored hleft
    have hfiles := (hbegun.mono (List.nil_subset _)).trans hstored
    have hunread := unread_of_writeEntry_error hp (htakes data rfl) hwrite
    have hbefore : ∀ i data, Valid (opened root n) arrived.disk i data ↔
        Valid (opened root n) w.disk i data := fun _ _ =>
      hbegun.valid_iff List.not_mem_nil List.not_mem_nil
    refine ⟨hfiles, fun name hmem bytes hread => absurd hread (hunread name hmem bytes), ?_,
      hgiven.1, hgiven.2⟩
    intro i old
    by_cases hi : i = id
    · subst hi
      refine ⟨fun hafter => (hbefore i old).1 (hleft.2.valid hafter), fun hold => ?_⟩
      -- undisturbed, the data would have been stored
      obtain ⟨hv, a, next, hplaced⟩ := hvalid old data ((hbefore i old).2 hold) rfl
      have hsame : ({ arrived with verdicts := [] } : World) = arrived := by rw [← hv]
      rw [hsame, hwrite] at hplaced
      cases hplaced
    · exact hfiles.valid_iff (markerName_not_mem_filesOf hi) (dataName_not_mem_filesOf hi)

/-- A data set without a valid entry and without a flight is fetched, if its files and its lock let
    the fetch begin. -/
theorem fetches_of_unharmed (hroot : root.WellFormed) (h : Unharmed root n id w w')
    (r : Request ε) (hflight : (n, r.dataset) ∉ w.flights)
    (hmissing : ∀ data, ¬ Valid (opened root n) w.disk r.dataset data) :
    Command.fetches (opened root n) r { w' with verdicts := [] } = true ∨ ∃ e,
      (((opened root n).begin r.dataset r.timeout : Action (GetError ε) _).exec
        { w' with verdicts := [] }).1 = some (.error (.storage e)) := by
  have hfree : (n, r.dataset) ∉ ({ w' with verdicts := [] } : World).flights := by
    rwa [h.flights]
  have hfinishes : Finishes (GetError.IsAllowed none)
      ((opened root n).begin r.dataset r.timeout : Action (GetError ε) _)
      { w' with verdicts := [] } := finishes_begin hfree rfl
  obtain ⟨o, next, hexec, -, herror⟩ := hfinishes
  have hbegin := triple_begin_apart (ε := ε) (n := n) hroot r.dataset r.timeout
    { w' with verdicts := [] } (apart_refl h.files.grounded)
  rw [hexec] at hbegin
  unfold Command.fetches
  rw [hexec]
  rcases o with e | _ | a
  · right
    have hallowed := herror e rfl
    cases e with
    | storage e => exact ⟨e, rfl⟩
    | interrupted | waitTooLong => exact absurd hallowed not_false
    | fetch e =>
      cases e with
      | checksum => cases hallowed
      | failed | interrupted | notBytes | gaveUp | raised => exact absurd hallowed not_false
  · exact .inl rfl
  · -- an entry that is returned has been valid before
    have hthere := (hbegin.1.valid_iff List.not_mem_nil List.not_mem_nil).1 (hbegin.2 a rfl)
    exact absurd ((h.entries _ _).1 hthere) (hmissing a.data)

/-! ### Failed requests -/

/-- The fetch touches neither the files nor the locks nor the flights of the caches. -/
def Outside (fetch : Action Empty (Fetched ε)) : Prop :=
  ∀ w, (fetch.exec w).2.disk = w.disk ∧ (fetch.exec w).2.verdicts = w.verdicts ∧
    (fetch.exec w).2.locks = w.locks ∧ (fetch.exec w).2.flights = w.flights

/-- The own fetch of a request is due, and comes to something. -/
def Arrives (c : Cache) (r : Request ε) (w : World) (fetched : Fetched ε) (arrived : World) :
    Prop :=
  ∃ begun, (c.begin r.dataset r.timeout : Action (GetError ε) _).exec w =
    (some (.ok none), begun) ∧ r.fetch.exec begun = (some (.ok fetched), arrived)

/-- No file operation is made to fail, or a single one is, on a disk that takes the data. -/
def FailsOnce (c : Cache) (r : Request ε) (w : World) : Prop :=
  w.verdicts = [] ∨ ∃ k written, w.verdicts = faultAfter k written ∧
    ∀ data arrived, Arrives c r w (.bytes data) arrived → Takes c r.dataset data arrived

/-- Why a request fails. -/
inductive Reason (c : Cache) (r : Request ε) (w : World) : GetError ε → Prop where
  | gaveUp {seconds : Number} (joined : (c.number, r.dataset) ∈ w.flights)
      (patience : r.timeout = some seconds) (short : isTooLong seconds = false) :
      Reason c r w (.fetch (.gaveUp r.dataset seconds))
  | waitTooLong {seconds : Number} (joined : (c.number, r.dataset) ∈ w.flights)
      (patience : r.timeout = some seconds) (long : isTooLong seconds = true) :
      Reason c r w .waitTooLong
  | unbegun {e : GetError ε} (alone : (c.number, r.dataset) ∉ w.flights)
      (h : Unbegun c r.dataset w e) : Reason c r w e
  | unstored {e : GetError ε} {fetched : Fetched ε} {arrived : World}
      (arrives : Arrives c r w fetched arrived)
      (h : Unstored c r.dataset r.expected arrived fetched e) : Reason c r w e

/-- **What a request that fails leaves behind**, and why it fails. -/
structure FailedGet (root : Path) (n : Nat) (r : Request ε) (w : World) (e : GetError ε)
    (w' : World) : Prop extends Unharmed root n r.dataset w w' where
  /-- The next request for a data set without an entry runs its own fetch, if it gets the lock and
      can read what is there. -/
  next : ∀ r' : Request ε, (n, r'.dataset) ∉ w.flights →
    (∀ data, ¬ Valid (opened root n) w.disk r'.dataset data) →
    Command.fetches (opened root n) r' { w' with verdicts := [] } = true ∨ ∃ e,
      (((opened root n).begin r'.dataset r'.timeout : Action (GetError ε) _).exec
        { w' with verdicts := [] }).1 = some (.error (.storage e))
  reason : Reason (opened root n) r w e
  /-- The look for data without a marker fails on the disk, and is told as a failed fetch. -/
  misnamed : ∀ fault, (n, r.dataset) ∉ w.flights →
    LookFails (opened root n) r.dataset w fault →
    e = .fetch (.failed r.dataset (.file ⟨fault, (opened root n).dataPath r.dataset⟩))

theorem unharmed_of_begin_error {timeout : Option Number} {e : GetError ε}
    (hroot : root.WellFormed) (hgrounded : Grounded root w.disk)
    (h : ((opened root n).begin id timeout).exec w = (some (.error e), w')) :
    Unharmed root n id w w' := by
  have hdisk := triple_begin_apart (ε := ε) (n := n) hroot id timeout w
    (apart_refl hgrounded)
  rw [h] at hdisk
  rw [exec_begin] at h
  split at h
  · cases timeout with
    | none => cases h
    | some seconds =>
      cases h
      exact unharmed_of_apart hdisk rfl rfl
  · obtain ⟨⟨hlocks, hflights⟩, -⟩ := unbegun_of_depart_error h
    exact unharmed_of_apart hdisk hlocks hflights

/-- Who does not wait any longer ends with a timeout, unless the wait could not be begun. -/
theorem reason_of_givingUp {r : Request ε} {seconds : Number}
    (hjoined : (c.number, r.dataset) ∈ w.flights) (hpatience : r.timeout = some seconds) :
    Reason c r w (givingUp r.dataset seconds) := by
  unfold givingUp
  split
  · next hlong => exact .waitTooLong hjoined hpatience hlong
  · next hshort => exact .gaveUp hjoined hpatience (Bool.eq_false_iff.2 hshort)

theorem reason_of_begin_error {r : Request ε} {e : GetError ε}
    (h : (c.begin r.dataset r.timeout).exec w = (some (.error e), w')) : Reason c r w e := by
  rw [exec_begin] at h
  split at h
  · next hjoined =>
    cases htimeout : r.timeout with
    | none =>
      rw [htimeout] at h
      cases h
    | some seconds =>
      rw [htimeout] at h
      cases h
      exact reason_of_givingUp hjoined htimeout
  · next halone => exact .unbegun halone (unbegun_of_depart_error h).2

/-- The fetch begins behind lock and flight, and what it brings is not stored. -/
theorem exec_fetchMissing_error {r : Request ε} {e : GetError ε} {begun : World}
    (h : (c.fetchMissing r).exec begun = (some (.error e), w')) :
    ∃ fetched arrived last, r.fetch.exec begun = (some (.ok fetched), arrived) ∧
      (c.store r.dataset r.expected fetched).exec arrived = (some (.error e), last) ∧
      w' = { last with
        locks := last.locks.erase (c.root, r.dataset)
        flights := last.flights.erase (c.number, r.dataset) } := by
  unfold fetchMissing at h
  obtain herror | ⟨fetched, arrived, hfetch, h⟩ := exec_bind_error h
  · obtain ⟨impossible, -⟩ := exec_mapError_error herror
    exact impossible.elim
  have hfetch := exec_of_mapError_ok hfetch
  rw [exec_complete] at h
  rcases hstore : (c.store r.dataset r.expected fetched).exec arrived with ⟨_ | _ | _, last⟩
  · rw [hstore] at h
    cases h
  · rw [hstore] at h
    cases h
    exact ⟨fetched, arrived, last, hfetch, hstore, rfl⟩
  · rw [hstore] at h
    cases h

/-- Where a fetch is due, what it brings is stored, or nothing is harmed. -/
theorem unharmed_of_fetchMissing_error {r : Request ε} {e : GetError ε} {begun : World}
    (hroot : root.WellFormed) (hgrounded : Grounded root w.disk) (hfetch : Outside r.fetch)
    (honce : FailsOnce (opened root n) r w)
    (hbegin : ((opened root n).begin r.dataset r.timeout : Action (GetError ε) _).exec w =
      (some (.ok none), begun))
    (h : ((opened root n).fetchMissing r).exec begun = (some (.error e), w')) :
    Unharmed root n r.dataset w w' ∧ Reason (opened root n) r w e := by
  obtain ⟨fetched, arrived, last, hexec, hstore, rfl⟩ := exec_fetchMissing_error h
  have harrives : Arrives (opened root n) r w fetched arrived := ⟨begun, hbegin, hexec⟩
  refine ⟨?_, .unstored harrives (exec_store_error hstore).1⟩
  have hbegun := triple_begin_apart (ε := ε) (n := n) hroot r.dataset r.timeout w
    (apart_refl hgrounded)
  rw [hbegin] at hbegun
  have hdepart : ((opened root n).depart r.dataset : Action (GetError ε) _).exec w =
      (some (.ok none), begun) := by
    rw [exec_begin] at hbegin
    split at hbegin
    · cases htimeout : r.timeout <;> rw [htimeout] at hbegin <;> cases hbegin
    · exact hbegin
  obtain ⟨hlocks, hflights⟩ := steady_of_depart_none hdepart
  obtain ⟨hdisk', hverdicts', hlocks', hflights'⟩ := hfetch begun
  rw [hexec] at hdisk' hverdicts' hlocks' hflights'
  obtain ⟨written, hp⟩ : ∃ written, Pending written w.verdicts := by
    obtain hv | ⟨k, written, hv, -⟩ := honce
    · exact ⟨0, .inl hv⟩
    · exact ⟨written, .inr ⟨k, hv⟩⟩
  obtain ⟨hpending, hmet⟩ := pending_of_depart_none hdepart hp
  refine unharmed_of_store_error hroot (hdisk' ▸ hbegun.1)
    (hlocks'.trans hlocks) (hflights'.trans hflights) (hverdicts' ▸ hpending) ?_ ?_ hstore
  · rintro data rfl
    obtain hv | ⟨k, _, -, htakes⟩ := honce
    · have hnone := ((local_depart (ε := ε) (opened root n) r.dataset) w).2 hv
      rw [hdepart] at hnone
      exact .inl (hverdicts'.trans hnone.2)
    · exact .inr (htakes data arrived harrives)
  · rintro old data hold rfl
    obtain ⟨hdisturbed, hnone⟩ := hmet old (hdisk' ▸ hold)
    obtain ⟨k, _, -, htakes⟩ := honce.resolve_left hdisturbed
    exact ⟨hverdicts'.trans hnone, htakes data arrived harrives⟩

/-- **A failed request changes no entry.** -/
theorem failedGet_of_getOrFetch {r : Request ε} {e : GetError ε} (hroot : root.WellFormed)
    (hgrounded : Grounded root w.disk) (hfetch : Outside r.fetch)
    (honce : FailsOnce (opened root n) r w)
    (h : ((opened root n).getOrFetch r.dataset r.expected r.timeout r.fetch).exec w =
      (some (.error e), w')) : FailedGet root n r w e w' := by
  have hmisnamed : ∀ fault, (n, r.dataset) ∉ w.flights →
      LookFails (opened root n) r.dataset w fault →
      e = .fetch (.failed r.dataset (.file ⟨fault, (opened root n).dataPath r.dataset⟩)) := by
    intro fault halone hlook
    have hdepart := exec_depart_of_lookFails (ε := ε) hlook
    rw [exec_getOrFetch_eq, exec_begin, if_neg halone] at h
    revert h hdepart
    rcases ((opened root n).depart r.dataset : Action (GetError ε) _).exec w with
      ⟨_ | _ | _, next⟩
    · exact nofun
    · intro h hdepart
      cases h
      exact Except.error.inj (Option.some.inj hdepart)
    · exact nofun
  have hharm : Unharmed root n r.dataset w w' ∧ Reason (opened root n) r w e := by
    rw [exec_getOrFetch_eq] at h
    rcases hbegin : ((opened root n).begin r.dataset r.timeout : Action (GetError ε) _).exec w with
      ⟨_ | _ | _ | a, begun⟩
    · rw [hbegin] at h
      cases h
    · rw [hbegin] at h
      cases h
      exact ⟨unharmed_of_begin_error hroot hgrounded hbegin, reason_of_begin_error hbegin⟩
    · rw [hbegin] at h
      exact unharmed_of_fetchMissing_error hroot hgrounded hfetch honce hbegin h
    · rw [hbegin] at h
      cases h
  obtain ⟨hunharmed, hreason⟩ := hharm
  exact { hunharmed with
    next := fetches_of_unharmed hroot hunharmed
    reason := hreason
    misnamed := hmisnamed }

theorem exists_exec_of_map_ok {α : Type} {x : Action ε α}
    (h : (x.exec w).1.map (Except.map fun _ => ()) = some (.ok ())) :
    ∃ a next, x.exec w = (some (.ok a), next) := by
  revert h
  rcases x.exec w with ⟨_ | e | a, next⟩
  · exact nofun
  · exact nofun
  · exact fun _ => ⟨a, next, rfl⟩

theorem exists_exec_of_map_error {α : Type} {x : Action ε α} {e : ε}
    (h : (x.exec w).1.map (Except.map fun _ => ()) = some (.error e)) :
    ∃ next, x.exec w = (some (.error e), next) := by
  revert h
  rcases x.exec w with ⟨_ | e' | a, next⟩
  · exact nofun
  · intro h
    cases h
    exact ⟨next, rfl⟩
  · exact nofun

/-- The look for the data is made to fail, or the writing of the data, with a byte left behind. -/
theorem failedGet_of_refused_operation :
    let root : Path := .ofText "cache"
    let r : Request Empty := ⟨1, none, none, pure (.bytes ⟨#[1, 2, 3]⟩)⟩
    let path := (opened root 0).dataPath 1
    (∃ w', FailedGet root 0 r { verdicts := faultAfter 5 0 }
      (.fetch (.failed 1 (.file ⟨.refused, path⟩))) w') ∧
    ∃ w', FailedGet root 0 r { verdicts := faultAfter 8 1 } (.storage (.unwritable path)) w' := by
  intro root r path
  have hroot : root.WellFormed := wellFormed_ofText "cache"
  have hgrounded : Grounded root ({} : World).disk := grounded_of_empty (by decide +kernel)
  have houtside : Outside r.fetch := fun _ => ⟨rfl, rfl, rfl, rfl⟩
  constructor
  · obtain ⟨w', hexec⟩ := exists_exec_of_map_error (w := { verdicts := faultAfter 5 0 })
      (x := (opened root 0).getOrFetch r.dataset r.expected r.timeout r.fetch)
      (e := .fetch (.failed 1 (.file ⟨.refused, path⟩))) (by decide +kernel)
    refine ⟨w', failedGet_of_getOrFetch hroot hgrounded houtside (.inr ⟨5, 0, rfl, ?_⟩) hexec⟩
    -- no fetch is due
    rintro data arrived ⟨begun, hbegin, -⟩
    have hfetches : Command.fetches (opened root 0) r { verdicts := faultAfter 5 0 } = false := by
      decide +kernel
    unfold Command.fetches at hfetches
    rw [hbegin] at hfetches
    cases hfetches
  · obtain ⟨w', hexec⟩ := exists_exec_of_map_error (w := { verdicts := faultAfter 8 1 })
      (x := (opened root 0).getOrFetch r.dataset r.expected r.timeout r.fetch)
      (e := .storage (.unwritable path)) (by decide +kernel)
    refine ⟨w', failedGet_of_getOrFetch hroot hgrounded houtside (.inr ⟨8, 1, rfl, ?_⟩) hexec⟩
    -- undisturbed, the data is written
    rintro data arrived ⟨begun, hbegin, hfetch⟩
    cases hfetch
    have hbegun : arrived = (((opened root 0).begin 1 none : Action (GetError Empty) _).exec
        { verdicts := faultAfter 8 1 }).2 := by
      rw [hbegin]
    rw [hbegun]
    exact exists_exec_of_map_ok (by decide +kernel)

end DatasetCatalog.Cache
