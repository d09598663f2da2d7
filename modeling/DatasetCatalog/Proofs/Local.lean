import DatasetCatalog.Cache.Basic
import DatasetCatalog.Proofs.World

/-! # Local actions

  A local action requests nothing from the network. It comes to an end, with a value or an error,
  unless a verdict on one of its file operations stops the process. All that a cache does by itself
  is local; the fetch that it is given is not.

  Most of it works on files only and touches neither locks nor flights. When one of the coming file
  operations is to fail, such an action either ends before it, as if nothing disturbed it, or it
  meets the fault, and then no verdict is left.
-/

namespace DatasetCatalog.Action

variable {ε δ α β : Type}

/-- The action requests nothing, and without verdicts it ends and leaves none. -/
def Local (x : Action ε α) : Prop :=
  ∀ w, (x.exec w).2.trace.requests = w.trace.requests ∧
    (w.verdicts = [] → (x.exec w).1.isSome = true ∧ (x.exec w).2.verdicts = [])

variable {x : Action ε α}

theorem local_ofExcept (r : Except ε α) : Local (ofExcept r) := fun _ => ⟨rfl, fun hv => ⟨rfl, hv⟩⟩

theorem local_pure (a : α) : Local (pure a : Action ε α) := local_ofExcept (.ok a)

theorem local_throw (e : ε) : Local (throw e : Action ε α) := local_ofExcept (.error e)

theorem local_look (f : World → α) : Local (look f : Action ε α) :=
  fun _ => ⟨rfl, fun hv => ⟨rfl, hv⟩⟩

theorem local_change {f : World → World} (hrequests : ∀ w, (f w).trace.requests = w.trace.requests)
    (hverdicts : ∀ w, (f w).verdicts = w.verdicts) : Local (change f : Action ε Unit) :=
  fun w => ⟨hrequests w, fun hv => ⟨rfl, (hverdicts w).trans hv⟩⟩

theorem local_note (n : Notice) : Local (note n : Action ε Unit) :=
  local_change (fun _ => rfl) fun _ => rfl

theorem local_stamp : Local (stamp : Action ε Timestamp) := fun _ => ⟨rfl, fun hv => ⟨rfl, hv⟩⟩

theorem Local.bind {f : α → Action ε β} (hx : Local x) (hf : ∀ a, Local (f a)) :
    Local (x >>= f) := by
  intro w
  have hx := hx w
  rw [exec_bind]
  revert hx
  rcases x.exec w with ⟨_ | e | a, next⟩
  · exact fun hx => ⟨hx.1, fun hv => absurd (hx.2 hv).1 Bool.false_ne_true⟩
  · exact fun hx => ⟨hx.1, fun hv => ⟨rfl, (hx.2 hv).2⟩⟩
  · exact fun hx => ⟨(hf a next).1.trans hx.1, fun hv => (hf a next).2 (hx.2 hv).2⟩

theorem Local.attempt (hx : Local x) : Local (x.attempt : Action δ (Except ε α)) := by
  intro w
  have hx := hx w
  rw [exec_attempt]
  revert hx
  rcases x.exec w with ⟨_ | r, next⟩
  · exact id
  · exact fun hx => ⟨hx.1, fun hv => ⟨rfl, (hx.2 hv).2⟩⟩

theorem Local.mapError {f : ε → δ} (hx : Local x) : Local (x.mapError f) := by
  unfold Action.mapError
  refine hx.attempt.bind fun r => ?_
  cases r with
  | ok a => exact local_pure a
  | error e => exact local_throw (f e)

/-- What is done behind an action, whether it fails or not. -/
theorem Local.finally {f : World → World} (hx : Local x)
    (hf : Local (change f : Action ε Unit)) :
    Local (do let r ← x.attempt; change f; ofExcept r) :=
  hx.attempt.bind fun r => hf.bind fun _ => local_ofExcept r

/-! ### Work on files -/

/-- The verdicts that let one file operation fail; a write leaves so many bytes behind. -/
def faultAfter (k written : Nat) : List Verdict := List.replicate k .proceed ++ [.fail written]

/-- The action works on files only. -/
structure Filing (x : Action ε α) : Prop where
  isLocal : Local x
  /-- No lock is taken or given back, and no flight opened or closed. -/
  steady : ∀ w, (x.exec w).2.locks = w.locks ∧ (x.exec w).2.flights = w.flights
  /-- What comes before a fault is done as if nothing disturbed it. -/
  fault : ∀ w k written, w.verdicts = [] →
    (∃ j, x.exec { w with verdicts := faultAfter k written } =
      ((x.exec w).1, { (x.exec w).2 with verdicts := faultAfter j written })) ∨
    (x.exec { w with verdicts := faultAfter k written }).2.verdicts = []

theorem filing_ofExcept (r : Except ε α) : Filing (ofExcept r) where
  isLocal := local_ofExcept r
  steady := fun _ => ⟨rfl, rfl⟩
  fault := fun _ k _ _ => .inl ⟨k, rfl⟩

theorem filing_pure (a : α) : Filing (pure a : Action ε α) := filing_ofExcept (.ok a)

theorem filing_throw (e : ε) : Filing (throw e : Action ε α) := filing_ofExcept (.error e)

theorem filing_note (n : Notice) : Filing (note n : Action ε Unit) where
  isLocal := local_note n
  steady := fun _ => ⟨rfl, rfl⟩
  fault := fun _ k _ _ => .inl ⟨k, rfl⟩

theorem filing_stamp : Filing (stamp : Action ε Timestamp) where
  isLocal := local_stamp
  steady := fun _ => ⟨rfl, rfl⟩
  fault := fun _ k _ _ => .inl ⟨k, rfl⟩

theorem Filing.bind {f : α → Action ε β} (hx : Filing x) (hf : ∀ a, Filing (f a)) :
    Filing (x >>= f) where
  isLocal := hx.isLocal.bind fun a => (hf a).isLocal
  steady := by
    intro w
    have hx := hx.steady w
    rw [exec_bind]
    revert hx
    rcases x.exec w with ⟨_ | e | a, next⟩
    · exact id
    · exact id
    · exact fun hx => ⟨((hf a).steady next).1.trans hx.1, ((hf a).steady next).2.trans hx.2⟩
  fault := by
    intro w k written hv
    have hnone := (hx.isLocal w).2 hv
    rw [exec_bind, exec_bind]
    rcases hx.fault w k written hv with ⟨j, heq⟩ | hmet
    · -- the fault is left for what follows
      rw [heq]
      revert hnone
      rcases x.exec w with ⟨_ | e | a, next⟩
      · exact fun _ => .inl ⟨j, rfl⟩
      · exact fun _ => .inl ⟨j, rfl⟩
      · exact fun hnone => (hf a).fault next j written hnone.2
    · right
      revert hmet
      rcases x.exec { w with verdicts := faultAfter k written } with ⟨_ | e | a, next⟩
      · exact id
      · exact id
      · exact fun hmet => (((hf a).isLocal next).2 hmet).2

theorem Filing.attempt (hx : Filing x) : Filing (x.attempt : Action δ (Except ε α)) where
  isLocal := hx.isLocal.attempt
  steady := by
    intro w
    have hx := hx.steady w
    rw [exec_attempt]
    revert hx
    rcases x.exec w with ⟨_ | r, next⟩
    · exact id
    · exact id
  fault := by
    intro w k written hv
    rw [exec_attempt, exec_attempt]
    rcases hx.fault w k written hv with ⟨j, heq⟩ | hmet
    · rw [heq]
      rcases x.exec w with ⟨_ | r, next⟩
      · exact .inl ⟨j, rfl⟩
      · exact .inl ⟨j, rfl⟩
    · right
      revert hmet
      rcases x.exec { w with verdicts := faultAfter k written } with ⟨_ | r, next⟩
      · exact id
      · exact id

theorem Filing.mapError {f : ε → δ} (hx : Filing x) : Filing (x.mapError f) := by
  unfold Action.mapError
  refine hx.attempt.bind fun r => ?_
  cases r with
  | ok a => exact filing_pure a
  | error e => exact filing_throw (f e)

/-! ### File operations -/

theorem local_operate (op : Disk → Except FileFault (α × Disk)) (torn : Nat → Disk → Disk) :
    Local (operate op torn) := by
  intro w
  unfold operate
  rw [exec_of]
  refine ⟨?_, fun hv => ?_⟩
  · rcases w.verdicts.head?.getD .proceed with _ | n | n
    · rcases op w.disk with fault | ⟨a, d⟩ <;> rfl
    · rfl
    · rfl
  · rw [hv]
    simp only [List.head?_nil, Option.getD_none, List.tail_nil]
    rcases op w.disk with fault | ⟨a, d⟩
    · exact ⟨rfl, rfl⟩
    · exact ⟨rfl, rfl⟩

theorem filing_operate (op : Disk → Except FileFault (α × Disk)) (torn : Nat → Disk → Disk) :
    Filing (operate op torn) where
  isLocal := local_operate op torn
  steady := by
    intro w
    unfold operate
    rw [exec_of]
    rcases w.verdicts.head?.getD .proceed with _ | n | n
    · rcases op w.disk with fault | ⟨a, d⟩ <;> exact ⟨rfl, rfl⟩
    · exact ⟨rfl, rfl⟩
    · exact ⟨rfl, rfl⟩
  fault := by
    intro w k written hv
    unfold operate
    rw [exec_of, exec_of]
    cases k with
    | zero => exact .inr rfl
    | succ k =>
      refine .inl ⟨k, ?_⟩
      simp only [faultAfter, List.replicate_succ, List.cons_append, List.head?_cons,
        Option.getD_some, List.tail_cons, hv, List.head?_nil, Option.getD_none]
      rcases op w.disk with fault | ⟨a, d⟩ <;> rfl

theorem filing_inspect (op : Disk → Except FileFault α) : Filing (inspect op) := filing_operate _ _

theorem filing_alter (op : Disk → Except FileFault Disk) : Filing (alter op) := filing_operate _ _

theorem filing_removeIfPresent (p : Path) : Filing (removeIfPresent p) := by
  unfold removeIfPresent
  refine (filing_alter _).attempt.bind fun r => ?_
  split
  · exact filing_pure _
  · exact filing_pure _
  · exact filing_throw _

theorem filing_makeDirectory (p : Path) : Filing (makeDirectory p) := by
  unfold makeDirectory
  refine (filing_alter _).attempt.bind fun r => ?_
  split
  · exact filing_pure _
  · exact filing_throw _
  · refine (filing_inspect _).bind fun there => ?_
    split
    · exact filing_pure _
    · exact filing_throw _

theorem filing_makeDirectories (p : Path) : Filing (makeDirectories p) := by
  have hall : ∀ (depth : Nat) (q : Path), Filing (makeDirectoriesTo q depth) := by
    intro depth
    induction depth with
    | zero => exact fun q => filing_makeDirectory q
    | succ depth ih =>
      intro q
      unfold makeDirectoriesTo
      refine (filing_makeDirectory q).attempt.bind fun r => ?_
      split
      · exact (ih q.parent).bind fun _ => filing_makeDirectory q
      · exact filing_pure _
      · exact filing_throw _
  exact hall _ p

end DatasetCatalog.Action

/-! ### Calls of a cache -/

namespace DatasetCatalog.Cache

open DatasetCatalog.Action

variable {ε α : Type} {c : Cache} {id : Int}

theorem local_takeLock (c : Cache) (id : Int) : Local (c.takeLock id) := by
  unfold takeLock
  refine (filing_makeDirectories _).isLocal.mapError.bind fun _ => ?_
  refine (filing_inspect _).isLocal.mapError.bind fun _ => ?_
  refine (local_look _).bind fun held => ?_
  split
  · exact (local_throw _).bind fun _ => local_change (fun _ => rfl) fun _ => rfl
  · exact local_change (fun _ => rfl) fun _ => rfl

theorem local_releaseLock (c : Cache) (id : Int) : Local (c.releaseLock id : Action ε Unit) :=
  local_change (fun _ => rfl) fun _ => rfl

theorem local_land (c : Cache) (id : Int) : Local (c.land id : Action ε Unit) :=
  local_change (fun _ => rfl) fun _ => rfl

theorem filing_readMarker (path : Path) : Filing (readMarker path : Action ε (Option Marker)) := by
  unfold readMarker
  refine (filing_inspect _).attempt.bind fun r => ?_
  split
  · exact filing_pure _
  · exact (filing_note _).bind fun _ => filing_pure _
  · split
    · exact filing_pure _
    · exact (filing_note _).bind fun _ => filing_pure _
    · exact (filing_note _).bind fun _ => filing_pure _

theorem filing_readData (path : Path) (m : Marker) : Filing (readData path m) := by
  unfold readData
  refine (filing_inspect _).bind fun there => ?_
  split
  · refine (filing_inspect _).bind fun size => ?_
    split
    · exact (filing_inspect _).bind fun _ => filing_pure _
    · exact filing_pure _
  · exact filing_pure _

theorem filing_readEntry (c : Cache) (id : Int) : Filing (c.readEntry id) := by
  unfold readEntry
  refine (filing_readMarker _).bind fun found => ?_
  cases found with
  | none =>
    refine (filing_inspect _).mapError.bind fun there => ?_
    split
    · exact (filing_note _).bind fun _ => filing_pure _
    · exact filing_pure _
  | some m =>
    refine (filing_readData _ _).mapError.bind fun data => ?_
    cases data with
    | none => exact (filing_note _).bind fun _ => filing_pure _
    | some data =>
      dsimp only
      split
      · exact filing_pure _
      · exact (filing_note _).bind fun _ => filing_pure _

theorem local_probe (c : Cache) (id : Int) : Local (c.probe id) := by
  unfold probe
  refine (local_takeLock c id).mapError.bind fun _ => ?_
  refine (filing_readEntry c id).isLocal.attempt.bind fun r => ?_
  split
  · exact local_pure _
  · exact (local_releaseLock c id).bind fun _ => local_pure _
  · exact (local_releaseLock c id).bind fun _ => local_throw _

/-- What getting begins with when no other caller has to be waited for. -/
def depart (c : Cache) (id : Int) : Action (GetError ε) (Option Artifact) := do
  Action.change fun w => { w with flights := (c.number, id) :: w.flights }
  match ← (c.probe id).attempt with
  | .ok none => return none
  | .ok (some artifact) =>
    c.land id
    return some artifact
  | .error e =>
    c.land id
    throw (c.settle id e)

theorem local_depart (c : Cache) (id : Int) : Local (c.depart id : Action (GetError ε) _) := by
  unfold depart
  refine Local.bind (local_change (fun _ => rfl) fun _ => rfl) fun _ => ?_
  refine (local_probe c id).attempt.bind fun r => ?_
  split
  · exact local_pure _
  · exact (local_land c id).bind fun _ => local_pure _
  · exact (local_land c id).bind fun _ => local_throw _

/-- Getting begins by waiting for another caller, or without one. -/
theorem exec_begin (c : Cache) (id : Int) (timeout : Option Number) (w : World) :
    (c.begin id timeout : Action (GetError ε) _).exec w =
      if (c.number, id) ∈ w.flights then (wait id timeout).exec w else (c.depart id).exec w := by
  unfold begin inFlight
  rw [exec_bind, exec_look]
  by_cases hflight : (c.number, id) ∈ w.flights
  · rw [decide_eq_true hflight, if_pos hflight]
    dsimp only
    rw [if_pos rfl]
  · rw [decide_eq_false hflight, if_neg hflight]
    dsimp only
    rw [if_neg Bool.false_ne_true]
    rfl

theorem requests_begin (c : Cache) (id : Int) (timeout : Option Number) (w : World) :
    ((c.begin id timeout : Action (GetError ε) _).exec w).2.trace.requests = w.trace.requests := by
  rw [exec_begin]
  split
  · cases timeout <;> rfl
  · exact (local_depart c id w).1

/-- Getting begins and ends, when nobody has to be waited for and the process is not stopped. -/
theorem ends_begin (c : Cache) {id : Int} (timeout : Option Number) {w : World}
    (hflight : (c.number, id) ∉ w.flights) (hv : w.verdicts = []) :
    ((c.begin id timeout : Action (GetError ε) _).exec w).1.isSome = true ∧
      ((c.begin id timeout : Action (GetError ε) _).exec w).2.verdicts = [] := by
  rw [exec_begin, if_neg hflight]
  exact (local_depart c id w).2 hv

theorem filing_check (id : Int) (data : ByteArray) (expected : Option String) :
    Filing (check (ε := ε) id data expected) := by
  unfold check
  split
  · exact filing_pure _
  · exact filing_pure _
  · split
    · exact filing_pure _
    · exact (filing_note _).bind fun _ => filing_throw _

theorem filing_sweep (path : Path) : Filing (sweep path : Action ε Unit) := by
  unfold sweep
  refine (filing_removeIfPresent path).attempt.bind fun r => ?_
  split
  · exact filing_pure _
  · exact filing_note _

theorem filing_placeEntry (c : Cache) (id : Int) (data : ByteArray) (m : Marker) :
    Filing (c.placeEntry id data m) := by
  unfold placeEntry
  refine (filing_makeDirectories _).bind fun _ => ?_
  refine (filing_removeIfPresent _).bind fun _ => ?_
  refine (filing_operate _ _).bind fun _ => (filing_alter _).bind fun _ => ?_
  exact (filing_operate _ _).bind fun _ => filing_alter _

theorem filing_writeEntry (c : Cache) (id : Int) (data : ByteArray) :
    Filing (c.writeEntry id data) := by
  unfold writeEntry
  refine filing_stamp.bind fun moment => (filing_placeEntry c id data _).attempt.bind fun r => ?_
  split
  · exact filing_pure _
  · exact (filing_sweep _).bind fun _ => (filing_sweep _).bind fun _ => filing_throw _

theorem filing_store (c : Cache) (id : Int) (expected : Option String) (fetched : Fetched ε) :
    Filing (c.store id expected fetched) := by
  cases fetched with
  | bytes data =>
    exact (filing_check id data expected).bind fun _ => (filing_writeEntry c id data).mapError
  | other | fetchError | storageError | failure | interruption => exact filing_throw _

theorem local_complete (c : Cache) (id : Int) (expected : Option String) (fetched : Fetched ε) :
    Local (c.complete id expected fetched) :=
  ((filing_store c id expected fetched).isLocal.finally (local_releaseLock c id)).finally
    (local_land c id)

end DatasetCatalog.Cache
