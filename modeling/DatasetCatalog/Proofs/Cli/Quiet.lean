import DatasetCatalog.Proofs.Cache.Calls
import DatasetCatalog.Proofs.Catalog.Exchange
import DatasetCatalog.Proofs.Cli.TableFiles
import DatasetCatalog.Proofs.Load.Bring
import DatasetCatalog.Proofs.Moves

/-! # What is done before anything is printed

  Settings are read, the catalog is asked, and a cache reads, stores and removes its files, all of
  it quietly: no line is printed, no connection is opened or closed, and no table file comes to be,
  whatever becomes of the file operations. The files that a cache writes have other ends than those
  of tables.
-/

namespace DatasetCatalog

open DatasetCatalog.Action DatasetCatalog.Path

/-- The same has been printed, and the same connections have been opened and closed. -/
structure Trace.SameOutput (t t' : Trace) : Prop where
  lines : t'.lines = t.lines
  connections : t'.connections = t.connections

instance : Std.Refl Trace.SameOutput := ⟨fun _ => ⟨rfl, rfl⟩⟩

instance : IsTrans Trace Trace.SameOutput :=
  ⟨fun _ _ _ h h' => ⟨h'.lines.trans h.lines, h'.connections.trans h.connections⟩⟩

namespace Action

variable {ε δ α : Type} {p : Path}

/-- The action prints nothing, opens and closes no connection, and makes no table file. -/
abbrev Quiet (x : Action ε α) : Prop := Moves Disk.NoNewTable Trace.SameOutput x

theorem quiet_note (n : Notice) : Quiet (note n : Action ε Unit) :=
  moves_change (fun _ => rfl) fun _ => ⟨rfl, rfl⟩

theorem quiet_makeDirectories (p : Path) : Quiet (makeDirectories p) :=
  moves_makeDirectories (fun _ _ _ => Disk.noNewTable_makeDirectory) p

theorem quiet_remove (p : Path) : Quiet (remove p) :=
  moves_alter fun _ _ => Disk.noNewTable_remove

theorem quiet_removeIfPresent (p : Path) : Quiet (removeIfPresent p) :=
  moves_removeIfPresent fun _ _ => Disk.noNewTable_remove

theorem quiet_writeBytes (hp : ¬p.resolved.IsTable) (bytes : ByteArray) :
    Quiet (writeBytes p bytes) :=
  moves_writeBytes (fun _ _ _ => Disk.noNewTable_write hp) bytes

theorem quiet_rename {q : Path} (hq : ¬q.resolved.IsTable) : Quiet (rename p q) :=
  moves_alter fun _ _ => Disk.noNewTable_rename hq

end Action

/-! ### Caches -/

namespace Cache

variable {ε α : Type} {root : Path} {n : Nat}

theorem not_isTable_child {name : String} (front ending : String) (h : IsEntryName name)
    (hname : name = front ++ "." ++ ending)
    (hending : ending ∈ ["arff", "json", "part"]) : ¬(root.child name).resolved.IsTable := by
  have hlast : (root.child name).resolved.name = front ++ "." ++ ending := by
    rw [resolved_child root h, ← hname]
    simp [inside, Path.name]
  exact Path.not_isTable_of_name hlast hending

theorem not_isTable_data (root : Path) (id : Int) :
    ¬(root.child (dataName id)).resolved.IsTable :=
  not_isTable_child (integerText id) "arff" (isEntryName_dataName id) rfl (by simp)

theorem not_isTable_marker (root : Path) (id : Int) :
    ¬(root.child (markerName id)).resolved.IsTable :=
  not_isTable_child (integerText id ++ ".meta") "json" (isEntryName_markerName id)
    (by rw [String.append_assoc, String.append_assoc]; rfl) (by simp)

theorem not_isTable_part {name : String} (root : Path) (h : IsEntryName (name ++ partSuffix)) :
    ¬(root.child (name ++ partSuffix)).resolved.IsTable :=
  not_isTable_child name "part" h (by rw [String.append_assoc]; rfl) (by simp)

theorem quiet_takeLock (c : Cache) (id : Int) : Quiet (c.takeLock id) := by
  unfold takeLock
  refine (quiet_makeDirectories _).mapError.bind fun _ => ?_
  refine (moves_inspect _).mapError.bind fun _ => ?_
  refine (moves_look _).bind fun held => ?_
  split
  · exact (moves_throw _).bind fun _ => moves_of_eq (fun _ => rfl) fun _ => rfl
  · exact moves_of_eq (fun _ => rfl) fun _ => rfl

theorem quiet_releaseLock (c : Cache) (id : Int) : Quiet (c.releaseLock id : Action ε Unit) :=
  moves_of_eq (fun _ => rfl) fun _ => rfl

theorem quiet_land (c : Cache) (id : Int) : Quiet (c.land id : Action ε Unit) :=
  moves_of_eq (fun _ => rfl) fun _ => rfl

theorem quiet_readMarker (path : Path) : Quiet (readMarker path : Action ε (Option Marker)) := by
  unfold readMarker
  refine (moves_inspect _).attempt.bind fun r => ?_
  split
  · exact moves_pure _
  · exact (quiet_note _).bind fun _ => moves_pure _
  · split
    · exact moves_pure _
    · exact (quiet_note _).bind fun _ => moves_pure _
    · exact (quiet_note _).bind fun _ => moves_pure _

theorem quiet_readEntry (c : Cache) (id : Int) : Quiet (c.readEntry id) := by
  have hdata : ∀ path m, Quiet (readData path m) := by
    intro path m
    unfold readData
    refine (moves_inspect _).bind fun there => ?_
    split
    · refine (moves_inspect _).bind fun size => ?_
      split
      · exact (moves_inspect _).bind fun _ => moves_pure _
      · exact moves_pure _
    · exact moves_pure _
  unfold readEntry
  refine (quiet_readMarker _).bind fun found => ?_
  cases found with
  | none =>
    refine (moves_inspect _).mapError.bind fun there => ?_
    split
    · exact (quiet_note _).bind fun _ => moves_pure _
    · exact moves_pure _
  | some m =>
    refine (hdata _ m).mapError.bind fun data => ?_
    cases data with
    | none => exact (quiet_note _).bind fun _ => moves_pure _
    | some data =>
      dsimp only
      split
      · exact moves_pure _
      · exact (quiet_note _).bind fun _ => moves_pure _

theorem quiet_begin (c : Cache) (id : Int) (timeout : Option Number) :
    Quiet (c.begin id timeout : Action (GetError ε) _) := by
  have hprobe : Quiet (c.probe id) := by
    unfold probe
    refine (quiet_takeLock c id).mapError.bind fun _ => ?_
    refine (quiet_readEntry c id).attempt.bind fun r => ?_
    split
    · exact moves_pure _
    · exact (quiet_releaseLock c id).bind fun _ => moves_pure _
    · exact (quiet_releaseLock c id).bind fun _ => moves_throw _
  unfold begin
  refine (moves_look _).bind fun flying => ?_
  split
  · cases timeout with
    | some seconds => exact moves_throw _
    | none => exact moves_stopped
  · refine Moves.bind (moves_of_eq (fun _ => rfl) fun _ => rfl) fun _ => ?_
    refine hprobe.attempt.bind fun r => ?_
    split
    · exact moves_pure _
    · exact (quiet_land c id).bind fun _ => moves_pure _
    · exact (quiet_land c id).bind fun _ => moves_throw _

/-- None of the files that are put into place is a table. -/
theorem quiet_placeEntry (root : Path) (n : Nat) (id : Int) (data : ByteArray) (m : Marker) :
    Quiet ((opened root n).placeEntry id data m) := by
  unfold placeEntry
  simp only [dataPath_opened, markerPath_opened, addSuffix_dataName, addSuffix_markerName]
  refine (quiet_makeDirectories _).bind fun _ => (quiet_removeIfPresent _).bind fun _ => ?_
  refine (quiet_writeBytes (not_isTable_part root (isEntryName_dataPart id)) _).bind fun _ => ?_
  refine (quiet_rename (not_isTable_data root id)).bind fun _ => ?_
  refine (quiet_writeBytes (not_isTable_part root (isEntryName_markerPart id)) _).bind fun _ => ?_
  exact quiet_rename (not_isTable_marker root id)

theorem quiet_writeEntry (root : Path) (n : Nat) (id : Int) (data : ByteArray) :
    Quiet ((opened root n).writeEntry id data) := by
  have hsweep : ∀ path, Quiet (sweep path : Action StorageError Unit) := by
    intro path
    unfold sweep
    refine (quiet_removeIfPresent path).attempt.bind fun r => ?_
    split
    · exact moves_pure _
    · exact quiet_note _
  unfold writeEntry
  refine moves_stamp.bind fun moment => ?_
  refine (quiet_placeEntry root n id data _).attempt.bind fun r => ?_
  split
  · exact moves_pure _
  · exact (hsweep _).bind fun _ => (hsweep _).bind fun _ => moves_throw _

theorem quiet_store (root : Path) (n : Nat) (id : Int) (expected : Option String)
    (fetched : Fetched ε) : Quiet ((opened root n).store id expected fetched) := by
  have hcheck : ∀ data, Quiet (check (ε := ε) id data expected) := by
    intro data
    unfold check
    split
    · exact moves_pure _
    · exact moves_pure _
    · split
      · exact moves_pure _
      · exact (quiet_note _).bind fun _ => moves_throw _
  cases fetched with
  | bytes data => exact (hcheck data).bind fun _ => (quiet_writeEntry root n id data).mapError
  | other | fetchError | storageError | failure | interruption => exact moves_throw _

/-- **An artifact is got quietly** when it is fetched quietly. -/
theorem quiet_getOrFetch (root : Path) (n : Nat) (id : Int) (expected : Option String)
    (timeout : Option Number) {fetch : Action Empty (Fetched ε)} (hfetch : Quiet fetch) :
    Quiet ((opened root n).getOrFetch id expected timeout fetch) := by
  unfold getOrFetch
  refine (quiet_begin _ id timeout).bind fun found => ?_
  cases found with
  | some artifact => exact moves_pure _
  | none =>
    refine hfetch.mapError.bind fun fetched => ?_
    exact ((quiet_store root n id expected fetched).finally (quiet_releaseLock _ id)).finally
      (quiet_land _ id)

/-! ### Listing and removing -/

theorem quiet_namesEnding (c : Cache) (suffix : String) : Quiet (c.namesEnding suffix) := by
  unfold namesEnding
  refine (moves_inspect _).mapError.bind fun there => ?_
  split
  · exact (moves_inspect _).mapError.bind fun names => moves_pure _
  · exact moves_pure _

theorem quiet_entries (c : Cache) : Quiet c.entries := by
  have hall : ∀ names, Quiet (c.entriesOf names) := by
    intro names
    induction names with
    | nil => exact moves_pure _
    | cons name names ih =>
      unfold entriesOf
      refine (quiet_readMarker _).bind fun found => ?_
      cases found with
      | none => exact ih
      | some m =>
        refine (moves_ofExcept _).mapError.bind fun entry => ?_
        exact ih.bind fun entries => moves_pure _
  unfold entries
  exact (quiet_namesEnding c _).bind fun names => (hall names).bind fun _ => moves_pure _

theorem quiet_evict (c : Cache) (name : DatasetName) : Quiet (c.evict name) := by
  have hremove : ∀ path, Quiet (removeIfThere path) := by
    intro path
    unfold removeIfThere
    refine (moves_inspect _).bind fun there => ?_
    split
    · exact (quiet_remove path).bind fun _ => moves_pure _
    · exact moves_pure _
  unfold evict
  refine (quiet_takeLock c _).mapError.bind fun _ => ?_
  refine Moves.finally (Moves.mapError ?_) (quiet_releaseLock c _)
  exact (hremove _).bind fun marker => (hremove _).bind fun data => moves_pure _

theorem quiet_pruneFrom (c : Cache) (limit total : Int) (entries : List Entry) :
    Quiet (c.pruneFrom limit total entries) := by
  induction entries generalizing total with
  | nil => exact moves_pure _
  | cons entry rest ih =>
    unfold pruneFrom
    split
    · exact moves_pure _
    · refine (moves_look _).bind fun flying => ?_
      split
      · exact ih total
      · refine (quiet_evict c _).bind fun removed => ?_
        split
        · exact (ih _).bind fun _ => moves_pure _
        · exact ih total

theorem quiet_prune (c : Cache) (limit : Int) : Quiet (c.prune limit) := by
  have hentries : Quiet (do
      let entries ← c.entries
      c.pruneFrom limit (sizeOf entries) entries) :=
    (quiet_entries c).bind fun _ => quiet_pruneFrom c _ _ _
  unfold prune
  split
  · exact (moves_throw _).bind fun _ => hentries
  · exact hentries

theorem quiet_clear (c : Cache) : Quiet c.clear := by
  have hevict : ∀ entries, Quiet (c.evictAll entries) := by
    intro entries
    induction entries with
    | nil => exact moves_pure _
    | cons entry rest ih =>
      unfold evictAll
      exact (quiet_evict c _).bind fun removed => ih.bind fun count => moves_pure _
  have hsweep : ∀ names, Quiet (c.sweepAll names) := by
    intro names
    induction names with
    | nil => exact moves_pure _
    | cons name rest ih =>
      unfold sweepAll
      exact (quiet_removeIfPresent _).mapError.bind fun _ => ih
  unfold clear
  refine (quiet_entries c).bind fun entries => (hevict entries).bind fun count => ?_
  exact (quiet_namesEnding c _).bind fun names => (hsweep names).bind fun _ => moves_pure _

end Cache

/-! ### Asking the catalog -/

namespace Catalog.Client

variable {α β : Type}

/-- The exchange changes requests and notices only. -/
def Discreet (x : Exchange α) : Prop := ∀ t, Trace.SameOutput t (run x t).2

theorem discreet_pure (a : α) : Discreet (pure a) := fun t => Std.Refl.refl t

theorem discreet_throw (e : ClientError) : Discreet (throw e : Exchange α) :=
  fun t => Std.Refl.refl t

theorem Discreet.bind {x : Exchange α} {f : α → Exchange β} (hx : Discreet x)
    (hf : ∀ a, Discreet (f a)) : Discreet (x >>= f) := by
  intro t
  have hfirst := hx t
  rw [run_bind]
  revert hfirst
  rcases run x t with ⟨_ | a, next⟩
  · exact id
  · intro hfirst
    exact IsTrans.trans _ _ _ hfirst (hf a next)

theorem discreet_get (c : Client) (path : String) (decode : Json → Except DecodeError α)
    {meaning : NetworkError → Exchange α} (h : ∀ e, Discreet (meaning e)) :
    Discreet (c.get path decode meaning) := by
  intro t
  have hrequest : Trace.SameOutput t (t.request (Request.address c.settings path)) := ⟨rfl, rfl⟩
  rw [run_get]
  cases c.transport t.requests (Request.address c.settings path) with
  | ok bytes => exact hrequest
  | error e => exact IsTrans.trans _ _ _ hrequest (h e _)

theorem discreet_failure (e : NetworkError) : Discreet (failure e : Exchange α) :=
  discreet_throw _

theorem discreet_listTags (c : Client) : Discreet c.listTags :=
  discreet_get c _ _ discreet_failure

theorem discreet_listDatasets (c : Client) (tag : Option String) (filter : FilterChoice) :
    Discreet (c.listDatasets tag filter) := by
  unfold listDatasets
  split
  · exact discreet_throw _
  · refine discreet_get c _ _ fun e => ?_
    split
    · exact discreet_pure _
    · exact discreet_failure e

theorem discreet_attributes (c : Client) (id : Int) : Discreet (c.attributes id) := by
  refine discreet_get c _ _ fun e => ?_
  split
  · split
    · have hnote : Discreet (note (.attributesPending id)) := fun t => ⟨rfl, rfl⟩
      exact hnote.bind fun _ => discreet_pure _
    · exact discreet_failure e
  · exact discreet_failure e

theorem discreet_describe (c : Client) (id : Int) : Discreet (c.describe id) := by
  have hasked : Discreet (do
      let d ← c.get (Request.description id) (Response.description c.settings.strictDecoding)
        fun e =>
          if e.status? = some 404 ∨ serviceCode e = some unknownDataset then
            throw (.notFound id (some e))
          else failure e
      return { d with attributes := ← c.attributes id }) := by
    refine (discreet_get c _ _ fun e => ?_).bind fun d => ?_
    · split
      · exact discreet_throw _
      · exact discreet_failure e
    · exact (discreet_attributes c id).bind fun _ => discreet_pure _
  unfold describe
  split
  · exact (discreet_throw _).bind fun _ => hasked
  · exact hasked

theorem discreet_download (c : Client) (d : Description) : Discreet (c.download d) := by
  have hfetch : ∀ url, Discreet (c.fetch url) := fun url t => ⟨rfl, rfl⟩
  unfold download
  refine (hfetch _).bind fun answer => ?_
  cases answer with
  | ok bytes => exact discreet_pure _
  | error e => exact discreet_failure e

end Catalog.Client

/-! ### Loading -/

namespace Load

open Catalog

theorem quiet_exchange {α : Type} {x : Exchange α} (h : Client.Discreet x) :
    Quiet (exchange x) := by
  intro w
  rw [exec_exchange]
  exact ⟨Std.Refl.refl w.disk, h w.trace⟩

theorem quiet_bring (client : Client) (name : DatasetName) : Quiet (bring client name) := by
  have hverified : ∀ d data, Quiet (verified name d data : Action Empty _) := by
    intro d data
    unfold verified
    split
    · exact moves_pure _
    · exact moves_pure _
    · split
      · exact moves_pure _
      · exact (quiet_note _).bind fun _ => moves_pure _
  unfold bring
  refine (quiet_exchange (client.discreet_describe name.id)).attempt.bind fun r => ?_
  cases r with
  | error e => exact moves_pure _
  | ok d =>
    dsimp only
    split
    · refine (quiet_exchange (client.discreet_download d)).attempt.bind fun answer => ?_
      cases answer with
      | error e => exact moves_pure _
      | ok data => exact hverified d data
    · exact moves_pure _

end Load

/-- **A data set is loaded quietly.** -/
theorem quiet_load (libraries : FrameLibraries) (client : Catalog.Client) (root : Path) (n : Nat)
    (name : DatasetName) (options : LoadOptions libraries.Frame) :
    Quiet (load libraries client (Cache.opened root n) name options) := by
  have hnotes : ∀ notices : List Notice, Quiet (forIn notices PUnit.unit fun notice _ => do
      Action.note notice
      pure (ForInStep.yield PUnit.unit) : Action LoadError PUnit) := by
    intro notices
    induction notices with
    | nil => exact moves_pure _
    | cons notice rest ih =>
      simp only [List.forIn_cons, bind_assoc, pure_bind]
      exact (quiet_note notice).bind fun _ => ih
  unfold load
  split
  · exact moves_throw _
  · refine (Cache.quiet_getOrFetch root n _ none none (Load.quiet_bring client name)).mapError.bind
      fun artifact => ?_
    exact (hnotes _).bind fun _ => moves_ofExcept _

end DatasetCatalog
