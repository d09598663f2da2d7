import DatasetCatalog.Proofs.Cache.Calls
import DatasetCatalog.Proofs.Cache.Listing

/-! # Consistency of a cache over whole runs

  A run begins with an empty directory. In each step a cache is opened there and called, in any
  world that has the disk as it is: whatever becomes of the file operations of the call, and
  whether the process stops in the middle of it, the next step goes on with the disk that is left.
  After every run the cache keeps its promise: markers stand beside the data that they record,
  entries are what is listed, and what is found without a fetch is what was stored last.
-/

namespace DatasetCatalog.Cache

open DatasetCatalog.Action DatasetCatalog.Path

variable {ε : Type} {root : Path} {stored : History} {d : Disk}

/-! ### Runs -/

/-- A call of a cache. -/
inductive Command (ε : Type) where
  | get (r : Request ε)
  | evict (name : DatasetName)
  | prune (limit : Int)
  | clear

namespace Command

/-- What a request for an artifact comes to. -/
def outcome (c : Cache) (r : Request ε) (w : World) : Option (Except (GetError ε) Artifact) :=
  ((c.getOrFetch r.dataset r.expected r.timeout r.fetch).exec w).1

/-- The request comes to the point where its own fetch is run. -/
def fetches (c : Cache) (r : Request ε) (w : World) : Bool :=
  match ((c.begin r.dataset r.timeout : Action (GetError ε) (Option Artifact)).exec w).1 with
  | some (.ok none) => true
  | _ => false

/-- The world after a call, whether it ends or the process stops in it. -/
def after (c : Cache) (w : World) : Command ε → World
  | get r => ((c.getOrFetch r.dataset r.expected r.timeout r.fetch).exec w).2
  | evict name => ((c.evict name).exec w).2
  | prune limit => ((c.prune limit).exec w).2
  | clear => (c.clear.exec w).2

/-- What a call stores: the data that a request has fetched, when its writing is completed. -/
def stores (c : Cache) (w : World) : Command ε → History
  | get r => match fetches c r w, outcome c r w with
    | true, some (.ok a) => [(r.dataset, a.data)]
    | _, _ => []
  | _ => []

/-- Nobody else changes the files: the fetch of a request leaves the disk alone. -/
def Undisturbed : Command ε → Prop
  | get r => ∀ w, (r.fetch.exec w).2.disk = w.disk
  | _ => True

end Command

/-- The disks that runs over a directory lead to, with what has been stored, the latest first. -/
inductive Run (ε : Type) (root : Path) : Disk → History → Prop where
  | start {d : Disk} (empty : d.list root = []) : Run ε root d []
  /-- A cache is opened in a world with the disk, and called. -/
  | step {d : Disk} {stored : History} (run : Run ε root d stored) (number : Nat) {w : World}
      (same : w.disk = d) {command : Command ε} (undisturbed : command.Undisturbed) :
      Run ε root (command.after (opened root number) w).disk
        (command.stores (opened root number) w ++ stored)

/-! ### Steps -/

/-- What a request does when there is no entry. -/
def fetchMissing (c : Cache) (r : Request ε) : Action (GetError ε) Artifact := do
  c.complete r.dataset r.expected (← r.fetch.mapError Empty.elim)

/-- A request ends with what it begins with, unless a fetch is due. -/
theorem exec_getOrFetch_eq (c : Cache) (r : Request ε) (w : World) :
    (c.getOrFetch r.dataset r.expected r.timeout r.fetch).exec w =
      match (c.begin r.dataset r.timeout : Action (GetError ε) (Option Artifact)).exec w with
      | (none, next) => (none, next)
      | (some (.error e), next) => (some (.error e), next)
      | (some (.ok (some a)), next) => (some (.ok a), next)
      | (some (.ok none), next) => (c.fetchMissing r).exec next := by
  unfold getOrFetch
  rw [exec_bind]
  rcases (c.begin r.dataset r.timeout : Action (GetError ε) (Option Artifact)).exec w with
    ⟨_ | _ | _ | a, next⟩ <;> rfl

/-- A request for an artifact keeps the files consistent, with what it has stored. -/
theorem consistent_get (hroot : root.WellFormed) {w : World} (h : Consistent root stored w.disk)
    (n : Nat) (r : Request ε) (hfetch : ∀ w, (r.fetch.exec w).2.disk = w.disk) :
    Consistent root ((Command.get r).stores (opened root n) w ++ stored)
      ((Command.get r).after (opened root n) w).disk := by
  have hbegin := triple_begin (ε := ε) (n := n) hroot r.dataset r.timeout w h
  have hmissing : Triple (Consistent root stored) ((opened root n).fetchMissing r)
      (fun a d => Consistent root ((r.dataset, a.data) :: stored) d) (Consistent root stored) :=
    (keeps_of_disk_eq hfetch).mapError.bind fun fetched =>
      triple_complete hroot r.dataset r.expected fetched
  unfold Command.after Command.stores Command.fetches Command.outcome
  simp only [exec_getOrFetch_eq]
  revert hbegin
  -- the process stops, it fails, a fetch is due, or the entry is there
  rcases ((opened root n).begin r.dataset r.timeout : Action (GetError ε) _).exec w with
    ⟨_ | _ | _ | a, next⟩
  · exact id
  · exact id
  · intro hbegin
    have hended := hmissing next hbegin.1
    revert hended
    simp only
    rcases ((opened root n).fetchMissing r).exec next with ⟨_ | _ | a, last⟩
    · exact id
    · exact id
    · exact id
  · exact fun hbegin => hbegin.1

theorem consistent_command (hroot : root.WellFormed) {w : World}
    (h : Consistent root stored w.disk) (n : Nat) {command : Command ε}
    (hcommand : command.Undisturbed) :
    Consistent root (command.stores (opened root n) w ++ stored)
      (command.after (opened root n) w).disk := by
  cases command with
  | get r => exact consistent_get hroot h n r hcommand
  | evict name => exact (keeps_evict hroot name).disk h
  | prune limit => exact (keeps_prune (keeps_evict hroot) limit).disk h
  | clear => exact (keeps_clear hroot).disk h

/-- Every run keeps the files of the cache consistent. -/
theorem Run.consistent (h : Run ε root d stored) (hroot : root.WellFormed) :
    Consistent root stored d := by
  -- each call begins with the disk that the calls before it have left
  induction h with
  | start empty => exact .of_empty empty
  | step run number same undisturbed ih =>
    subst same
    exact consistent_command hroot ih number undisturbed

/-! ### The promise -/

/-- **The promise of a cache**, as it stands after what has been stored, the latest first. -/
structure Faithful (ε : Type) (root : Path) (stored : History) (d : Disk) : Prop where
  /-- Beside a marker there is the data, of the size and the digest that the marker records. -/
  marked : ∀ (n : Nat) (id : Int) (bytes : ByteArray),
    d.read ((opened root n).markerPath id) = .ok bytes → ∃ data moment,
      d.read ((opened root n).dataPath id) = .ok data ∧
      bytes = (Marker.ofData id "arff" data moment).toBytes ∧
      ∀ m, Marker.ofBytes bytes = .fields m →
        m.hasSize data.size = true ∧ m.hasDigest data = true
  /-- Markers can be read, unless they hold a number of too many digits. -/
  readable : ∀ (n : Nat) (id : Int) (bytes data : ByteArray),
    d.read ((opened root n).markerPath id) = .ok bytes →
    d.read ((opened root n).dataPath id) = .ok data → data.size < 10 ^ Numeral.digitLimit →
    ∃ m, Marker.ofBytes bytes = .fields m
  /-- When nothing disturbs the reading, a data set has an entry exactly when it is listed. -/
  contains_iff : ∀ (n : Nat) (w : World), w.disk = d → w.verdicts = [] → ∀ id : Int,
    (((opened root n).contains id).exec w).1 = some (.ok true) ↔
      ∃ es, ((opened root n).entries.exec w).1 = some (.ok es) ∧ id ∈ es.map (·.dataset)
  /-- There is a listing, unless the directory cannot be looked at. -/
  lists : ∀ (n : Nat) (w : World), w.disk = d → w.verdicts = [] →
    (∃ es, ((opened root n).entries.exec w).1 = some (.ok es)) ∨ d.present root = .error .refused
  /-- The listed sizes and digests are those of the data. -/
  sizes : ∀ (n : Nat) (w : World), w.disk = d → w.verdicts = [] → ∀ es : List Entry,
    ((opened root n).entries.exec w).1 = some (.ok es) → ∀ entry ∈ es,
      entry.path = (opened root n).dataPath entry.dataset ∧ ∃ data, d.read entry.path = .ok data ∧
        entry.size = data.size ∧ entry.digest = Digest.sha256 data
  /-- Whatever becomes of the file operations, a request that ends well without its own fetch gets
      what was stored last for its data set. -/
  returned : ∀ (n : Nat) (w : World), w.disk = d → ∀ (r : Request ε) (a : Artifact),
    Command.fetches (opened root n) r w = false →
    Command.outcome (opened root n) r w = some (.ok a) → stored.lookup r.dataset = some a.data

/-- What a request gets without its own fetch was stored last. -/
theorem lookup_of_not_fetches (hroot : root.WellFormed) {n : Nat} {w : World}
    (h : Consistent root stored w.disk) {r : Request ε} {a : Artifact}
    (hfetches : Command.fetches (opened root n) r w = false)
    (ha : Command.outcome (opened root n) r w = some (.ok a)) :
    stored.lookup r.dataset = some a.data := by
  have hbegin := triple_begin (ε := ε) (n := n) hroot r.dataset r.timeout w h
  revert hbegin hfetches ha
  unfold Command.fetches Command.outcome
  rw [exec_getOrFetch_eq]
  rcases ((opened root n).begin r.dataset r.timeout : Action (GetError ε) _).exec w with
    ⟨_ | _ | _ | found, next⟩
  · exact fun _ => nofun
  · exact fun _ => nofun
  · exact nofun
  · intro _ ha hbegin
    obtain rfl := Except.ok.inj (Option.some.inj ha)
    exact hbegin.2 found rfl

/-- **Consistency over whole runs**: whatever the calls, whatever becomes of their file operations,
    and wherever the process stops, the cache keeps its promise. -/
theorem faithful_of_run (hroot : root.WellFormed) (h : Run ε root d stored) :
    Faithful ε root stored d := by
  have hd := h.consistent hroot
  exact {
    marked := by
      intro n id bytes hread
      obtain ⟨data, moment, -, hdata, hbytes⟩ := hd.read_data hread
      refine ⟨data, moment, hdata, hbytes, fun m hm => ?_⟩
      rw [hbytes, Marker.ofBytes_toBytes (by decide)] at hm
      split at hm
      · obtain rfl := Marker.Reading.fields.inj hm
        exact ⟨Marker.hasSize_ofData, Marker.hasDigest_ofData⟩
      · cases hm
    readable := by
      -- the identifier stands in a file name, which has fewer bytes than a numeral may have digits
      intro n id bytes data hread hdata hsize
      obtain ⟨data', moment, -, hdata', hbytes⟩ := hd.read_data hread
      obtain rfl : data' = data := Except.ok.inj (hdata'.symm.trans hdata)
      obtain ⟨-, hlength, -⟩ := (Disk.read_child_eq_ok_iff (isEntryName_markerName id)).1 hread
      have hid := fitsInteger_of_markerName hlength
      have hfits : fitsInteger data'.size = true :=
        decide_eq_true ((Nat.length_toDigits_le_iff (by decide) (by decide)).2 hsize)
      refine ⟨Marker.ofData id "arff" data' moment, ?_⟩
      rw [hbytes, Marker.ofBytes_toBytes (by decide), hid, hfits]
      rfl
    contains_iff := fun n w hw hv id => contains_iff_listed hd hw hv id
    lists := by
      intro n w hw hv
      obtain ⟨-, -, hentries⟩ | ⟨fault, hfault, -⟩ := entries_cases (n := n) hd hw hv
      · exact .inl ⟨_, hentries⟩
      · exact .inr (hfault ▸ congrArg Except.error (Disk.eq_refused_of_present hfault))
    sizes := fun n w hw hv es hes entry hentry => read_of_listed hd hw hv hes hentry
    returned := by
      rintro n w rfl r a hfetches ha
      exact lookup_of_not_fetches hroot hd hfetches ha }

/-- A run goes on in the world that its last call has left, with verdicts on what comes next. -/
theorem Run.call {w : World} (h : Run ε root w.disk stored) (n : Nat) (verdicts : List Verdict)
    (command : Command ε) (hcommand : command.Undisturbed) :
    Run ε root (command.after (opened root n) { w with verdicts }).disk
      (command.stores (opened root n) { w with verdicts } ++ stored) :=
  h.step n (w := { w with verdicts }) rfl hcommand

/-- An artifact is stored, and its eviction is broken off when only the marker is gone. -/
theorem faithful_of_broken_off_eviction : ∃ d : Disk,
    d.read ((opened (.ofText "cache") 0).markerPath 1) = .error .missing ∧
      d.read ((opened (.ofText "cache") 0).dataPath 1) = .ok ⟨#[1, 2, 3]⟩ ∧
      Run Empty (.ofText "cache") d [(1, ⟨#[1, 2, 3]⟩)] ∧
      Faithful Empty (.ofText "cache") [(1, ⟨#[1, 2, 3]⟩)] d := by
  let get : Command Empty := .get ⟨1, none, none, pure (.bytes ⟨#[1, 2, 3]⟩)⟩
  have hstart : Run Empty (.ofText "cache") ({} : World).disk [] := .start (by decide +kernel)
  have hget : Run Empty (.ofText "cache") (get.after (opened (.ofText "cache") 0) {}).disk
      (get.stores (opened (.ofText "cache") 0) {}) := by
    have h := hstart.call 0 [] get fun _ => rfl
    rwa [List.append_nil] at h
  have hstored : get.stores (opened (.ofText "cache") 0) {} = [(1, ⟨#[1, 2, 3]⟩)] := by
    decide +kernel
  rw [hstored] at hget
  -- six operations take the lock and remove the marker
  have hevict := hget.call 0 (List.replicate 6 .proceed ++ [.stop 0]) (.evict (.ofInt 1)) trivial
  refine ⟨_, ?_, ?_, hevict, faithful_of_run (Path.wellFormed_ofText "cache") hevict⟩
  · decide +kernel
  · decide +kernel

end DatasetCatalog.Cache
