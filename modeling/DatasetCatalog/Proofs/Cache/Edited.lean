import DatasetCatalog.Proofs.Cache.Errors

/-! # Caches with edited files

  The listing takes the size of a marker for an integer. A marker whose size is none, a misfit,
  counts as absent where its own data set is asked for, but it ends the listing and every call that
  begins with it. Nothing else that stands in the files of a cache makes these calls fail but with
  storage errors, unless a marker is nested too deeply to be read.
-/

namespace DatasetCatalog.Cache

open DatasetCatalog.Action DatasetCatalog.Path

variable {root : Path} {n : Nat} {c : Cache} {id : Int} {d : Disk} {m : Marker}

/-! ### Misfits alone -/

/-- A size that is no integer is the size of no data. -/
theorem hasSize_of_misfit {fault : IntegerFault} (h : (m.value "size").toInteger = .error fault)
    (size : Nat) : m.hasSize size = false := by
  unfold Marker.hasSize
  cases hvalue : m.value "size" with
  | null | str | arr | obj => rfl
  | bool b =>
    rw [hvalue] at h
    exact absurd h nofun
  | number s =>
    rw [hvalue] at h
    cases s with
    | int k => exact absurd h nofun
    | float x =>
      -- neither an infinity nor what is not a number equals an integer
      cases x with
      | nan => rfl
      | infinite negative => cases negative <;> rfl
      | finite negative k e canonical => exact absurd h nofun

theorem exists_sizeOf_of_present {path : Path} (h : d.present path = .ok true) :
    ∃ size, d.sizeOf path = .ok size := by
  unfold Disk.present at h
  unfold Disk.sizeOf
  cases hlook : d.look path with
  | ok node => cases node <;> exact ⟨_, rfl⟩
  | error fault =>
    rw [hlook] at h
    cases fault <;> simp at h

/-- **A misfit counts as absent** where its own entry is asked for. -/
theorem gives_contains_of_misfit (hm : markerAt d (root.child (markerName id)) = some m)
    {fault : IntegerFault} (hsize : (m.value "size").toInteger = .error fault) :
    Gives d ((opened root n).contains id) (.ok false) := by
  obtain ⟨there, hthere⟩ := exists_present_dataName hm
  have hmarker := gives_readMarker (ε := CacheError) d (root.child (markerName id))
  rw [hm] at hmarker
  have hpresent : Gives d (Action.present (root.child (dataName id))) (.ok there) :=
    hthere ▸ gives_inspect _
  have hdata : Gives d (readData (root.child (dataName id)) m) (.ok none) := by
    unfold readData
    refine hpresent.bind ?_
    cases there with
    | false => exact gives_pure none
    | true =>
      have hfile : Gives d (Action.fileSize (root.child (dataName id)))
          (d.sizeOf (root.child (dataName id))) := gives_inspect _
      obtain ⟨size, hsizeOf⟩ := exists_sizeOf_of_present hthere
      rw [hsizeOf] at hfile
      refine hfile.bind ?_
      rw [hasSize_of_misfit hsize]
      exact gives_pure none
  have hentry : Gives d ((opened root n).readEntry id) (.ok none) := by
    unfold readEntry
    refine hmarker.bind (hdata.mapError.bind ?_)
    exact (gives_note _).bind (gives_pure none)
  exact hentry.bind (gives_pure false)

/-! ### The listing -/

/-- The fault of a marker that cannot be listed. -/
def faultAt (c : Cache) (d : Disk) (name : String) : Option IntegerFault :=
  (markerAt d (c.root.child name)).bind fun m => match c.entryOf name m with
    | .error fault => some fault
    | .ok _ => none

/-- The faults of the misfits, in the order of their names. -/
def misfits (c : Cache) (d : Disk) : List IntegerFault :=
  (markerNames d c.root).filterMap (c.faultAt d)

/-- The first misfit ends the listing. -/
theorem gives_entriesOf_error (c : Cache) (d : Disk) {names : List String} {fault : IntegerFault}
    (h : (names.filterMap (c.faultAt d)).head? = some fault) :
    Gives d (c.entriesOf names) (.error (.size fault)) := by
  induction names with
  | nil => exact absurd h nofun
  | cons name names ih =>
    have hmarker := gives_readMarker (ε := CacheError) d (c.root.child name)
    unfold entriesOf
    refine hmarker.bind ?_
    cases hm : markerAt d (c.root.child name) with
    | none =>
      rw [List.filterMap_cons_none (by simp [faultAt, hm])] at h
      exact ih h
    | some m =>
      have hof := gives_ofExcept (d := d) (c.entryOf name m)
      cases hentry : c.entryOf name m with
      | error fault' =>
        -- this marker is the first misfit
        have hfault : c.faultAt d name = some fault' := by simp [faultAt, hm, hentry]
        rw [List.filterMap_cons_some hfault] at h
        obtain rfl := Option.some.inj h
        rw [hentry] at hof
        simp only
        rw [hentry]
        exact hof.mapError.bind_error
      | ok entry =>
        -- this marker fits, and the entry made of it is lost with the others
        rw [List.filterMap_cons_none (by simp [faultAt, hm, hentry])] at h
        rw [hentry] at hof
        simp only
        rw [hentry]
        exact hof.mapError.bind (ih h).bind_error

/-- Without misfits everything is listed. -/
theorem gives_entries_of_fit {there : Bool} (hthere : d.present c.root = .ok there)
    (h : c.misfits d = []) : Gives d c.entries (.ok (c.listing d)) := by
  have hentry : ∀ name ∈ markerNames d c.root, ∀ m, markerAt d (c.root.child name) = some m →
      ∃ entry, c.entryOf name m = .ok entry := by
    intro name hname m hm
    have hfault : c.faultAt d name = none := List.filterMap_eq_nil_iff.1 h name hname
    cases hof : c.entryOf name m with
    | ok entry => exact ⟨entry, rfl⟩
    | error fault =>
      rw [faultAt, hm, Option.bind_some, hof] at hfault
      exact absurd hfault nofun
  unfold entries
  exact (gives_namesEnding hthere _).bind ((gives_entriesOf c d hentry).bind (gives_pure _))

/-- With a misfit nothing is listed. -/
theorem gives_entries_of_misfit {there : Bool} (hthere : d.present c.root = .ok there)
    {fault : IntegerFault} (h : (c.misfits d).head? = some fault) :
    Gives d c.entries (.error (.size fault)) := by
  unfold entries
  exact (gives_namesEnding hthere _).bind (gives_entriesOf_error c d h).bind_error

/-- The misfits are the markers that are named after a data set and whose size is no integer. -/
theorem mem_misfits_iff {fault : IntegerFault} : fault ∈ c.misfits d ↔
    ∃ name ∈ markerNames d c.root, ∃ id m, datasetOfName? name = some id ∧
      markerAt d (c.root.child name) = some m ∧ (m.value "size").toInteger = .error fault := by
  have hfault : ∀ name, c.faultAt d name = some fault ↔ ∃ id m, datasetOfName? name = some id ∧
      markerAt d (c.root.child name) = some m ∧ (m.value "size").toInteger = .error fault := by
    intro name
    unfold faultAt entryOf
    cases hm : markerAt d (c.root.child name) with
    | none => simp
    | some m =>
      cases hid : datasetOfName? name with
      | none => simp
      | some id => cases hsize : (m.value "size").toInteger <;> simp [hsize]
  rw [misfits, List.mem_filterMap]
  exact exists_congr fun name => and_congr_right fun _ => hfault name

/-! ### Maintenance -/

theorem gives_prune_error {limit : Int} (hlimit : 0 ≤ limit) {e : CacheError}
    (h : Gives d c.entries (.error e)) : Gives d (c.prune limit) (.error e) := by
  unfold prune
  rw [if_neg (Int.not_lt.2 hlimit)]
  exact h.bind_error

theorem gives_clear_error {e : CacheError} (h : Gives d c.entries (.error e)) :
    Gives d c.clear (.error e) := by
  unfold clear
  exact h.bind_error

/-- Pruning what is listed fails with storage errors only. -/
theorem finishes_prune {limit : Int} (hlimit : 0 ≤ limit) {w : World} (hv : w.verdicts = [])
    {es : List Entry} (h : Gives w.disk c.entries (.ok es)) :
    Finishes CacheError.IsStorage (c.prune limit) w := by
  unfold prune
  rw [if_neg (Int.not_lt.2 hlimit)]
  refine (h.settles_ok.finishes hv).bind fun entries next _ hv' => ?_
  exact (confined_pruneFrom c limit _ entries).finishes hv'

/-- Evictions leave the directory where it is. -/
theorem keeps_evict_directory (name : DatasetName) :
    Keeps (fun d => d.isDirectory root = true) ((opened root n).evict name) := by
  have hmake : Keeps (fun d => d.isDirectory root = true) (makeDirectories (locksOf root)) :=
    keeps_makeDirectories_of (C := fun _ => True) trivial (fun _ _ => trivial)
      fun _ _ _ _ hdir hmake => Disk.isDirectory_of_makeDirectory hmake hdir
  have hremove : ∀ {name}, IsEntryName name →
      Keeps (fun d => d.isDirectory root = true) (removeIfThere (root.child name)) := by
    intro name hname
    refine triple_removeIfThere ?_ (fun _ hdir _ => hdir) fun _ hdir => hdir
    intro d d' hdir hremove
    obtain ⟨-, hsame, -⟩ := Disk.remove_child_eq_ok hname hremove
    exact (hsame.isDirectory hname).trans hdir
  unfold evict
  refine ((triple_takeLock hmake _).mono fun _ _ hdir => hdir.1).mapError.bind fun _ => ?_
  refine triple_thenRelease (Triple.mapError ?_)
  refine (hremove (isEntryName_markerName _)).bind fun marker => ?_
  exact (hremove (isEntryName_dataName _)).bind fun data => keeps_pure _

/-- Clearing what is listed fails with storage errors only. -/
theorem finishes_clear {w : World} (hv : w.verdicts = []) {there : Bool}
    (hthere : w.disk.present root = .ok there) (h : (opened root n).misfits w.disk = []) :
    Finishes CacheError.IsStorage (opened root n).clear w := by
  have hentries := gives_entries_of_fit (c := opened root n) hthere h
  unfold clear
  refine (hentries.settles_ok.finishes hv).bind fun es next hlisted hv' => ?_
  obtain ⟨trace, hexec, -⟩ := hentries w rfl hv
  obtain ⟨hes, rfl⟩ := Prod.mk.inj (hexec.symm.trans hlisted)
  obtain rfl := Except.ok.inj (Option.some.inj hes)
  refine ((confined_evictAll _ _).finishes hv').bind fun count last hevicted hlast => ?_
  -- the directory is still there, or there was none and nothing has been evicted
  have hpresent : ∃ there, last.disk.present root = .ok there := by
    cases hdir : w.disk.isDirectory root with
    | true =>
      have hevict : ∀ name, Keeps (fun d => d.isDirectory root = true)
          ((opened root n).evict name) := keeps_evict_directory
      have hkept := (keeps_evictAll hevict ((opened root n).listing w.disk)).disk
        (w := { w with trace }) hdir
      rw [hevicted] at hkept
      exact ⟨true, by rw [Disk.present, Disk.isDirectory_eq_true_iff.1 hkept]⟩
    | false =>
      have hnone : (opened root n).listing w.disk = [] := by
        simp [listing, markerNames, hdir]
      rw [hnone] at hevicted
      obtain ⟨-, rfl⟩ := Prod.mk.inj hevicted
      exact ⟨there, hthere⟩
  obtain ⟨there', hthere'⟩ := hpresent
  refine ((gives_namesEnding (c := opened root n) hthere' partSuffix).settles_ok.finishes
    hlast).bind fun names final _ hfinal => ?_
  exact ((confined_sweepAll _ names).finishes hfinal).bind
    fun _ _ _ hswept => finishes_pure count hswept

/-! ### Deep markers -/

/-- How deeply brackets are nested in a text, of which `depth` stand open; those in strings do not
    count. -/
def nestingFrom (inString : Bool) (depth : Nat) : List Char → Nat
  | [] => depth
  | '\\' :: _ :: rest => nestingFrom inString depth rest
  | c :: rest =>
    if c = '"' then nestingFrom (!inString) depth rest
    else if inString then nestingFrom true depth rest
    else if c = '[' ∨ c = '\x7b' then nestingFrom false (depth + 1) rest
    else if c = ']' ∨ c = '\x7d' then max depth (nestingFrom false (depth - 1) rest)
    else nestingFrom false depth rest

/-- How deeply the text of bytes is nested. -/
def nesting (bytes : ByteArray) : Nat :=
  match String.fromUTF8? bytes with
  | some s => nestingFrom false 0 s.toList
  | none => 0

/-- What is nested no more deeply is read: it takes half of the calls that may be open at once. -/
def deepestNesting : Nat := 500

/-- A cache whose files may hold anything, but for markers that are nested too deeply to be read. No
    file operation is made to fail. -/
structure Edited (root : Path) (w : World) : Prop where
  undisturbed : w.verdicts = []
  /-- The disk tells whether the directory is there. -/
  there : ∃ there, w.disk.present root = .ok there
  shallow : ∀ name ∈ markerNames w.disk root, ∀ bytes,
    w.disk.read (root.child name) = .ok bytes → nesting bytes ≤ deepestNesting

/-! ### All calls -/

/-- How the calls of a cache end, whatever its files hold. -/
structure Withstands (root : Path) (n : Nat) (w : World) : Prop where
  /-- Asking for an entry fails with storage errors only, where the disk takes the name of its
      data. -/
  contains : ∀ id, w.disk.present (root.child (dataName id)) ≠ .error .refused →
    Finishes CacheError.IsStorage ((opened root n).contains id) w
  /-- A name that is too long for the disk is an error of its own. -/
  refused : ∀ id, w.disk.present (root.child (dataName id)) = .error .refused →
    (((opened root n).contains id).exec w).1 = some (.error (.file .refused))
  evict : ∀ name, Finishes CacheError.IsStorage ((opened root n).evict name) w
  /-- So does getting, unless another caller is waited for; an announced digest is checked. -/
  get : ∀ {ε : Type} id expected timeout (fetch : Action Empty (Fetched ε)), FetchesBytes fetch →
    (n, id) ∉ w.flights → Finishes (GetError.IsAllowed expected)
      ((opened root n).getOrFetch id expected timeout fetch) w
  /-- Without misfits, listing does not fail, and maintenance with storage errors only. -/
  fit : (opened root n).misfits w.disk = [] →
    ((opened root n).entries.exec w).1 = some (.ok ((opened root n).listing w.disk)) ∧
    ((opened root n).total.exec w).1 = some (.ok (sizeOf ((opened root n).listing w.disk))) ∧
    (∀ limit, 0 ≤ limit → Finishes CacheError.IsStorage ((opened root n).prune limit) w) ∧
    Finishes CacheError.IsStorage (opened root n).clear w
  /-- With misfits, the first one is the error of all of them. -/
  misfit : ∀ fault, ((opened root n).misfits w.disk).head? = some fault →
    ((opened root n).entries.exec w).1 = some (.error (.size fault)) ∧
    ((opened root n).total.exec w).1 = some (.error (.size fault)) ∧
    (∀ limit, 0 ≤ limit → (((opened root n).prune limit).exec w).1 = some (.error (.size fault))) ∧
    ((opened root n).clear.exec w).1 = some (.error (.size fault))
  /-- A marker whose size is no integer counts as absent itself, and is a misfit. -/
  absent : ∀ id m fault, markerAt w.disk (root.child (markerName id)) = some m →
    (m.value "size").toInteger = .error fault →
    (((opened root n).contains id).exec w).1 = some (.ok false) ∧
      fault ∈ (opened root n).misfits w.disk

/-- **Edited files count as absent in every call for a single data set**, which fails with storage
    errors only; the calls for all data sets do so unless there is a misfit, which makes all of them
    fail. -/
theorem withstands_unless_misfit {w : World} (h : Edited root w) : Withstands root n w where
  contains := fun id hpresent =>
    (settles_contains (c := opened root n) hpresent).finishes h.undisturbed
  refused := fun id hrefused => (gives_contains_of_refused hrefused).outcome rfl h.undisturbed
  evict := fun name => (confined_evict _ name).finishes h.undisturbed
  get := fun id expected timeout fetch hfetch hflight =>
    finishes_getOrFetch hfetch hflight h.undisturbed
  fit := by
    intro hfit
    have hv := h.undisturbed
    obtain ⟨there, hthere⟩ := h.there
    have hentries := gives_entries_of_fit (c := opened root n) hthere hfit
    exact ⟨hentries.outcome rfl hv, (gives_total hentries).outcome rfl hv,
      fun limit hlimit => finishes_prune hlimit hv hentries, finishes_clear hv hthere hfit⟩
  misfit := by
    intro fault hfault
    have hv := h.undisturbed
    obtain ⟨there, hthere⟩ := h.there
    have hentries := gives_entries_of_misfit (c := opened root n) hthere hfault
    exact ⟨hentries.outcome rfl hv, (gives_total hentries).outcome rfl hv,
      fun limit hlimit => (gives_prune_error hlimit hentries).outcome rfl hv,
      (gives_clear_error hentries).outcome rfl hv⟩
  absent := by
    intro id m fault hm hsize
    refine ⟨(gives_contains_of_misfit hm hsize).outcome rfl h.undisturbed, mem_misfits_iff.2 ?_⟩
    have hfits := fitsInteger_of_markerName (directory_of_markerAt hm).2
    exact ⟨markerName id, markerName_mem_markerNames hm, id, m, datasetOfName?_markerName hfits,
      hm, hsize⟩

/-- A cache whose only file is a marker without a size. -/
def editedWorld : World where
  disk := ⟨[(⟨0, ["cache"]⟩, .directory),
    (⟨0, ["cache", "61.meta.json"]⟩, .file "\x7b\"size\": null, \"sha256\": 5\x7d".toUTF8)]⟩

/-- The marker counts as absent, and nothing can be listed, summed up, pruned or cleared. -/
theorem withstands_marker_without_size :
    Edited ⟨0, ["cache"]⟩ editedWorld ∧
    (((opened ⟨0, ["cache"]⟩ 0).contains 61).exec editedWorld).1 = some (.ok false) ∧
    ((opened ⟨0, ["cache"]⟩ 0).entries.exec editedWorld).1 = some (.error (.size .type)) ∧
    ((opened ⟨0, ["cache"]⟩ 0).total.exec editedWorld).1 = some (.error (.size .type)) ∧
    (((opened ⟨0, ["cache"]⟩ 0).prune 0).exec editedWorld).1 = some (.error (.size .type)) ∧
    ((opened ⟨0, ["cache"]⟩ 0).clear.exec editedWorld).1 = some (.error (.size .type)) := by
  have hedited : Edited ⟨0, ["cache"]⟩ editedWorld := by
    refine ⟨rfl, ⟨true, by decide +kernel⟩, ?_⟩
    have hnames : markerNames editedWorld.disk ⟨0, ["cache"]⟩ = ["61.meta.json"] := by
      decide +kernel
    have hread : editedWorld.disk.read (child ⟨0, ["cache"]⟩ "61.meta.json") =
        .ok "\x7b\"size\": null, \"sha256\": 5\x7d".toUTF8 := by decide +kernel
    intro name hname bytes hbytes
    rw [hnames] at hname
    obtain rfl := List.mem_singleton.1 hname
    obtain rfl := Except.ok.inj (hread.symm.trans hbytes)
    decide +kernel
  have hwithstands : Withstands ⟨0, ["cache"]⟩ 0 editedWorld := withstands_unless_misfit hedited
  have hmisfits : ((opened ⟨0, ["cache"]⟩ 0).misfits editedWorld.disk).head? = some .type := by
    decide +kernel
  have hsize : (markerAt editedWorld.disk (child ⟨0, ["cache"]⟩ (markerName 61))).map
      (fun m => (m.value "size").toInteger) = some (.error .type) := by decide +kernel
  obtain ⟨m, hm, hnone⟩ := Option.map_eq_some_iff.1 hsize
  obtain ⟨hentries, htotal, hprune, hclear⟩ := hwithstands.misfit .type hmisfits
  exact ⟨hedited, (hwithstands.absent 61 m .type hm hnone).1, hentries, htotal,
    hprune 0 le_rfl, hclear⟩

end DatasetCatalog.Cache
