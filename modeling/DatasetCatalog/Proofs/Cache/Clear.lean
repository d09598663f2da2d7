import DatasetCatalog.Proofs.Cache.Stocked

/-! # What clearing a cache leaves behind

  Clearing evicts the entries that are listed and removes the files that were being written. A data
  set is listed by its marker, so clearing reaches the data that has a marker. Data without one is
  what a write leaves that fails when the data is in its place, or an eviction that fails when the
  marker is gone; clearing passes it by, and nothing else.
-/

namespace DatasetCatalog.Cache

open DatasetCatalog.Action DatasetCatalog.Disk DatasetCatalog.Path

variable {ε : Type} {root : Path} {n : Nat} {id : Int} {name : String} {bytes : ByteArray}
  {stored : History} {F G : String → ByteArray → Prop} {d d' : Disk}

/-! ### The files of a directory -/

/-- The directory holds the given files and no others. -/
structure Holds (root : Path) (F : String → ByteArray → Prop) (d : Disk) : Prop where
  stocked : Stocked root d
  files : ∀ name bytes, d.file? root name = some bytes ↔ F name bytes

/-- The files but for one name. -/
abbrev Without (F : String → ByteArray → Prop) (name : String) : String → ByteArray → Prop :=
  fun other bytes => F other bytes ∧ other ≠ name

namespace Holds

theorem congr (h : Holds root F d) (heq : ∀ name bytes, F name bytes ↔ G name bytes) :
    Holds root G d where
  stocked := h.stocked
  files := fun name bytes => (h.files name bytes).trans (heq name bytes)

theorem makeDirectory {q : Path} (h : Holds root F d) (hroot : root.WellFormed)
    (hq : OnTheWay root q) (hmake : d.makeDirectory q = .ok d') : Holds root F d' where
  stocked := h.stocked.makeDirectory hroot hq hmake
  files := by
    intro name bytes
    rw [← h.files]
    constructor
    · exact file?_of_makeDirectory hmake
    · intro hfile
      rw [file?_makeDirectory hmake (h.stocked.own name bytes hfile).1.isEntryName.ne_up]
      exact hfile

theorem erase (h : Holds root F d) (hname : IsEntryName name) :
    Holds root (Without F name) (d.erase (root.child name)) where
  stocked := h.stocked.erase hname
  files := by
    intro other bytes
    rw [file?_erase_child d hname]
    by_cases hother : other = name
    · rw [hother, Function.update_self]
      exact ⟨nofun, fun hfile => absurd rfl hfile.2⟩
    · rw [Function.update_of_ne hother, h.files]
      exact ⟨fun hfile => ⟨hfile, hother⟩, And.left⟩

/-- Where nothing is found under a name, there is no file of it. -/
theorem of_lacks (h : Holds root F d) (hlacks : d.Lacks root name) :
    Holds root (Without F name) d where
  stocked := h.stocked
  files := by
    intro other bytes
    rw [h.files]
    refine ⟨fun hfile => ⟨hfile, ?_⟩, And.left⟩
    rintro rfl
    have hfile := (h.files other bytes).2 hfile
    rw [hlacks (h.stocked.isDirectory hfile)] at hfile
    exact absurd hfile nofun

end Holds

/-! ### Removing -/

theorem triple_removeIfThere_holds (hname : IsEntryName name) :
    Triple (Holds root F) (removeIfThere (root.child name))
      (fun _ => Holds root (Without F name)) (fun _ => True) := by
  refine triple_removeIfThere ?_ ?_ fun _ _ => trivial
  · intro d d' h hremove
    obtain ⟨-, rfl⟩ := remove_child hname hremove
    exact h.erase hname
  · intro d h habsent
    exact h.of_lacks (lacks_of_present hname habsent)

theorem triple_removeIfPresent_holds (hname : IsEntryName name) :
    Triple (Holds root F) (removeIfPresent (root.child name))
      (fun _ => Holds root (Without F name)) (fun _ => True) := by
  refine triple_removeIfPresent ?_ ?_ fun _ _ => trivial
  · intro d d' h hremove
    obtain ⟨-, rfl⟩ := remove_child hname hremove
    exact h.erase hname
  · intro d h hmissing
    exact h.of_lacks (lacks_of_missing hname hmissing)

/-- An eviction that ends well has removed marker and data, and nothing else. -/
theorem triple_evict_holds (hroot : root.WellFormed) (name : DatasetName) :
    Triple (Holds root F) ((opened root n).evict name)
      (fun _ => Holds root (Without (Without F (markerName name.id)) (dataName name.id)))
      (fun _ => True) := by
  have hmake : Keeps (Holds root F) (makeDirectories (locksOf root)) :=
    keeps_makeDirectories_of (onTheWay_locks root) (fun _ => OnTheWay.parent)
      fun _ _ _ hq h hmake => h.makeDirectory hroot hq hmake
  have hlock : Triple (Holds root F) ((opened root n).takeLock name.id)
      (fun _ => Holds root F) (fun _ => True) :=
    (triple_takeLock hmake name.id).consequence (fun _ h => h) (fun _ _ h => h.1)
      fun _ _ => trivial
  unfold evict
  refine hlock.mapError.bind fun _ => triple_thenRelease (Triple.mapError ?_)
  refine (triple_removeIfThere_holds (isEntryName_markerName _)).bind fun marker => ?_
  refine (triple_removeIfThere_holds (isEntryName_dataName _)).bind fun data => ?_
  exact triple_pure fun _ h => h

/-- The name is that of the marker or the data of an entry. -/
def Names (entries : List Entry) (name : String) : Prop :=
  ∃ entry ∈ entries, name = markerName entry.dataset ∨ name = dataName entry.dataset

theorem names_cons {entry : Entry} {rest : List Entry} :
    Names (entry :: rest) name ↔
      (name = markerName entry.dataset ∨ name = dataName entry.dataset) ∨ Names rest name := by
  simp [Names]

theorem triple_evictAll_holds (hroot : root.WellFormed) (entries : List Entry) :
    Triple (Holds root F) ((opened root n).evictAll entries)
      (fun _ => Holds root fun name bytes => F name bytes ∧ ¬ Names entries name)
      (fun _ => True) := by
  -- the first eviction leaves fewer files for the others to begin with
  induction entries generalizing F with
  | nil =>
    apply triple_pure
    intro d h
    exact h.congr fun name bytes => ⟨fun hfile => ⟨hfile, nofun⟩, And.left⟩
  | cons entry rest ih =>
    unfold evictAll
    refine (triple_evict_holds hroot _).bind fun removed => ih.bind fun count => ?_
    apply triple_pure
    intro d h
    refine h.congr fun name bytes => ?_
    rw [names_cons, not_or, not_or, ← and_assoc, ← and_assoc]
    rfl

theorem triple_sweepAll_holds {names : List String}
    (hnames : ∀ name ∈ names, IsEntryName name ∧ EndsIn 't' name) :
    Triple (Holds root F) ((opened root n).sweepAll names)
      (fun _ => Holds root fun name bytes => F name bytes ∧ name ∉ names) (fun _ => True) := by
  induction names generalizing F with
  | nil =>
    apply triple_pure
    intro d h
    exact h.congr fun name bytes => ⟨fun hfile => ⟨hfile, List.not_mem_nil⟩, And.left⟩
  | cons first rest ih =>
    obtain ⟨hfirst, hrest⟩ := List.forall_mem_cons.1 hnames
    unfold sweepAll
    refine (triple_removeIfPresent_holds hfirst.1).mapError.bind fun _ => ?_
    refine (ih hrest).mono fun _ d h => ?_
    refine h.congr fun name bytes => ?_
    rw [List.mem_cons, not_or, ← and_assoc]

/-- What clearing does once the entries are known. -/
def clearEntries (c : Cache) (entries : List Entry) : Action CacheError Nat := do
  let count ← c.evictAll entries
  c.sweepAll (← c.namesEnding partSuffix)
  return count

theorem clear_eq (c : Cache) : c.clear = c.entries >>= c.clearEntries := rfl

/-- **Once the entries are known, clearing that ends well removes their files** and those that were
    being written, and nothing else. -/
theorem triple_clearEntries_holds (hroot : root.WellFormed) (entries : List Entry) :
    Triple (Holds root F) ((opened root n).clearEntries entries)
      (fun _ => Holds root fun name bytes =>
        (F name bytes ∧ ¬ Names entries name) ∧ ¬ partSuffix.toList <:+ name.toList)
      (fun _ => True) := by
  unfold clearEntries
  refine (triple_evictAll_holds hroot entries).bind fun count => ?_
  refine ((triple_partNames fun d name h => h.stocked.names name).weaken
    fun _ _ => trivial).bind fun names => ?_
  intro w hw
  obtain ⟨h, hnames, hmem⟩ := hw
  -- of the files, those are swept that end in the suffix
  have hswept : ∀ name bytes, F name bytes ∧ ¬ Names entries name →
      (name ∈ names ↔ partSuffix.toList <:+ name.toList) := by
    intro name bytes hfile
    have hfile := (h.files name bytes).2 hfile
    rw [hmem, and_iff_right (h.stocked.isDirectory hfile),
      and_iff_right (mem_list_of_file? hfile)]
  refine ((triple_sweepAll_holds hnames).bind fun _ => triple_pure ?_) w h
  intro d h
  refine h.congr fun name bytes => ?_
  exact and_congr_right fun hfile => not_congr (hswept name bytes hfile)

/-! ### Listed data sets -/

/-- The name is that of the data of a data set without a marker. -/
def Orphaned (root : Path) (d : Disk) (name : String) : Prop :=
  ∃ id, name = dataName id ∧ d.file? root (markerName id) = none

/-- All files are short enough for their sizes to be read back from a marker. -/
def Short (root : Path) (d : Disk) : Prop :=
  ∀ name bytes, d.file? root name = some bytes → bytes.size < 10 ^ Numeral.digitLimit

/-- **The data sets that are listed are those with a marker.** -/
theorem mem_listing_iff_marker (h : Consistent root stored d) (hstocked : Stocked root d)
    (hshort : Short root d) :
    (∃ entry ∈ (opened root n).listing d, entry.dataset = id) ↔
      ∃ bytes, d.file? root (markerName id) = some bytes := by
  constructor
  · intro hlisted
    obtain ⟨entry, hentry, hid⟩ := hlisted
    obtain ⟨_, data, moment, hm, -, rfl⟩ := (mem_listing_iff h entry).1 hentry
    obtain rfl : _ = id := hid
    obtain ⟨bytes, hread, -⟩ := exists_read_of_markerAt hm
    exact ⟨bytes, ((read_child_eq_ok_iff (isEntryName_markerName _)).1 hread).2.2⟩
  · intro hfile
    obtain ⟨bytes, hfile⟩ := hfile
    have hread := (hstocked.own _ _ hfile).2
    -- its size was that of the data, which is short enough
    obtain ⟨data, moment, hdata, hm⟩ := exists_markerAt_of_read h hread fun data hdata =>
      hshort _ _ ((read_child_eq_ok_iff (isEntryName_dataName id)).1 hdata).2.2
    exact ⟨_, (mem_listing_iff h _).2 ⟨id, data, moment, hm, hdata, rfl⟩, rfl⟩

/-- **Of the files of a cache those are neither listed nor being written that are data without a
    marker.** -/
theorem unlisted_iff (h : Consistent root stored d) (hstocked : Stocked root d)
    (hshort : Short root d) :
    ((d.file? root name = some bytes ∧ ¬ Names ((opened root n).listing d) name) ∧
        ¬ partSuffix.toList <:+ name.toList) ↔
      d.file? root name = some bytes ∧ Orphaned root d name := by
  rw [and_assoc]
  refine and_congr_right fun hfile => ?_
  have hlisted : ∀ id, (∃ entry ∈ (opened root n).listing d, entry.dataset = id) ↔
      ∃ bytes, d.file? root (markerName id) = some bytes := fun id =>
    mem_listing_iff_marker h hstocked hshort
  have hpart : ∀ c, EndsIn c name → c ≠ 't' → ¬ partSuffix.toList <:+ name.toList := by
    intro c hc hne hsuffix
    have hending : EndsIn 't' name := endsIn_of_isSuffix (by rfl) hsuffix
    exact absurd rfl (hc.ne hending hne)
  have hdataMarker : ∀ id other, dataName id ≠ markerName other := fun id other =>
    (endsIn_dataName id).ne (endsIn_markerName other) (by decide)
  obtain ⟨hown, -⟩ := hstocked.own name bytes hfile
  cases hown with
  | data id =>
    -- data is listed when there is its marker
    have hnames : Names ((opened root n).listing d) (dataName id) ↔
        ∃ bytes, d.file? root (markerName id) = some bytes := by
      rw [← hlisted]
      refine exists_congr fun entry => and_congr_right fun _ => ?_
      rw [or_iff_right (hdataMarker id entry.dataset), dataName_injective.eq_iff, eq_comm]
    rw [hnames, and_iff_left (hpart 'f' (endsIn_dataName id) (by decide)), not_exists]
    constructor
    · intro hnone
      exact ⟨id, rfl, Option.eq_none_iff_forall_ne_some.2 hnone⟩
    · intro hdata
      obtain ⟨other, heq, hnone⟩ := hdata
      obtain rfl := dataName_injective heq
      intro bytes hmarker
      rw [hnone] at hmarker
      exact absurd hmarker nofun
  | marker id =>
    -- a marker is listed
    constructor
    · intro hleft
      obtain ⟨entry, hentry, hid⟩ := (hlisted id).2 ⟨bytes, hfile⟩
      exact absurd ⟨entry, hentry, .inl (congrArg markerName hid.symm)⟩ hleft.1
    · intro hdata
      obtain ⟨other, heq, -⟩ := hdata
      exact absurd heq.symm (hdataMarker other id)
  | dataPart id | markerPart id =>
    -- a file that is being written is swept
    constructor
    · intro hleft
      refine absurd ?_ hleft.2
      rw [String.toList_append]
      exact List.suffix_append _ _
    · intro hdata
      obtain ⟨other, heq, -⟩ := hdata
      exact absurd heq ((endsIn_part _).ne (endsIn_dataName other) (by decide))

/-! ### Cleared directories -/

/-- What is left in a directory when its cache is cleared. -/
structure Cleared (root : Path) (d d' : Disk) : Prop where
  /-- The files that are left are the data without a marker that were there before. -/
  files : ∀ name bytes, d'.file? root name = some bytes ↔
    d.file? root name = some bytes ∧ Orphaned root d name
  /-- Beside them there is at most the directory of the locks, unless the path of the cache leads
      through its own directory and up again. -/
  others : ".." ∉ root.names → ∀ name ∈ d'.list root,
    name = ".locks" ∨ ∃ bytes, d'.file? root name = some bytes
  /-- So no file is left exactly when all data had markers. -/
  emptied_iff : (∀ name, d'.file? root name = none) ↔
    ∀ id bytes, d.file? root (dataName id) = some bytes →
      ∃ marker, d.file? root (markerName id) = some marker

/-- What is left follows from the files that are left. -/
theorem Cleared.of_holds
    (h : Holds root (fun name bytes => d.file? root name = some bytes ∧ Orphaned root d name) d') :
    Cleared root d d' where
  files := h.files
  others := by
    intro hup name hmem
    obtain ⟨node, hchild⟩ := Option.isSome_iff_exists.1 (mem_list.1 hmem)
    cases node with
    | directory =>
      -- a cache makes no other directory here
      exact .inl (h.stocked.locks hup name hchild)
    | file bytes => exact .inr ⟨bytes, file?_eq_some_iff.2 hchild⟩
  emptied_iff := by
    constructor
    · intro hnone id bytes hdata
      by_contra hmarker
      have horphaned : Orphaned root d (dataName id) :=
        ⟨id, rfl, Option.eq_none_iff_forall_ne_some.2 fun marker hm => hmarker ⟨marker, hm⟩⟩
      have hleft := (h.files _ _).2 ⟨hdata, horphaned⟩
      rw [hnone] at hleft
      exact absurd hleft nofun
    · intro hmarked name
      apply Option.eq_none_iff_forall_ne_some.2
      intro bytes hleft
      obtain ⟨hfile, id, rfl, hnone⟩ := (h.files name bytes).1 hleft
      obtain ⟨marker, hmarker⟩ := hmarked id bytes hfile
      rw [hnone] at hmarker
      exact absurd hmarker nofun

/-- Clearing that ends well has told the entries. -/
theorem exec_clear_of_ok (h : Consistent root stored d) {w w' : World} {count : Nat}
    (hw : w.disk = d) (hv : w.verdicts = [])
    (hclear : (opened root n).clear.exec w = (some (.ok count), w')) :
    ∃ trace, ((opened root n).clearEntries ((opened root n).listing d)).exec { w with trace } =
      (some (.ok count), w') := by
  rw [clear_eq, exec_bind] at hclear
  cases hthere : d.present root with
  | ok there =>
    obtain ⟨trace, hentries, -⟩ := gives_entries (n := n) h hthere w hw hv
    rw [hentries] at hclear
    exact ⟨trace, hclear⟩
  | error fault =>
    obtain ⟨trace, hentries, -⟩ := gives_entries_error (c := opened root n) hthere w hw hv
    rw [hentries] at hclear
    cases hclear

/-- **What clearing leaves after any run**, whatever became of the calls before: when it ends well,
    undisturbed, the data without a marker is left and no other file. -/
theorem cleared_of_run (hroot : root.WellFormed) (h : Run ε root d stored) (hshort : Short root d)
    {w w' : World} {count : Nat} (hw : w.disk = d) (hv : w.verdicts = [])
    (hclear : (opened root n).clear.exec w = (some (.ok count), w')) :
    Cleared root d w'.disk := by
  have hconsistent := h.consistent hroot
  have hstocked := stocked_of_run hroot h
  obtain ⟨trace, hrest⟩ := exec_clear_of_ok hconsistent hw hv hclear
  have hholds : Holds root (fun name bytes => d.file? root name = some bytes) w.disk := by
    subst hw
    exact ⟨hstocked, fun _ _ => Iff.rfl⟩
  have hleft := triple_clearEntries_holds (n := n) hroot ((opened root n).listing d) { w with trace } hholds
  rw [hrest] at hleft
  apply Cleared.of_holds
  exact hleft.congr fun name bytes => unlisted_iff hconsistent hstocked hshort

/-- When no entry is listed and nothing is being written, clearing finds nothing to remove. -/
theorem gives_clear_of_unlisted (h : Consistent root stored d) {there : Bool}
    (hthere : d.present root = .ok there) (hlisting : (opened root n).listing d = [])
    (hparts : ∀ name ∈ d.list root, ¬ partSuffix.toList <:+ name.toList) :
    Gives d (opened root n).clear (.ok 0) := by
  have hentries := gives_entries (n := n) h hthere
  have hnames := gives_namesEnding (c := opened root n) hthere partSuffix
  have hnone : (if d.isDirectory root then d.list root else []).filter
      (fun name => partSuffix.toList.isSuffixOf name.toList) = [] := by
    rw [List.filter_eq_nil_iff]
    intro name hmem
    rw [List.isSuffixOf_iff_suffix]
    split at hmem
    · exact hparts name hmem
    · exact absurd hmem List.not_mem_nil
  rw [hlisting] at hentries
  rw [show (opened root n).root = root from rfl, hnone] at hnames
  rw [clear_eq]
  refine hentries.bind ?_
  -- nothing to evict, nothing to sweep
  exact (gives_pure 0).bind (hnames.bind ((gives_pure ()).bind (gives_pure 0)))

/-- The data of an artifact is put in its place, and its marker cannot be written. -/
theorem exists_failed_write : ∃ w : World,
    Run Empty (.ofText "cache") w.disk [] ∧ w.verdicts = [] ∧
      w.disk.present (.ofText "cache") = .ok true ∧
      (∀ name ∈ w.disk.list (.ofText "cache"), name = ".locks" ∨ name = "1.arff") ∧
      w.disk.file? (.ofText "cache") ".locks" = none ∧
      w.disk.file? (.ofText "cache") "1.arff" = some ⟨#[1, 2, 3]⟩ := by
  let get : Command Empty := .get ⟨1, none, none, pure (.bytes ⟨#[1, 2, 3]⟩)⟩
  -- eleven operations take the lock and put the data in its place
  let verdicts : List Verdict := List.replicate 11 .proceed ++ [.fail 0]
  have hstart : Run Empty (.ofText "cache") ({} : World).disk [] := .start (by decide +kernel)
  have hstores : get.stores (opened (.ofText "cache") 0) { verdicts } = [] := by decide +kernel
  have hget := hstart.call 0 verdicts get fun _ => rfl
  rw [List.append_nil, hstores] at hget
  refine ⟨get.after (opened (.ofText "cache") 0) { verdicts }, hget, ?_, ?_, ?_, ?_, ?_⟩
  · decide +kernel
  · decide +kernel
  · intro name hmem
    rw [Disk.list, List.mem_mergeSort] at hmem
    revert name
    decide +kernel
  · decide +kernel
  · decide +kernel

/-- The data whose marker could not be written is still there when the cache is cleared. -/
theorem not_emptied_of_failed_write : ∃ w w' : World,
    Run Empty (.ofText "cache") w.disk [] ∧
      (opened (.ofText "cache") 0).clear.exec w = (some (.ok 0), w') ∧
      Cleared (.ofText "cache") w.disk w'.disk ∧
      w'.disk.file? (.ofText "cache") (dataName 1) = some ⟨#[1, 2, 3]⟩ := by
  obtain ⟨w, hrun, hverdicts, hthere, hlist, hlocks, hdata⟩ := exists_failed_write
  have hroot := Path.wellFormed_ofText "cache"
  have hconsistent := hrun.consistent hroot
  have hshort : Short (.ofText "cache") w.disk := by
    intro name bytes hfile
    rcases hlist name (mem_list_of_file? hfile) with rfl | rfl
    · rw [hlocks] at hfile
      exact absurd hfile nofun
    · rw [hdata] at hfile
      obtain rfl := Option.some.inj hfile
      decide +kernel
  -- neither of the two names is that of a marker
  have hlisting : (opened (.ofText "cache") 0).listing w.disk = [] := by
    rw [List.eq_nil_iff_forall_not_mem]
    intro entry hentry
    obtain ⟨marker, hmarker⟩ := (mem_listing_iff_marker hconsistent
      (stocked_of_run hroot hrun) hshort).1 ⟨entry, hentry, rfl⟩
    have hsuffix := isSuffix_markerName entry.dataset
    rcases hlist _ (mem_list_of_file? hmarker) with heq | heq
    · rw [heq] at hsuffix
      exact absurd hsuffix (by decide)
    · rw [heq] at hsuffix
      exact absurd hsuffix (by decide)
  have hparts : ∀ name ∈ w.disk.list (.ofText "cache"), ¬ partSuffix.toList <:+ name.toList := by
    intro name hmem
    rcases hlist name hmem with rfl | rfl
    · decide
    · decide
  obtain ⟨trace, hclear, -⟩ := gives_clear_of_unlisted hconsistent hthere hlisting hparts w rfl
    hverdicts
  exact ⟨w, { w with trace }, hrun, hclear,
    cleared_of_run hroot hrun hshort rfl hverdicts hclear, hdata⟩

end DatasetCatalog.Cache
