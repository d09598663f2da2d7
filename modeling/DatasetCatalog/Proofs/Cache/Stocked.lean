import DatasetCatalog.Proofs.Cache.Alike
import DatasetCatalog.Proofs.Cache.Consistency

/-! # What a cache can leave in its directory

  A cache makes the directories on the way to its locks, puts files under names of its own, and
  removes files. What these operations keep one by one, every call keeps, whatever becomes of its
  file operations and wherever the process stops. In particular nothing comes into the directory but
  data files, markers, files that are being written, and the directory of the locks.
-/

namespace DatasetCatalog.Cache

open DatasetCatalog.Action DatasetCatalog.Disk DatasetCatalog.Path

variable {ε α : Type} {root : Path} {n : Nat} {id : Int} {name other : String} {bytes : ByteArray}
  {d d' : Disk}

/-! ### Names and directories of a cache -/

/-- The names of the files that a cache writes. -/
inductive OwnName : String → Prop where
  | data (id : Int) : OwnName (dataName id)
  | marker (id : Int) : OwnName (markerName id)
  | dataPart (id : Int) : OwnName (dataName id ++ partSuffix)
  | markerPart (id : Int) : OwnName (markerName id ++ partSuffix)

theorem OwnName.isEntryName (h : OwnName name) : IsEntryName name := by
  cases h with
  | data id => exact isEntryName_dataName id
  | marker id => exact isEntryName_markerName id
  | dataPart id => exact isEntryName_dataPart id
  | markerPart id => exact isEntryName_markerPart id

/-- The path is that of the locks, or of a directory above them. -/
structure OnTheWay (root q : Path) : Prop where
  slashes : q.slashes = root.slashes
  names : q.names <+: root.names ++ [".locks"]

theorem onTheWay_root (root : Path) : OnTheWay root root := ⟨rfl, List.prefix_append _ _⟩

theorem onTheWay_locks (root : Path) : OnTheWay root (locksOf root) := by
  have hlocks : locksOf root = ⟨root.slashes, root.names ++ [".locks"]⟩ :=
    child_eq root isEntryName_locks.toIsName
  rw [hlocks]
  exact ⟨rfl, List.prefix_rfl⟩

theorem OnTheWay.parent {q : Path} (h : OnTheWay root q) : OnTheWay root q.parent :=
  ⟨h.slashes, (List.dropLast_prefix _).trans h.names⟩

theorem OnTheWay.wellFormed {q : Path} (h : OnTheWay root q) (hroot : root.WellFormed) :
    q.WellFormed := by
  intro name hname
  rcases List.mem_append.1 (h.names.subset hname) with hname | hname
  · exact hroot name hname
  · obtain rfl := List.mem_singleton.1 hname
    exact isEntryName_locks.toIsName

/-! ### What single file operations keep -/

/-- The property is kept by each of the file operations of a cache. -/
structure Stable (root : Path) (I : Disk → Prop) : Prop where
  /-- By making a directory on the way to the locks. -/
  makeDirectory : ∀ {q d d'}, OnTheWay root q → I d → d.makeDirectory q = .ok d' → I d'
  /-- By writing a file, as a whole or in part. -/
  put : ∀ {name bytes d}, OwnName name → name.utf8ByteSize ≤ longestName →
    d.isDirectory root = true → I d → I (d.put (root.child name) (.file bytes))
  /-- By removing a file. -/
  erase : ∀ {name d}, IsEntryName name → I d → I (d.erase (root.child name))
  /-- What is found in the directory has a name. -/
  names : ∀ {name d}, I d → name ∈ d.list root → IsName name

namespace Stable

variable {I : Disk → Prop} (h : Stable root I)
include h

theorem write (hname : OwnName name) (hd : I d) (hwrite : d.write (root.child name) bytes = .ok d') :
    I d' := by
  have hfits := fits_of_write hname.isEntryName hwrite
  obtain ⟨hdir, rfl⟩ := write_child hname.isEntryName hwrite
  exact h.put hname hfits hdir hd

theorem remove (hname : IsEntryName name) (hd : I d) (hremove : d.remove (root.child name) = .ok d') :
    I d' := by
  obtain ⟨-, rfl⟩ := remove_child hname hremove
  exact h.erase hname hd

theorem rename (hname : OwnName name) (hother : OwnName other) (hd : I d)
    (hrename : d.rename (root.child name) (root.child other) = .ok d') : I d' := by
  have hfits := fits_of_rename hother.isEntryName hrename
  obtain ⟨hdir, moved, -, rfl⟩ := rename_child hname.isEntryName hrename
  -- a file is moved by taking it away and putting it back
  have hdir' : (d.erase (root.child name)).isDirectory root = true :=
    ((sameOff_erase _).isDirectory hname.isEntryName).trans hdir
  exact h.put hother hfits hdir' (h.erase hname.isEntryName hd)

/-! ### What calls keep -/

theorem keeps_makeDirectories {p : Path} (hp : OnTheWay root p) : Keeps I (makeDirectories p) :=
  keeps_makeDirectories_of hp (fun _ => OnTheWay.parent) fun _ _ _ => h.makeDirectory

theorem keeps_writeBytes (hname : OwnName name) (bytes : ByteArray) :
    Keeps I (writeBytes (root.child name) bytes) :=
  triple_writeBytes (fun _ _ hd => h.write hname hd) (fun _ hd => hd)
    fun _ _ _ hd => h.write hname hd

theorem keeps_rename (hname : OwnName name) (hother : OwnName other) :
    Keeps I (Action.rename (root.child name) (root.child other)) :=
  triple_alter (fun _ _ hd => h.rename hname hother hd) fun _ hd => hd

theorem keeps_removeIfPresent (hname : IsEntryName name) :
    Keeps I (removeIfPresent (root.child name)) :=
  triple_removeIfPresent (fun _ _ hd => h.remove hname hd) (fun _ hd _ => hd) fun _ hd => hd

theorem keeps_removeIfThere (hname : IsEntryName name) :
    Keeps I (removeIfThere (root.child name)) :=
  triple_removeIfThere (fun _ _ hd => h.remove hname hd) (fun _ hd _ => hd) fun _ hd => hd

theorem keeps_takeLock (id : Int) : Keeps I ((opened root n).takeLock id) :=
  (triple_takeLock (h.keeps_makeDirectories (onTheWay_locks root)) id).mono fun _ _ hd => hd.1

theorem keeps_evict (name : DatasetName) : Keeps I ((opened root n).evict name) := by
  unfold evict
  refine (h.keeps_takeLock _).mapError.bind fun _ => triple_thenRelease (Triple.mapError ?_)
  refine (h.keeps_removeIfThere (isEntryName_markerName _)).bind fun marker => ?_
  exact (h.keeps_removeIfThere (isEntryName_dataName _)).bind fun data => keeps_pure _

theorem keeps_placeEntry (id : Int) (data : ByteArray) (m : Marker) :
    Keeps I ((opened root n).placeEntry id data m) := by
  unfold placeEntry
  simp only [dataPath_opened, markerPath_opened, addSuffix_dataName, addSuffix_markerName]
  refine (h.keeps_makeDirectories (onTheWay_root root)).bind fun _ => ?_
  refine (h.keeps_removeIfPresent (isEntryName_markerName id)).bind fun _ => ?_
  refine (h.keeps_writeBytes (.dataPart id) data).bind fun _ => ?_
  refine (h.keeps_rename (.dataPart id) (.data id)).bind fun _ => ?_
  refine (h.keeps_writeBytes (.markerPart id) _).bind fun _ => ?_
  exact h.keeps_rename (.markerPart id) (.marker id)

theorem keeps_sweep (hname : IsEntryName name) :
    Keeps I (sweep (root.child name) : Action ε Unit) := by
  unfold sweep
  exact (h.keeps_removeIfPresent hname).attempt_bind (fun _ => keeps_pure _) fun _ => triple_note _

theorem keeps_writeEntry (id : Int) (data : ByteArray) :
    Keeps I ((opened root n).writeEntry id data) := by
  unfold writeEntry
  refine triple_stamp.bind fun moment => ?_
  refine (h.keeps_placeEntry id data _).attempt_bind (fun _ => keeps_pure _) fun _ => ?_
  simp only [dataPath_opened, markerPath_opened, addSuffix_dataName, addSuffix_markerName]
  refine (h.keeps_sweep (isEntryName_dataPart id)).bind fun _ => ?_
  exact (h.keeps_sweep (isEntryName_markerPart id)).bind fun _ => keeps_throw _

theorem keeps_complete (id : Int) (expected : Option String) (fetched : Fetched ε) :
    Keeps I ((opened root n).complete id expected fetched) := by
  have hstore : Keeps I ((opened root n).store id expected fetched) := by
    cases fetched with
    | bytes data =>
      exact (keeps_check id data expected).bind fun _ => (h.keeps_writeEntry id data).mapError
    | other | fetchError | storageError | failure | interruption => exact keeps_throw _
  exact triple_thenLand (triple_thenRelease hstore)

theorem keeps_begin (id : Int) (timeout : Option Number) :
    Keeps I ((opened root n).begin id timeout : Action (GetError ε) _) :=
  triple_begin_of (h.keeps_takeLock id)
    (keeps_of_same fun d₀ => triple_readEntry_valid (opened root n) d₀ id) timeout

theorem keeps_getOrFetch (id : Int) (expected : Option String) (timeout : Option Number)
    {fetch : Action Empty (Fetched ε)} (hfetch : ∀ w, (fetch.exec w).2.disk = w.disk) :
    Keeps I ((opened root n).getOrFetch id expected timeout fetch) := by
  unfold getOrFetch
  refine (h.keeps_begin id timeout).bind fun r => ?_
  cases r with
  | some a => exact keeps_pure a
  | none => exact (keeps_of_disk_eq hfetch).mapError.bind fun fetched => h.keeps_complete id _ _

theorem keeps_clear : Keeps I (opened root n).clear :=
  keeps_clear_of h.keeps_evict (fun _ _ => h.names) fun _ hname _ => h.keeps_removeIfPresent hname

/-- **What the file operations of a cache keep one by one, every call keeps**, whatever becomes of
    them. -/
theorem command {w : World} (hw : I w.disk) {command : Command ε} (hcommand : command.Undisturbed) :
    I (command.after (opened root n) w).disk := by
  cases command with
  | get r => exact (h.keeps_getOrFetch r.dataset r.expected r.timeout hcommand).disk hw
  | evict name => exact (h.keeps_evict name).disk hw
  | prune limit => exact (keeps_prune h.keeps_evict limit).disk hw
  | clear => exact h.keeps_clear.disk hw

/-- What holds of an empty directory holds after every run. -/
theorem run {stored : History} (hrun : Run ε root d stored) (hempty : ∀ d, d.list root = [] → I d) :
    I d := by
  -- each call begins with the disk that the calls before it have left
  induction hrun with
  | start empty => exact hempty _ empty
  | step run number same undisturbed ih =>
    subst same
    exact h.command ih undisturbed

end Stable

/-! ### What is in the directory -/

/-- All that is in the directory of a cache is its own. -/
structure Stocked (root : Path) (d : Disk) : Prop where
  /-- What is found there has a name. -/
  names : ∀ name ∈ d.list root, IsName name
  /-- Files have names of the cache, and can be read. -/
  own : ∀ name bytes, d.file? root name = some bytes →
    OwnName name ∧ d.read (root.child name) = .ok bytes
  /-- There is no other directory than that of the locks, unless the path of the cache leads through
      its own directory and up again. -/
  locks : ".." ∉ root.names → ∀ name, d.child? root name = some .directory → name = ".locks"

namespace Stocked

theorem isDirectory (h : Stocked root d) (hfile : d.file? root name = some bytes) :
    d.isDirectory root = true := by
  obtain ⟨hown, hread⟩ := h.own name bytes hfile
  exact ((read_child_eq_ok_iff hown.isEntryName).1 hread).1

/-- What is known of single files is known of the directory. -/
theorem of_files (hnames : ∀ name ∈ d.list root, IsName name)
    (hfiles : ∀ name bytes, d.file? root name = some bytes → OwnName name ∧
      name.utf8ByteSize ≤ longestName ∧ d.isDirectory root = true)
    (hlocks : ".." ∉ root.names → ∀ name, d.child? root name = some .directory → name = ".locks") :
    Stocked root d where
  names := hnames
  own := by
    intro name bytes hfile
    obtain ⟨hown, hfits, hdir⟩ := hfiles name bytes hfile
    exact ⟨hown, (read_child_eq_ok_iff hown.isEntryName).2 ⟨hdir, hfits, hfile⟩⟩
  locks := hlocks

theorem fits (h : Stocked root d) (hfile : d.file? root name = some bytes) :
    OwnName name ∧ name.utf8ByteSize ≤ longestName ∧ d.isDirectory root = true := by
  obtain ⟨hown, hread⟩ := h.own name bytes hfile
  obtain ⟨hdir, hfits, -⟩ := (read_child_eq_ok_iff hown.isEntryName).1 hread
  exact ⟨hown, hfits, hdir⟩

theorem put (h : Stocked root d) (hname : OwnName name) (hfits : name.utf8ByteSize ≤ longestName)
    (hdir : d.isDirectory root = true) : Stocked root (d.put (root.child name) (.file bytes)) := by
  have hdir' : (d.put (root.child name) (.file bytes)).isDirectory root = true :=
    ((sameOff_put _ _).isDirectory hname.isEntryName).trans hdir
  apply of_files
  · intro other hmem
    rcases eq_or_mem_list_of_put hname.isEntryName hmem with rfl | hmem
    · exact hname.isEntryName.toIsName
    · exact h.names other hmem
  · intro other bytes' hfile
    rw [file?_put_child d hname.isEntryName] at hfile
    by_cases hother : other = name
    · subst hother
      exact ⟨hname, hfits, hdir'⟩
    · rw [Function.update_of_ne hother] at hfile
      obtain ⟨hown, hother, -⟩ := h.fits hfile
      exact ⟨hown, hother, hdir'⟩
  · intro hup other hchild
    rw [child?_put_child d hname.isEntryName] at hchild
    split at hchild
    · exact absurd hchild nofun
    · exact h.locks hup other hchild

theorem erase (h : Stocked root d) (hname : IsEntryName name) :
    Stocked root (d.erase (root.child name)) := by
  apply of_files
  · intro other hmem
    exact h.names other (mem_list_of_erase hmem)
  · intro other bytes' hfile
    rw [file?_erase_child d hname] at hfile
    by_cases hother : other = name
    · rw [hother, Function.update_self] at hfile
      exact absurd hfile nofun
    · rw [Function.update_of_ne hother] at hfile
      obtain ⟨hown, hfits, hdir⟩ := h.fits hfile
      exact ⟨hown, hfits, ((sameOff_erase _).isDirectory hname).trans hdir⟩
  · intro hup other hchild
    rw [child?_erase_child d hname] at hchild
    split at hchild
    · exact absurd hchild nofun
    · exact h.locks hup other hchild

end Stocked

/-- A directory on the way to the locks that stands in the directory of the cache is theirs. -/
theorem OnTheWay.eq_locks {q : Path} (h : OnTheWay root q) (hup : ".." ∉ root.names)
    (hinside : root.inside name = q.resolved) : name = ".locks" := by
  have hq : ".." ∉ q.names := by
    intro hmem
    rcases List.mem_append.1 (h.names.subset hmem) with hmem | hmem
    · exact hup hmem
    · exact absurd (List.mem_singleton.1 hmem) (by decide)
  have hnames : root.names ++ [name] = q.names := by
    rw [← names_resolved hup, ← names_resolved hq, ← hinside, inside]
  -- as long as the path of the locks, it is that path
  have hlength : (root.names ++ [name]).length = (root.names ++ [".locks"]).length := by
    rw [List.length_append, List.length_append, List.length_singleton, List.length_singleton]
  have heq := (hnames ▸ h.names).eq_of_length hlength
  exact List.singleton_inj.1 (List.append_cancel_left heq)

theorem Stocked.makeDirectory {q : Path} (h : Stocked root d) (hroot : root.WellFormed)
    (hq : OnTheWay root q) (hmake : d.makeDirectory q = .ok d') : Stocked root d' := by
  apply Stocked.of_files
  · intro name hmem
    exact (isName_of_makeDirectory (hq.wellFormed hroot) hmake hmem).elim id (h.names name)
  · intro name bytes hfile
    obtain ⟨hown, hfits, hdir⟩ := h.fits (file?_of_makeDirectory hmake hfile)
    exact ⟨hown, hfits, isDirectory_of_makeDirectory hmake hdir⟩
  · intro hup name hchild
    obtain ⟨-, -, rfl⟩ := makeDirectory_eq_ok hmake
    rw [child?_put] at hchild
    split at hchild
    · next hinside => exact hq.eq_locks hup hinside
    · exact h.locks hup name hchild

theorem stocked_of_empty (h : d.list root = []) : Stocked root d := by
  apply Stocked.of_files
  · intro name hmem
    rw [h] at hmem
    exact absurd hmem List.not_mem_nil
  · intro name bytes hfile
    rw [file?_of_empty h] at hfile
    exact absurd hfile nofun
  · intro _ name hchild
    rw [child?_of_empty h] at hchild
    exact absurd hchild nofun

theorem stable_stocked (hroot : root.WellFormed) : Stable root (Stocked root) where
  makeDirectory := fun hq h hmake => h.makeDirectory hroot hq hmake
  put := fun hname hfits hdir h => h.put hname hfits hdir
  erase := fun hname h => h.erase hname
  names := fun h hmem => h.names _ hmem

/-- **Whatever becomes of the calls of a run, nothing is left in the directory but files of the
    cache**, under names that it uses, and the directory of its locks. -/
theorem stocked_of_run {stored : History} (hroot : root.WellFormed) (h : Run ε root d stored) :
    Stocked root d :=
  (stable_stocked hroot).run h fun _ => stocked_of_empty

end DatasetCatalog.Cache
