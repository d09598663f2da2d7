import DatasetCatalog.Proofs.Cache.Calls
import DatasetCatalog.Proofs.Descent

/-! # Calls leave the entries of other data sets alone

  Two disks are alike for a cache, but for some data sets, when the files of all others are read
  with the same content, and when the locks can be taken as before. A call for one data set leaves
  a disk that is alike but for this one, whatever becomes of its file operations. Of the entry of
  the data set itself a call that stores leaves either the whole new entry, or the old files, or no
  marker.
-/

namespace DatasetCatalog.Cache

open DatasetCatalog.Action DatasetCatalog.Disk DatasetCatalog.Path

variable {ε α : Type} {root : Path} {n : Nat} {id : Int} {name : String} {data : ByteArray}
  {changed : Int → Prop} {d₀ d d' : Disk}

/-! ### Disks that are alike -/

/-- The directory of the locks. -/
def locksOf (root : Path) : Path := (opened root 0).lockRoot

theorem isEntryName_locks : IsEntryName ".locks" := ⟨⟨by decide, by decide, by decide⟩, by decide⟩

theorem isEntryName_lock (id : Int) : IsEntryName (integerText id ++ ".lock") :=
  isEntryName_append id (by decide) (by decide)

/-- The disks are alike but for the changed data sets. -/
structure Alike (root : Path) (changed : Int → Prop) (d₀ d : Disk) : Prop where
  /-- There are no files without the directory. -/
  grounded : Grounded root d
  /-- The markers of the other data sets are the same. -/
  marker : ∀ id, ¬ changed id → Agree (root.child (markerName id)) d₀ d
  /-- The data of the other data sets is the same. -/
  data : ∀ id, ¬ changed id → Agree (root.child (dataName id)) d₀ d
  /-- The directory of the locks stays, and what is in it. -/
  locks : d₀.isDirectory (locksOf root) = true → d.isDirectory (locksOf root) = true ∧
    ∀ id, (opened root 0).lockFile id d = (opened root 0).lockFile id d₀

/-- No data set is changed. -/
abbrev Same (root : Path) (d₀ d : Disk) : Prop := Alike root (fun _ => False) d₀ d

theorem alike_refl (h : Grounded root d) : Alike root changed d d where
  grounded := h
  marker := fun _ _ _ => Iff.rfl
  data := fun _ _ _ => Iff.rfl
  locks := fun h => ⟨h, fun _ => rfl⟩

theorem Alike.mono {changed' : Int → Prop} (h : Alike root changed d₀ d)
    (hmono : ∀ id, changed id → changed' id) : Alike root changed' d₀ d where
  grounded := h.grounded
  marker := fun id hid => h.marker id (mt (hmono id) hid)
  data := fun id hid => h.data id (mt (hmono id) hid)
  locks := h.locks

theorem Alike.trans (h : Alike root changed d₀ d) (h' : Alike root changed d d') :
    Alike root changed d₀ d' where
  grounded := h'.grounded
  marker := fun id hid => (h.marker id hid).trans (h'.marker id hid)
  data := fun id hid => (h.data id hid).trans (h'.data id hid)
  locks := by
    intro hlocks
    obtain ⟨hdir, hfile⟩ := h.locks hlocks
    obtain ⟨hdir', hfile'⟩ := h'.locks hdir
    exact ⟨hdir', fun id => (hfile' id).trans (hfile id)⟩

theorem isDirectory_of_locks (h : d.isDirectory (locksOf root) = true) :
    d.isDirectory root = true :=
  ((look_child_eq_ok_iff isEntryName_locks).1 (isDirectory_eq_true_iff.1 h)).1

/-! ### Changes of single files -/

/-- A change under the name spares the locks and the entries of the data sets that are not
    changed. -/
structure Spares (changed : Int → Prop) (name : String) : Prop where
  entryName : IsEntryName name
  locks : name ≠ ".locks"
  marker : ∀ id, ¬ changed id → name ≠ markerName id
  data : ∀ id, ¬ changed id → name ≠ dataName id

theorem spares_marker (hid : changed id) : Spares changed (markerName id) where
  entryName := isEntryName_markerName id
  locks := (endsIn_markerName id).ne (by rfl : EndsIn 's' ".locks") (by decide)
  marker := fun _ hother heq => hother (markerName_injective heq ▸ hid)
  data := fun _ _ => (endsIn_markerName id).ne (endsIn_dataName _) (by decide)

theorem spares_data (hid : changed id) : Spares changed (dataName id) where
  entryName := isEntryName_dataName id
  locks := (endsIn_dataName id).ne (by rfl : EndsIn 's' ".locks") (by decide)
  marker := fun _ _ => (endsIn_dataName id).ne (endsIn_markerName _) (by decide)
  data := fun _ hother heq => hother (dataName_injective heq ▸ hid)

/-- Files that are being written are nobody's. -/
theorem spares_part (h : IsEntryName name) (hname : EndsIn 't' name) : Spares changed name where
  entryName := h
  locks := hname.ne (by rfl : EndsIn 's' ".locks") (by decide)
  marker := fun _ _ => hname.ne (endsIn_markerName _) (by decide)
  data := fun _ _ => hname.ne (endsIn_dataName _) (by decide)

theorem lockFile_congr {c : Cache}
    (h : d'.lookToPut (c.lockRoot.child (integerText id ++ ".lock")) =
      d.lookToPut (c.lockRoot.child (integerText id ++ ".lock"))) :
    c.lockFile id d' = c.lockFile id d := by
  unfold lockFile
  rw [h]

/-- A change of a file that spares the others leaves the disk alike. -/
theorem Alike.change (h : Alike root changed d₀ d) (hspares : Spares changed name)
    (hdir : d.isDirectory root = true) (hoff : SameOff (root.child name) d d') :
    Alike root changed d₀ d' where
  grounded := grounded_of_isDirectory ((hoff.isDirectory hspares.entryName).trans hdir)
  marker := fun id hid => (h.marker id hid).trans
    (agree_of_eq (hoff.read hspares.entryName (isEntryName_markerName id) (hspares.marker id hid)))
  data := fun id hid => (h.data id hid).trans
    (agree_of_eq (hoff.read hspares.entryName (isEntryName_dataName id) (hspares.data id hid)))
  locks := by
    intro hlocks
    have havoids := avoids_beside root hspares.entryName isEntryName_locks hspares.locks
    have hlook : d'.look (locksOf root) = d.look (locksOf root) := hoff _ havoids
    obtain ⟨hdir, hfile⟩ := h.locks hlocks
    refine ⟨(isDirectory_congr hlook).trans hdir, fun id => ?_⟩
    have hlockName := isEntryName_lock id
    have hlength : (root.child name).resolved.names.length ≤
        (root.child ".locks").resolved.names.length := by
      rw [resolved_child root hspares.entryName, resolved_child root isEntryName_locks]
      simp [inside]
    -- a lock file is looked up in its directory, and both are off the changed file
    have hput : d'.lookToPut ((locksOf root).child (integerText id ++ ".lock")) =
        d.lookToPut ((locksOf root).child (integerText id ++ ".lock")) := by
      refine lookToPut_congr (hoff _ (havoids.child hlockName hlength)) ?_
      rw [parent_child _ hlockName.toIsName, hlook]
    exact (lockFile_congr hput).trans (hfile id)

/-! ### Directories -/

/-- Where there are no locks yet, a new directory changes nothing that matters. -/
theorem Alike.makeDirectory {q : Path} (h : Alike root changed d₀ d)
    (hlocks : d₀.isDirectory (locksOf root) ≠ true) (hmake : d.makeDirectory q = .ok d') :
    Alike root changed d₀ d' where
  grounded := h.grounded.makeDirectory hmake
  marker := fun id hid => (h.marker id hid).trans
    (h.grounded.agree_makeDirectory hmake (isEntryName_markerName id))
  data := fun id hid => (h.data id hid).trans
    (h.grounded.agree_makeDirectory hmake (isEntryName_dataName id))
  locks := fun hthere => absurd hthere hlocks

/-- The directories of a cache are made only when they are not there. -/
theorem keeps_makeDirectories_alike {p : Path} (hp : p.WellFormed)
    (hthere : ∀ d : Disk, d.isDirectory (locksOf root) = true → d.isDirectory p = true) :
    Keeps (Alike root changed d₀) (makeDirectories p) := by
  by_cases hlocks : d₀.isDirectory (locksOf root) = true
  · refine Triple.of_forall fun d hd => ?_
    refine (keeps_makeDirectories_there (hthere d (hd.locks hlocks).1)).consequence
      (fun _ h => h) ?_ ?_
    · rintro _ _ rfl
      exact hd
    · rintro _ rfl
      exact hd
  · exact keeps_makeDirectories hp fun _ _ _ _ h => h.makeDirectory hlocks

theorem wellFormed_locksOf (hroot : root.WellFormed) : (locksOf root).WellFormed :=
  wellFormed_child hroot isEntryName_locks.toIsName

/-! ### File operations -/

/-- What is known of a disk does not depend on the file of a name. -/
def Ignores (root : Path) (name : String) (K : Disk → Prop) : Prop :=
  ∀ d d', SameOff (root.child name) d d' → K d → K d'

variable {K P : Disk → Prop} {other : String}

theorem Ignores.and {L : Disk → Prop} (h : Ignores root name K) (h' : Ignores root name L) :
    Ignores root name fun d => K d ∧ L d :=
  fun d d' hoff hd => ⟨h d d' hoff hd.1, h' d d' hoff hd.2⟩

/-- What is read of another file does not depend on the file. -/
theorem ignores_read (hname : IsEntryName name) (hother : IsEntryName other) (hne : name ≠ other)
    (T : Except FileFault ByteArray → Prop) :
    Ignores root name fun d => T (d.read (root.child other)) := by
  intro d d' hoff h
  rwa [hoff.read hname hother hne]

/-- A file that may be there is removed. -/
theorem keeps_removeIfPresent_alike (hspares : Spares changed name) (hK : Ignores root name K) :
    Keeps (fun d => Alike root changed d₀ d ∧ K d) (removeIfPresent (root.child name)) := by
  refine triple_removeIfPresent ?_ (fun _ h _ => h) fun _ h => h
  rintro d d' ⟨h, hd⟩ hremove
  obtain ⟨hdir, hoff, -⟩ := remove_child_eq_ok hspares.entryName hremove
  exact ⟨h.change hspares hdir hoff, hK d d' hoff hd⟩

theorem keeps_removeIfThere_alike (hspares : Spares changed name) (hK : Ignores root name K) :
    Keeps (fun d => Alike root changed d₀ d ∧ K d) (removeIfThere (root.child name)) := by
  refine triple_removeIfThere ?_ (fun _ h _ => h) fun _ h => h
  rintro d d' ⟨h, hd⟩ hremove
  obtain ⟨hdir, hoff, -⟩ := remove_child_eq_ok hspares.entryName hremove
  exact ⟨h.change hspares hdir hoff, hK d d' hoff hd⟩

/-- A file is written; a failed write leaves at most a beginning of it. -/
theorem triple_write_alike (hspares : Spares changed name) (hK : Ignores root name K)
    (bytes : ByteArray) :
    Triple (fun d => Alike root changed d₀ d ∧ K d) (writeBytes (root.child name) bytes)
      (fun _ d => (Alike root changed d₀ d ∧ K d) ∧ d.read (root.child name) = .ok bytes)
      (fun d => Alike root changed d₀ d ∧ K d) := by
  have hwritten : ∀ d d' part, Alike root changed d₀ d ∧ K d →
      d.write (root.child name) part = .ok d' →
      (Alike root changed d₀ d' ∧ K d') ∧ d'.read (root.child name) = .ok part := by
    rintro d d' part ⟨h, hd⟩ hwrite
    obtain ⟨hdir, hoff, hread⟩ := write_child_eq_ok hspares.entryName hwrite
    exact ⟨⟨h.change hspares hdir hoff, hK d d' hoff hd⟩, hread⟩
  exact triple_writeBytes (fun d d' h hwrite => hwritten d d' bytes h hwrite) (fun _ h => h)
    fun d d' part h hwrite => (hwritten d d' part h hwrite).1

/-- A file moves to another name. -/
theorem triple_rename_alike {bytes : ByteArray} (hspares : Spares changed name)
    (hother : Spares changed other) (hK : Ignores root name K) (hK' : Ignores root other K)
    (hP : ∀ d, P d → Alike root changed d₀ d ∧ K d ∧ d.read (root.child name) = .ok bytes) :
    Triple P (rename (root.child name) (root.child other))
      (fun _ d => Alike root changed d₀ d ∧ K d ∧ d.read (root.child other) = .ok bytes) P := by
  refine triple_alter ?_ fun _ h => h
  intro d d' h hrename
  obtain ⟨halike, hd, hread⟩ := hP d h
  obtain ⟨hdir, between, hoff, hoff', hmoved⟩ :=
    rename_child_eq_ok hspares.entryName hother.entryName hrename
  have hbetween := halike.change hspares hdir hoff
  have hdir' : between.isDirectory root = true :=
    (hoff.isDirectory hspares.entryName).trans hdir
  exact ⟨hbetween.change hother hdir' hoff', hK' _ _ hoff' (hK _ _ hoff hd), hmoved bytes hread⟩

/-! ### The entry of the data set itself -/

/-- The files of the data set are as they were. -/
def Untouched (root : Path) (id : Int) (d₀ d : Disk) : Prop :=
  Agree (root.child (markerName id)) d₀ d ∧ Agree (root.child (dataName id)) d₀ d

/-- The data set has no marker. -/
def Unmarked (root : Path) (id : Int) (d : Disk) : Prop :=
  ∀ bytes, d.read (root.child (markerName id)) ≠ .ok bytes

/-- The data is there, with its marker. -/
def Stored (root : Path) (id : Int) (data : ByteArray) (d : Disk) : Prop :=
  d.read (root.child (dataName id)) = .ok data ∧ ∃ moment,
    d.read (root.child (markerName id)) = .ok (Marker.ofData id "arff" data moment).toBytes

/-- What is left of an entry when it is not stored. -/
def Left (root : Path) (id : Int) (d₀ d : Disk) : Prop :=
  Untouched root id d₀ d ∨ Unmarked root id d

theorem left_of_same (h : Same root d₀ d) : Alike root (· = id) d₀ d ∧ Left root id d₀ d :=
  ⟨h.mono fun _ => False.elim, .inl ⟨h.marker id not_false, h.data id not_false⟩⟩

theorem ignores_unmarked (h : IsEntryName name) (hne : name ≠ markerName id) :
    Ignores root name (Unmarked root id) :=
  ignores_read h (isEntryName_markerName id) hne fun r => ∀ bytes, r ≠ .ok bytes

theorem ignores_data (h : IsEntryName name) (hne : name ≠ dataName id) :
    Ignores root name fun d => d.read (root.child (dataName id)) = .ok data :=
  ignores_read h (isEntryName_dataName id) hne (· = .ok data)

theorem ignores_left (h : IsEntryName name) (hname : EndsIn 't' name) :
    Ignores root name (Left root id d₀) := by
  have hmarker := hname.ne (endsIn_markerName id) (by decide)
  have hdata := hname.ne (endsIn_dataName id) (by decide)
  intro d d' hoff hleft
  refine hleft.imp ?_ (ignores_unmarked h hmarker d d' hoff)
  rintro ⟨hagree, hagree'⟩
  exact ⟨hagree.trans (agree_of_eq (hoff.read h (isEntryName_markerName id) hmarker)),
    hagree'.trans (agree_of_eq (hoff.read h (isEntryName_dataName id) hdata))⟩

/-! ### Writing -/

/-- **An entry is put into place as a whole**, or the old files stay, or there is no marker. -/
theorem triple_placeEntry_alike (hroot : root.WellFormed) (id : Int) (data : ByteArray)
    (moment : Timestamp) :
    Triple (Same root d₀)
      ((opened root n).placeEntry id data (Marker.ofData id "arff" data moment))
      (fun _ d => Alike root (· = id) d₀ d ∧ Stored root id data d)
      (fun d => Alike root (· = id) d₀ d ∧ Left root id d₀ d) := by
  have hmarkerPart : Spares (· = id) (markerName id ++ partSuffix) :=
    spares_part (isEntryName_markerPart id) (endsIn_part _)
  have hdataPart : Spares (· = id) (dataName id ++ partSuffix) :=
    spares_part (isEntryName_dataPart id) (endsIn_part _)
  have hmarker : Spares (· = id) (markerName id) := spares_marker rfl
  have hdata : Spares (· = id) (dataName id) := spares_data rfl
  have hunmarked : ∀ d, Alike root (· = id) d₀ d ∧ Unmarked root id d →
      Alike root (· = id) d₀ d ∧ Left root id d₀ d := fun d h => ⟨h.1, .inr h.2⟩
  -- the old marker goes first
  have hremove : Triple (Same root d₀) (removeIfPresent (root.child (markerName id)))
      (fun _ d => Alike root (· = id) d₀ d ∧ Unmarked root id d)
      (fun d => Alike root (· = id) d₀ d ∧ Left root id d₀ d) := by
    refine triple_removeIfPresent ?_ ?_ fun _ => left_of_same
    · intro d d' h hremove
      obtain ⟨hdir, hoff, hgone⟩ := remove_child_eq_ok hmarker.entryName hremove
      exact ⟨(h.mono fun _ => False.elim).change hmarker hdir hoff, hgone⟩
    · intro d h hmissing
      refine ⟨h.mono fun _ => False.elim, fun bytes hread => ?_⟩
      rw [look_of_read hread] at hmissing
      exact absurd hmissing nofun
  unfold placeEntry
  simp only [dataPath_opened, markerPath_opened, addSuffix_dataName, addSuffix_markerName]
  refine ((keeps_makeDirectories_alike hroot fun _ => isDirectory_of_locks).weaken
    fun _ => left_of_same).bind fun _ => ?_
  refine hremove.bind fun _ => ?_
  -- while there is no marker the data is written and moved into place
  have hpartMarker := (endsIn_part (dataName id)).ne (endsIn_markerName id) (by decide)
  refine ((triple_write_alike hdataPart
    (ignores_unmarked hdataPart.entryName hpartMarker) data).weaken hunmarked).bind fun _ => ?_
  have hdataMarker := (endsIn_dataName id).ne (endsIn_markerName id) (by decide)
  refine ((triple_rename_alike hdataPart hdata
    (ignores_unmarked hdataPart.entryName hpartMarker)
    (ignores_unmarked hdata.entryName hdataMarker) fun _ h => ⟨h.1.1, h.1.2, h.2⟩).weaken
    fun d h => hunmarked d h.1).bind fun _ => ?_
  -- then the marker, beside the data
  have hpartMarker' := (endsIn_part (markerName id)).ne (endsIn_markerName id) (by decide)
  have hpartData := (endsIn_part (markerName id)).ne (endsIn_dataName id) (by decide)
  refine ((triple_write_alike hmarkerPart
    ((ignores_unmarked hmarkerPart.entryName hpartMarker').and
      (ignores_data hmarkerPart.entryName hpartData)) _).weaken
    fun d h => hunmarked d ⟨h.1, h.2.1⟩).bind fun _ => ?_
  refine (triple_rename_alike hmarkerPart hmarker (ignores_data hmarkerPart.entryName hpartData)
    (ignores_data hmarker.entryName hdataMarker.symm) fun _ h => ⟨h.1.1, h.1.2.2, h.2⟩).consequence
    (fun _ h => h) (fun _ d h => ⟨h.1, h.2.1, moment, h.2.2⟩)
    fun d h => hunmarked d ⟨h.1.1, h.1.2.1⟩

theorem triple_writeEntry_alike (hroot : root.WellFormed) (id : Int) (data : ByteArray) :
    Triple (Same root d₀) ((opened root n).writeEntry id data)
      (fun a d => a.data = data ∧ Alike root (· = id) d₀ d ∧ Stored root id data d)
      (fun d => Alike root (· = id) d₀ d ∧ Left root id d₀ d) := by
  have hmarkerPart := isEntryName_markerPart id
  have hdataPart := isEntryName_dataPart id
  have hsweep : ∀ name, IsEntryName name → EndsIn 't' name →
      Keeps (fun d => Alike root (· = id) d₀ d ∧ Left root id d₀ d)
        (sweep (root.child name) : Action StorageError Unit) := by
    intro name hname hpart
    unfold sweep
    exact (keeps_removeIfPresent_alike (spares_part hname hpart)
      (ignores_left hname hpart)).attempt_bind (fun _ => keeps_pure _) fun _ => triple_note _
  unfold writeEntry
  refine triple_stamp.bind fun moment => ?_
  refine (triple_placeEntry_alike hroot id data moment).attempt_bind ?_ ?_
  · exact fun _ => triple_pure fun _ h => ⟨rfl, h⟩
  · intro _
    simp only [dataPath_opened, markerPath_opened, addSuffix_dataName, addSuffix_markerName]
    refine (hsweep _ hdataPart (endsIn_part _)).bind fun _ => ?_
    exact (hsweep _ hmarkerPart (endsIn_part _)).bind fun _ => triple_throw fun _ h => h

theorem triple_store_alike (hroot : root.WellFormed) (id : Int) (expected : Option String)
    (fetched : Fetched ε) :
    Triple (Same root d₀) ((opened root n).store id expected fetched)
      (fun a d => fetched = .bytes a.data ∧ Alike root (· = id) d₀ d ∧ Stored root id a.data d)
      (fun d => Alike root (· = id) d₀ d ∧ Left root id d₀ d) := by
  cases fetched with
  | bytes data =>
    refine ((keeps_check id data expected).weaken fun _ => left_of_same).bind fun _ => ?_
    refine (triple_writeEntry_alike hroot id data).mapError.mono ?_
    rintro a d ⟨rfl, h⟩
    exact ⟨rfl, h⟩
  | other | fetchError | storageError | failure | interruption =>
    exact triple_throw fun _ => left_of_same

theorem triple_complete_alike (hroot : root.WellFormed) (id : Int) (expected : Option String)
    (fetched : Fetched ε) :
    Triple (Same root d₀) ((opened root n).complete id expected fetched)
      (fun a d => fetched = .bytes a.data ∧ Alike root (· = id) d₀ d ∧ Stored root id a.data d)
      (fun d => Alike root (· = id) d₀ d ∧ Left root id d₀ d) :=
  triple_thenLand (triple_thenRelease (triple_store_alike hroot id expected fetched))

/-! ### Getting -/

theorem lockFile_opened (root : Path) (n : Nat) (id : Int) (d : Disk) :
    (opened root n).lockFile id d = (opened root 0).lockFile id d := by
  have hroot : (opened root n).lockRoot = (opened root 0).lockRoot := rfl
  unfold lockFile
  rw [hroot]

/-- A lock can be taken in the directory of the locks only. -/
theorem isDirectory_of_lockFile {c : Cache} (h : c.lockFile id d = .ok ()) :
    d.isDirectory c.lockRoot = true := by
  unfold lockFile at h
  rcases hlook : d.lookToPut (c.lockRoot.child (integerText id ++ ".lock")) with fault | found
  · rw [hlook] at h
    exact absurd h nofun
  · exact isDirectory_of_lookToPut (isEntryName_lock id) hlook

theorem grounded_of_lockFile (h : (opened root 0).lockFile id d = .ok ()) : Grounded root d :=
  grounded_of_isDirectory (isDirectory_of_locks (isDirectory_of_lockFile h))

/-- A lock that is taken could be opened. -/
theorem triple_takeLock {I : Disk → Prop} (hmake : Keeps I (makeDirectories (locksOf root)))
    (id : Int) :
    Triple I ((opened root n).takeLock id)
      (fun _ d => I d ∧ (opened root 0).lockFile id d = .ok ()) I := by
  have hfile : Triple I (inspect ((opened root n).lockFile id))
      (fun _ d => I d ∧ (opened root 0).lockFile id d = .ok ()) I :=
    triple_inspect (fun d _ h hlock => ⟨h, (lockFile_opened root n id d).symm.trans hlock⟩)
      fun _ h => h
  unfold takeLock
  refine Triple.mapError hmake |>.bind fun _ => hfile.mapError.bind fun _ => ?_
  refine Triple.bind (triple_look fun _ _ h => h) fun held => ?_
  split
  · exact Triple.bind (triple_throw fun _ h => h.1) fun _ => triple_change fun _ => rfl
  · exact triple_change fun _ => rfl

/-- **Getting begins with the entry that is there**, or it has the lock and may store. -/
theorem triple_begin_valid {I : Disk → Prop} (hmake : Keeps I (makeDirectories (locksOf root)))
    (id : Int) (timeout : Option Number) :
    Triple I ((opened root n).begin id timeout : Action (GetError ε) _)
      (fun r d => (I d ∧ (opened root 0).lockFile id d = .ok ()) ∧
        ∀ a, r = some a → Valid (opened root n) d id a.data) I := by
  refine triple_begin_of (triple_takeLock hmake id) ?_ timeout
  exact (Triple.of_reading fun d _ => triple_readEntry_valid (opened root n) d id).weaken
    fun _ h => h.1

/-- Getting an artifact changes the entry of its data set at most. -/
theorem triple_getOrFetch_alike (hroot : root.WellFormed) (id : Int) (expected : Option String)
    (timeout : Option Number) {fetch : Action Empty (Fetched ε)}
    (hfetch : ∀ w, (fetch.exec w).2.disk = w.disk) :
    Triple (Same root d₀) ((opened root n).getOrFetch id expected timeout fetch)
      (fun _ => Alike root (· = id) d₀) (Alike root (· = id) d₀) := by
  have hmake : Keeps (Same root d₀) (makeDirectories (locksOf root)) :=
    keeps_makeDirectories_alike (wellFormed_locksOf hroot) fun _ h => h
  have hsame : ∀ d, Same root d₀ d → Alike root (· = id) d₀ d := fun d h => (left_of_same h).1
  unfold getOrFetch
  refine ((triple_begin_valid hmake id timeout).consequence (fun _ h => h)
    (fun _ _ h => h.1.1) hsame).bind fun r => ?_
  cases r with
  | some a => exact triple_pure hsame
  | none =>
    refine ((keeps_of_disk_eq hfetch).mapError.weaken hsame).bind fun fetched => ?_
    exact (triple_complete_alike hroot id expected fetched).consequence (fun _ h => h)
      (fun _ _ h => h.2.1) fun _ h => h.1

/-! ### Evicting -/

/-- **Eviction removes the marker of its data set**, or leaves its files as they are. -/
theorem triple_evict_alike (hroot : root.WellFormed) (name : DatasetName) :
    Triple (Same root d₀) ((opened root n).evict name)
      (fun _ d => Alike root (· = name.id) d₀ d ∧ Left root name.id d₀ d)
      (fun d => Alike root (· = name.id) d₀ d ∧ Left root name.id d₀ d) := by
  have hmarkerName := isEntryName_markerName name.id
  have hdataName := isEntryName_dataName name.id
  have hunmarked : ∀ d, Alike root (· = name.id) d₀ d ∧ Unmarked root name.id d →
      Alike root (· = name.id) d₀ d ∧ Left root name.id d₀ d := fun d h => ⟨h.1, .inr h.2⟩
  have hmake : Keeps (Same root d₀) (makeDirectories (locksOf root)) :=
    keeps_makeDirectories_alike (wellFormed_locksOf hroot) fun _ h => h
  have hlock : Triple (Same root d₀) ((opened root n).takeLock name.id)
      (fun _ => Same root d₀) (fun d => Alike root (· = name.id) d₀ d ∧ Left root name.id d₀ d) :=
    (triple_takeLock hmake name.id).consequence (fun _ h => h) (fun _ _ h => h.1)
      fun _ => left_of_same
  have hmarker : Triple (Same root d₀) (removeIfThere (root.child (markerName name.id)))
      (fun _ d => Alike root (· = name.id) d₀ d ∧ Unmarked root name.id d)
      (fun d => Alike root (· = name.id) d₀ d ∧ Left root name.id d₀ d) := by
    refine triple_removeIfThere ?_ ?_ fun _ => left_of_same
    · intro d d' h hremove
      obtain ⟨hdir, hoff, hgone⟩ := remove_child_eq_ok hmarkerName hremove
      exact ⟨(h.mono fun _ => False.elim).change (spares_marker rfl) hdir hoff, hgone⟩
    · intro d h habsent
      refine ⟨h.mono fun _ => False.elim, fun bytes hread => ?_⟩
      rw [Disk.present, look_of_read hread] at habsent
      cases habsent
  have hdata : Keeps (fun d => Alike root (· = name.id) d₀ d ∧ Unmarked root name.id d)
      (removeIfThere (root.child (dataName name.id))) :=
    keeps_removeIfThere_alike (spares_data rfl)
      (ignores_unmarked hdataName ((endsIn_dataName _).ne (endsIn_markerName _) (by decide)))
  unfold evict
  refine hlock.mapError.bind fun _ => triple_thenRelease (Triple.mapError ?_)
  refine hmarker.bind fun _ => ?_
  exact (hdata.consequence (fun _ h => h) (fun _ => hunmarked) hunmarked).bind fun _ => keeps_pure _

/-! ### Valid entries -/

variable {m : Nat}

/-- Untouched entries are valid when they were. -/
theorem Untouched.valid_iff (h : Untouched root id d₀ d) :
    Valid (opened root n) d id data ↔ Valid (opened root m) d₀ id data := by
  constructor
  · rintro ⟨bytes, found, hmarker, hfields, hdata, hrest⟩
    exact ⟨bytes, found, (h.1 bytes).1 hmarker, hfields, (h.2 data).1 hdata, hrest⟩
  · rintro ⟨bytes, found, hmarker, hfields, hdata, hrest⟩
    exact ⟨bytes, found, (h.1 bytes).2 hmarker, hfields, (h.2 data).2 hdata, hrest⟩

theorem Alike.valid_iff (h : Alike root changed d₀ d) (hid : ¬ changed id) :
    Valid (opened root n) d id data ↔ Valid (opened root m) d₀ id data :=
  Untouched.valid_iff ⟨h.marker id hid, h.data id hid⟩

/-- An entry that is left was there before. -/
theorem Left.valid (h : Left root id d₀ d) (hvalid : Valid (opened root n) d id data) :
    Valid (opened root m) d₀ id data := by
  obtain huntouched | hunmarked := h
  · exact huntouched.valid_iff.1 hvalid
  · obtain ⟨bytes, -, hmarker, -⟩ := hvalid
    exact absurd hmarker (hunmarked bytes)

/-- The entry of stored data holds nothing else. -/
theorem Stored.eq_of_valid {other : ByteArray} (h : Stored root id data d)
    (hvalid : Valid (opened root n) d id other) : other = data := by
  obtain ⟨bytes, found, hmarker, hfields, hdata, hrest⟩ := hvalid
  exact Except.ok.inj (hdata.symm.trans h.1)

/-- **Stored data is a valid entry**, unless its size has too many digits to be read back. -/
theorem Stored.valid (h : Stored root id data d) (hsize : data.size < 10 ^ Numeral.digitLimit) :
    Valid (opened root n) d id data := by
  obtain ⟨hdata, moment, hmarker⟩ := h
  obtain ⟨-, hlength, -⟩ := (read_child_eq_ok_iff (isEntryName_markerName id)).1 hmarker
  have hfits : fitsInteger data.size = true :=
    decide_eq_true ((Nat.length_toDigits_le_iff (by decide) (by decide)).2 hsize)
  refine ⟨_, Marker.ofData id "arff" data moment, hmarker, ?_, hdata, Marker.hasSize_ofData,
    Marker.hasDigest_ofData⟩
  rw [Marker.ofBytes_toBytes (by decide), fitsInteger_of_markerName hlength, hfits]
  rfl

end DatasetCatalog.Cache
