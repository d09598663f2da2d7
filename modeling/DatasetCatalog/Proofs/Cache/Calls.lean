import DatasetCatalog.Cache.Basic
import DatasetCatalog.Proofs.Cache.Valid

/-! # Every call of a cache keeps its files consistent

  Whatever becomes of the file operations of a call, and wherever the process stops, the files of
  the cache agree with each other before and after the call, and at every point in between. A call
  that stores data and ends well makes this data what was stored last; every other call leaves open
  nothing but whether an entry is there.
-/

namespace DatasetCatalog.Cache

open DatasetCatalog.Action DatasetCatalog.Path

variable {ε α : Type} {root : Path} {n : Nat} {stored : History} {id : Int} {data : ByteArray}
  {I P R : Disk → Prop} {Q : α → Disk → Prop}

theorem dataPath_opened (root : Path) (n : Nat) (id : Int) :
    (opened root n).dataPath id = root.child (dataName id) := rfl

theorem markerPath_opened (root : Path) (n : Nat) (id : Int) :
    (opened root n).markerPath id = root.child (markerName id) := rfl

theorem addSuffix_dataName (root : Path) (id : Int) :
    (root.child (dataName id)).addSuffix partSuffix = root.child (dataName id ++ partSuffix) :=
  addSuffix_child root (isEntryName_dataName id).toIsName (isEntryName_dataPart id).toIsName

theorem addSuffix_markerName (root : Path) (id : Int) :
    (root.child (markerName id)).addSuffix partSuffix = root.child (markerName id ++ partSuffix) :=
  addSuffix_child root (isEntryName_markerName id).toIsName (isEntryName_markerPart id).toIsName

/-! ### Locks and flights -/

theorem keeps_takeLock (hroot : root.WellFormed) :
    Keeps (Consistent root stored) ((opened root n).takeLock id) := by
  have hlocks : IsEntryName ".locks" := ⟨⟨by decide, by decide, by decide⟩, by decide⟩
  have hmake : Keeps (Consistent root stored) (makeDirectories (opened root n).lockRoot) :=
    keeps_makeDirectories (wellFormed_child hroot hlocks.toIsName)
      fun _ _ _ hq h => h.makeDirectory hq
  unfold takeLock
  refine hmake.mapError.bind fun _ => ?_
  refine (keeps_inspect _).mapError.bind fun _ => ?_
  refine (keeps_look _).bind fun held => ?_
  split
  · exact (keeps_throw _).bind fun _ => triple_change fun _ => rfl
  · exact triple_change fun _ => rfl

theorem triple_releaseLock (c : Cache) (id : Int) :
    Triple P (c.releaseLock id : Action ε Unit) (fun _ => P) R :=
  triple_change fun _ => rfl

theorem triple_land (c : Cache) (id : Int) : Triple P (c.land id : Action ε Unit) (fun _ => P) R :=
  triple_change fun _ => rfl

theorem triple_thenRelease {c : Cache} {x : Action ε α} (h : Triple P x Q R) :
    Triple P (c.thenRelease id x) Q R :=
  h.finally fun _ => rfl

theorem triple_thenLand {c : Cache} {x : Action ε α} (h : Triple P x Q R) :
    Triple P (c.thenLand id x) Q R :=
  h.finally fun _ => rfl

/-! ### Removing -/

theorem triple_removeIfThere {p : Path} {T : Disk → Prop}
    (hok : ∀ d d', P d → d.remove p = .ok d' → T d')
    (habsent : ∀ d, P d → d.present p = .ok false → T d) (hR : ∀ d, P d → R d) :
    Triple P (removeIfThere p) (fun _ => T) R := by
  unfold removeIfThere
  refine (triple_inspect (Q := fun b d => P d ∧ d.present p = .ok b) (fun d b hd hb => ⟨hd, hb⟩)
    hR).bind fun b => ?_
  cases b with
  | true =>
    exact (triple_alter (T := fun _ => T) (fun d d' hd hremove => hok d d' hd.1 hremove)
      fun d hd => hR d hd.1).bind fun _ => triple_pure fun _ hd => hd
  | false => exact triple_pure fun d hd => habsent d hd.1 hd.2

/-- The disk without the marker of a data set. -/
theorem Consistent.erase_marker {d : Disk} (h : Consistent root stored d) (id : Int) :
    Consistent root stored (d.erase (root.child (markerName id))) ∧
      (d.erase (root.child (markerName id))).Lacks root (markerName id) := by
  have hname := isEntryName_markerName id
  refine ⟨h.erase hname (h.paired.remove_marker id), fun _ => ?_⟩
  rw [Disk.file?_erase_child d hname, Function.update_self]

/-- Evicting removes the marker first, so the data that goes then has none. -/
theorem keeps_evict (hroot : root.WellFormed) (name : DatasetName) :
    Keeps (Consistent root stored) ((opened root n).evict name) := by
  have hmarkerName := isEntryName_markerName name.id
  have hdataName := isEntryName_dataName name.id
  have hmarker : Triple (Consistent root stored) (removeIfThere (root.child (markerName name.id)))
      (fun _ d => Consistent root stored d ∧ d.Lacks root (markerName name.id))
      (Consistent root stored) := by
    refine triple_removeIfThere ?_ ?_ fun _ h => h
    · intro d d' h hremove
      obtain ⟨-, rfl⟩ := Disk.remove_child hmarkerName hremove
      exact h.erase_marker name.id
    · exact fun d h habsent => ⟨h, Disk.lacks_of_present hmarkerName habsent⟩
  have hdata : Triple
      (fun d => Consistent root stored d ∧ d.Lacks root (markerName name.id))
      (removeIfThere (root.child (dataName name.id)))
      (fun _ => Consistent root stored) (Consistent root stored) := by
    refine triple_removeIfThere ?_ (fun _ h _ => h.1) fun _ h => h.1
    rintro d d' ⟨h, hlacks⟩ hremove
    obtain ⟨hdir, rfl⟩ := Disk.remove_child hdataName hremove
    exact h.erase hdataName (h.paired.update_data (hlacks hdir) _)
  unfold evict
  refine (keeps_takeLock hroot).mapError.bind fun _ => triple_thenRelease ?_
  refine Triple.mapError ?_
  -- a process that stops between the two leaves data without a marker
  exact hmarker.bind fun _ => hdata.bind fun _ => keeps_pure _

/-! ### Writing -/

/-- A file is written beside the entries. It leaves them alone, also when only a beginning of it is
    written, and with them what is known of another file. -/
theorem triple_writePart {name other : String} {x : Option ByteArray}
    (hname : IsEntryName (name ++ partSuffix)) (hother : other ≠ name ++ partSuffix)
    (bytes : ByteArray) :
    Triple
      (fun d => Consistent root stored d ∧ (d.isDirectory root = true → d.file? root other = x))
      (writeBytes (root.child (name ++ partSuffix)) bytes)
      (fun _ d => Consistent root stored d ∧ d.file? root other = x ∧
        d.file? root (name ++ partSuffix) = some bytes)
      (Consistent root stored) := by
  have hwritten : ∀ d d' part, Consistent root stored d →
      d.write (root.child (name ++ partSuffix)) part = .ok d' → Consistent root stored d' ∧
        d.isDirectory root = true ∧
        d'.file? root = Function.update (d.file? root) (name ++ partSuffix) (some part) := by
    intro d d' part h hwrite
    obtain ⟨hdir, rfl⟩ := Disk.write_child hname hwrite
    exact ⟨h.put hname (h.paired.update_part (endsIn_part name) _), hdir,
      Disk.file?_put_child d hname⟩
  refine triple_writeBytes ?_ (fun _ h => h.1) fun d d' part h hwrite =>
    (hwritten d d' part h.1 hwrite).1
  rintro d d' ⟨h, hknown⟩ hwrite
  obtain ⟨h', hdir, hfiles⟩ := hwritten d d' bytes h hwrite
  refine ⟨h', ?_, ?_⟩
  · rw [hfiles, Function.update_of_ne hother, hknown hdir]
  · rw [hfiles, Function.update_self]

/-- A file that is complete moves into its place, where what is known of another file allows it. -/
theorem triple_moveIntoPlace {name other : String} {x : Option ByteArray} {bytes : ByteArray}
    {stored' : History} (hname : IsEntryName name) (hpart : IsEntryName (name ++ partSuffix))
    (hother : other ≠ name ++ partSuffix)
    (hpaired : ∀ files, Paired stored files → files other = x →
      Paired stored' (Function.update files name (some bytes))) :
    Triple
      (fun d => Consistent root stored d ∧ d.file? root other = x ∧
        d.file? root (name ++ partSuffix) = some bytes)
      (rename (root.child (name ++ partSuffix)) (root.child name))
      (fun _ d => Consistent root stored' d ∧ d.file? root name = some bytes)
      (Consistent root stored) := by
  refine triple_alter ?_ fun _ h => h.1
  rintro d d' ⟨h, hknown, hfile⟩ hrename
  obtain ⟨-, moved, hmoved, rfl⟩ := Disk.rename_child hpart hrename
  obtain rfl : moved = bytes := Option.some.inj (hmoved.symm.trans hfile)
  have herase := h.erase hpart (h.paired.update_part (endsIn_part name) _)
  have hstill : (d.erase (root.child (name ++ partSuffix))).file? root other = x := by
    rw [Disk.file?_erase_child d hpart, Function.update_of_ne hother, hknown]
  refine ⟨herase.put hname (hpaired _ herase.paired hstill), ?_⟩
  rw [Disk.file?_put_child _ hname, Function.update_self]

/-- The old marker is removed before anything is written. -/
theorem triple_removeMarker (id : Int) :
    Triple (Consistent root stored) (removeIfPresent (root.child (markerName id)))
      (fun _ d => Consistent root stored d ∧ d.Lacks root (markerName id))
      (Consistent root stored) := by
  have hname := isEntryName_markerName id
  refine triple_removeIfPresent ?_ ?_ fun _ h => h
  · intro d d' h hremove
    obtain ⟨-, rfl⟩ := Disk.remove_child hname hremove
    exact h.erase_marker id
  · exact fun d h hmissing => ⟨h, Disk.lacks_of_missing hname hmissing⟩

/-- **An entry is put into place**: while the marker is away the data changes, and the marker comes
    back when the data is there. Until then nothing new counts as stored. -/
theorem triple_placeEntry (hroot : root.WellFormed) (id : Int) (data : ByteArray)
    (moment : Timestamp) :
    Triple (Consistent root stored)
      ((opened root n).placeEntry id data (Marker.ofData id "arff" data moment))
      (fun _ => Consistent root ((id, data) :: stored)) (Consistent root stored) := by
  have hmarkerName := isEntryName_markerName id
  have hdataName := isEntryName_dataName id
  have hmarkerPart := isEntryName_markerPart id
  have hdataPart := isEntryName_dataPart id
  have hmarkerOther := (endsIn_markerName id).ne (endsIn_part (dataName id)) (by decide)
  have hdataOther := (endsIn_dataName id).ne (endsIn_part (markerName id)) (by decide)
  unfold placeEntry
  simp only [dataPath_opened, markerPath_opened, addSuffix_dataName, addSuffix_markerName]
  refine (keeps_makeDirectories hroot fun _ _ _ hq h => h.makeDirectory hq).bind fun _ => ?_
  refine (triple_removeMarker id).bind fun _ => ?_
  -- no marker now records the data that the next two operations replace
  refine (triple_writePart hdataPart hmarkerOther data).bind fun _ => ?_
  refine (triple_moveIntoPlace hdataName hdataPart hmarkerOther
    fun _ h hmarker => h.update_data hmarker _).bind fun _ => ?_
  -- the data is in its place, where the marker's file is written beside it
  refine ((triple_writePart hmarkerPart hdataOther _).consequence
    (fun _ h => ⟨h.1, fun _ => h.2⟩) (fun _ _ h => h) fun _ h => h).bind fun _ => ?_
  exact (triple_moveIntoPlace hmarkerName hmarkerPart hdataOther
    fun _ h hdata => h.place_marker hdata moment).mono fun _ _ h => h.1

/-- What a failed write has left is no part of an entry. -/
theorem keeps_removePart {name : String} (hname : IsEntryName name) (hpart : EndsIn 't' name) :
    Keeps (Consistent root stored) (removeIfPresent (root.child name)) := by
  refine triple_removeIfPresent ?_ (fun _ h _ => h) fun _ h => h
  intro d d' h hremove
  obtain ⟨-, rfl⟩ := Disk.remove_child hname hremove
  exact h.erase hname (h.paired.update_part hpart _)

theorem keeps_sweep {name : String} (hname : IsEntryName name) (hpart : EndsIn 't' name) :
    Keeps (Consistent root stored) (sweep (root.child name) : Action ε Unit) := by
  unfold sweep
  exact (keeps_removePart hname hpart).attempt_bind (fun _ => keeps_pure _) fun _ => triple_note _

/-- Writing an entry ends well when the entry is in its place, and changes no other one. -/
theorem triple_writeEntry (hroot : root.WellFormed) (id : Int) (data : ByteArray) :
    Triple (Consistent root stored) ((opened root n).writeEntry id data)
      (fun a d => Consistent root ((id, a.data) :: stored) d) (Consistent root stored) := by
  have hmarkerPart := isEntryName_markerPart id
  have hdataPart := isEntryName_dataPart id
  unfold writeEntry
  refine triple_stamp.bind fun moment => ?_
  refine (triple_placeEntry hroot id data moment).attempt_bind ?_ ?_
  · exact fun _ => triple_pure fun _ h => h
  · -- one of the operations has failed, so nothing has been stored
    intro _
    simp only [dataPath_opened, markerPath_opened, addSuffix_dataName, addSuffix_markerName]
    refine (keeps_sweep hdataPart (endsIn_part _)).bind fun _ => ?_
    refine (keeps_sweep hmarkerPart (endsIn_part _)).bind fun _ => ?_
    exact triple_throw fun _ h => h

theorem keeps_check (id : Int) (data : ByteArray) (expected : Option String) :
    Keeps I (check (ε := ε) id data expected) := by
  unfold check
  split
  · exact keeps_pure _
  · exact keeps_pure _
  · split
    · exact keeps_pure _
    · exact (triple_note _).bind fun _ => keeps_throw _

/-- What is fetched is stored as a whole, or nothing is. -/
theorem triple_store (hroot : root.WellFormed) (id : Int) (expected : Option String)
    (fetched : Fetched ε) :
    Triple (Consistent root stored) ((opened root n).store id expected fetched)
      (fun a d => Consistent root ((id, a.data) :: stored) d) (Consistent root stored) := by
  cases fetched with
  | bytes data =>
    exact (keeps_check id data expected).bind fun _ => (triple_writeEntry hroot id data).mapError
  | other | fetchError | storageError | failure | interruption => exact triple_throw fun _ h => h

theorem triple_complete (hroot : root.WellFormed) (id : Int) (expected : Option String)
    (fetched : Fetched ε) :
    Triple (Consistent root stored) ((opened root n).complete id expected fetched)
      (fun a d => Consistent root ((id, a.data) :: stored) d) (Consistent root stored) :=
  triple_thenLand (triple_thenRelease (triple_store hroot id expected fetched))

/-! ### Reading -/

/-- An entry that is read is what was stored last. -/
theorem triple_readEntry (id : Int) :
    Triple (Consistent root stored) ((opened root n).readEntry id)
      (fun r d => Consistent root stored d ∧ ∀ a, r = some a → stored.lookup id = some a.data)
      (Consistent root stored) := by
  refine Triple.of_same fun d₀ h => (triple_readEntry_valid (opened root n) d₀ id).mono ?_
  rintro r d ⟨hd, hvalid⟩
  exact ⟨hd, fun a ha => h.lookup_of_valid (hvalid a ha)⟩

/-! ### Getting -/

/-- What is known of a disk under the lock of a data set, and of what is read there, is known of
    what getting begins with. -/
theorem triple_begin_of {c : Cache} {T : Option Artifact → Disk → Prop}
    (hlock : Triple P (c.takeLock id) (fun _ => I) P) (hread : Triple I (c.readEntry id) T P)
    (timeout : Option Number) : Triple P (c.begin id timeout : Action (GetError ε) _) T P := by
  have hprobe : Triple P (c.probe id) T P := by
    unfold probe
    refine hlock.mapError.bind fun _ => ?_
    refine hread.attempt_bind (fun r => ?_) fun e => ?_
    · cases r with
      | none => exact triple_pure fun _ h => h
      | some a => exact (triple_releaseLock _ id).bind fun _ => triple_pure fun _ h => h
    · exact (triple_releaseLock _ id).bind fun _ => triple_throw fun _ h => h
  unfold begin
  refine (keeps_look _).bind fun flying => ?_
  split
  · cases timeout with
    | some seconds => exact triple_throw fun _ h => h
    | none => exact triple_stopped fun _ h => h
  · refine Triple.bind (triple_change fun _ => rfl) fun _ => ?_
    refine hprobe.attempt_bind (fun r => ?_) fun e => ?_
    · cases r with
      | none => exact triple_pure fun _ h => h
      | some a => exact (triple_land _ id).bind fun _ => triple_pure fun _ h => h
    · exact (triple_land _ id).bind fun _ => triple_throw fun _ h => h

/-- Getting begins with the entry that is there, and that was stored last. -/
theorem triple_begin (hroot : root.WellFormed) (id : Int) (timeout : Option Number) :
    Triple (Consistent root stored) ((opened root n).begin id timeout : Action (GetError ε) _)
      (fun r d => Consistent root stored d ∧ ∀ a, r = some a → stored.lookup id = some a.data)
      (Consistent root stored) :=
  triple_begin_of (keeps_takeLock hroot) (triple_readEntry id) timeout

/-! ### Listing and cleaning -/

theorem keeps_readMarker (path : Path) : Keeps I (readMarker path : Action ε _) :=
  keeps_of_same fun d₀ => triple_readMarker d₀ path

/-- The names that are listed are those of the disk with the suffix. -/
theorem triple_namesEnding (c : Cache) (d₀ : Disk) (suffix : String) :
    Triple (· = d₀) (c.namesEnding suffix) (fun names d => d = d₀ ∧ ∀ name, name ∈ names ↔
      d₀.isDirectory c.root = true ∧ name ∈ d₀.list c.root ∧ suffix.toList <:+ name.toList)
      (· = d₀) := by
  have hpresent : Triple (· = d₀) (Action.present c.root)
      (fun there d => d = d₀ ∧ d₀.present c.root = .ok there) (· = d₀) :=
    triple_inspect (fun _ _ hd hthere => ⟨hd, hd ▸ hthere⟩) fun _ hd => hd
  unfold namesEnding
  refine hpresent.mapError.bind fun there => Triple.of_and fun hthere => ?_
  cases there with
  | true =>
    have hlist : Triple (· = d₀) (Action.list c.root)
        (fun names d => d = d₀ ∧ ∀ name, name ∈ names ↔
          d₀.isDirectory c.root = true ∧ name ∈ d₀.list c.root) (· = d₀) := by
      refine triple_inspect (fun d names hd hnames => ⟨hd, fun name => ?_⟩) fun _ hd => hd
      subst hd
      obtain rfl := Except.ok.inj hnames
      split
      · next hdir => simp [hdir]
      · next hdir => simp [hdir]
    refine hlist.mapError.bind fun names => Triple.of_and fun hnames => ?_
    refine triple_pure fun d hd => ⟨hd, fun name => ?_⟩
    rw [List.mem_filter, hnames, List.isSuffixOf_iff_suffix, and_assoc]
  | false =>
    have hdir := Disk.isDirectory_of_absent hthere
    exact triple_pure fun d hd => ⟨hd, fun name => by simp [hdir]⟩

theorem keeps_namesEnding (c : Cache) (suffix : String) : Keeps I (c.namesEnding suffix) :=
  keeps_of_same fun d₀ => triple_namesEnding c d₀ suffix

/-- The names of files that are being written are found, and they are names in the directory. -/
theorem triple_partNames (h : ∀ d name, I d → name ∈ d.list root → IsName name) :
    Triple I ((opened root n).namesEnding partSuffix) (fun names d => I d ∧
      ((∀ name ∈ names, IsEntryName name ∧ EndsIn 't' name) ∧ ∀ name, name ∈ names ↔
        d.isDirectory root = true ∧ name ∈ d.list root ∧ partSuffix.toList <:+ name.toList)) I := by
  apply Triple.of_forall
  intro d₀ hd₀
  refine (triple_namesEnding _ d₀ partSuffix).consequence (fun _ hd => hd) ?_ ?_
  · intro names d hd
    obtain ⟨rfl, hnames⟩ := hd
    refine ⟨hd₀, ?_, hnames⟩
    intro name hname
    obtain ⟨-, hmem, hsuffix⟩ := (hnames name).1 hname
    have hending : EndsIn 't' name := endsIn_of_isSuffix (by rfl) hsuffix
    exact ⟨⟨h d name hd₀ hmem, hending.ne (by rfl : EndsIn '.' "..") (by decide)⟩, hending⟩
  · intro d hd
    exact hd ▸ hd₀

theorem keeps_entriesOf (c : Cache) (names : List String) : Keeps I (c.entriesOf names) := by
  induction names with
  | nil => exact keeps_pure _
  | cons name names ih =>
    unfold entriesOf
    refine (keeps_readMarker _).bind fun r => ?_
    cases r with
    | none => exact ih
    | some m =>
      refine (keeps_ofExcept _).mapError.bind fun entry => ?_
      exact ih.bind fun entries => keeps_pure _

theorem keeps_entries (c : Cache) : Keeps I c.entries := by
  unfold entries
  refine (keeps_namesEnding c _).bind fun names => ?_
  exact (keeps_entriesOf c names).bind fun _ => keeps_pure _

/-- What every eviction keeps, pruning keeps. -/
theorem keeps_pruneFrom {c : Cache} (hevict : ∀ name, Keeps I (c.evict name)) (limit total : Int)
    (entries : List Entry) : Keeps I (c.pruneFrom limit total entries) := by
  induction entries generalizing total with
  | nil => exact keeps_pure _
  | cons entry rest ih =>
    unfold pruneFrom
    split
    · exact keeps_pure _
    · refine (keeps_look _).bind fun flying => ?_
      split
      · exact ih total
      · refine (hevict _).bind fun removed => ?_
        split
        · exact (ih _).bind fun _ => keeps_pure _
        · exact ih total

theorem keeps_prune {c : Cache} (hevict : ∀ name, Keeps I (c.evict name)) (limit : Int) :
    Keeps I (c.prune limit) := by
  unfold prune
  split
  · refine (keeps_throw _).bind fun _ => (keeps_entries _).bind fun _ => ?_
    exact keeps_pruneFrom hevict _ _ _
  · exact (keeps_entries _).bind fun _ => keeps_pruneFrom hevict _ _ _

theorem keeps_evictAll {c : Cache} (hevict : ∀ name, Keeps I (c.evict name))
    (entries : List Entry) : Keeps I (c.evictAll entries) := by
  induction entries with
  | nil => exact keeps_pure _
  | cons entry rest ih =>
    unfold evictAll
    exact (hevict _).bind fun removed => ih.bind fun count => keeps_pure _

theorem keeps_sweepAll {c : Cache} {names : List String}
    (h : ∀ name ∈ names, Keeps I (removeIfPresent (c.root.child name))) :
    Keeps I (c.sweepAll names) := by
  induction names with
  | nil => exact keeps_pure _
  | cons name rest ih =>
    obtain ⟨hname, hrest⟩ := List.forall_mem_cons.1 h
    unfold sweepAll
    exact hname.mapError.bind fun _ => ih hrest

/-- What every eviction keeps, and every removal of a file that was being written, clearing
    keeps. -/
theorem keeps_clear_of (hevict : ∀ name, Keeps I ((opened root n).evict name))
    (hnames : ∀ d name, I d → name ∈ d.list root → IsName name)
    (hremove : ∀ name, IsEntryName name → EndsIn 't' name →
      Keeps I (removeIfPresent (root.child name))) : Keeps I (opened root n).clear := by
  unfold clear
  refine (keeps_entries _).bind fun entries => ?_
  refine (keeps_evictAll hevict entries).bind fun count => ?_
  refine (triple_partNames hnames).bind fun names => ?_
  intro w hw
  obtain ⟨hd, hparts, -⟩ := hw
  have hsweep : Keeps I ((opened root n).sweepAll names) :=
    keeps_sweepAll fun name hname => hremove name (hparts name hname).1 (hparts name hname).2
  exact (hsweep.bind fun _ => keeps_pure _) w hd

theorem keeps_clear (hroot : root.WellFormed) :
    Keeps (Consistent root stored) (opened root n).clear :=
  keeps_clear_of (keeps_evict hroot) (fun _ _ h => h.names _) fun _ => keeps_removePart

end DatasetCatalog.Cache
