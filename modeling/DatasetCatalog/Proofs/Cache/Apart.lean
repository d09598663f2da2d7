import DatasetCatalog.Proofs.Cache.Alike

/-! # The files of one data set

  A data set has four names in the directory of a cache: those of its marker and its data, and of
  the two while they are being written. A call for the data set changes no file under another name,
  and as long as it does not store it changes no file at all.
-/

namespace DatasetCatalog.Cache

open DatasetCatalog.Action DatasetCatalog.Disk DatasetCatalog.Path

variable {ε α : Type} {root : Path} {n : Nat} {id : Int} {name other : String}
  {names names' : List String} {d₀ d d' : Disk}

/-- The names of the files that are being written for a data set. -/
def partsOf (id : Int) : List String := [dataName id ++ partSuffix, markerName id ++ partSuffix]

/-- The names of the files of a data set. -/
def filesOf (id : Int) : List String := markerName id :: dataName id :: partsOf id

theorem isEntryName_of_mem_filesOf (h : name ∈ filesOf id) : IsEntryName name := by
  simp only [filesOf, partsOf, List.mem_cons, List.not_mem_nil, or_false] at h
  obtain rfl | rfl | rfl | rfl := h
  · exact isEntryName_markerName id
  · exact isEntryName_dataName id
  · exact isEntryName_dataPart id
  · exact isEntryName_markerPart id

theorem markerName_not_mem_filesOf {i : Int} (h : i ≠ id) : markerName i ∉ filesOf id := by
  have hdata := (endsIn_markerName i).ne (endsIn_dataName id) (by decide)
  have hparts : ∀ base, markerName i ≠ base ++ partSuffix := fun base =>
    (endsIn_markerName i).ne (endsIn_part base) (by decide)
  simp [filesOf, partsOf, hdata, hparts, markerName_injective.eq_iff, h]

theorem dataName_not_mem_filesOf {i : Int} (h : i ≠ id) : dataName i ∉ filesOf id := by
  have hmarker := (endsIn_dataName i).ne (endsIn_markerName id) (by decide)
  have hparts : ∀ base, dataName i ≠ base ++ partSuffix := fun base =>
    (endsIn_dataName i).ne (endsIn_part base) (by decide)
  simp [filesOf, partsOf, hmarker, hparts, dataName_injective.eq_iff, h]

theorem dataPart_ne_markerPart (id : Int) :
    dataName id ++ partSuffix ≠ markerName id ++ partSuffix := by
  intro h
  have hlist := congrArg String.toList h
  rw [String.toList_append, String.toList_append] at hlist
  exact (endsIn_dataName id).ne (endsIn_markerName id) (by decide)
    (String.toList_inj.1 (List.append_cancel_right hlist))

/-! ### Disks that agree apart from some names -/

/-- The files under all but the given names are as they were. -/
structure Apart (root : Path) (names : List String) (d₀ d : Disk) : Prop where
  /-- There are no files without the directory. -/
  grounded : Grounded root d
  agree : ∀ name, IsEntryName name → name ∉ names → Agree (root.child name) d₀ d

theorem apart_refl (h : Grounded root d) : Apart root names d d :=
  ⟨h, fun _ _ _ _ => Iff.rfl⟩

theorem Apart.mono (h : Apart root names d₀ d) (hsub : names ⊆ names') : Apart root names' d₀ d :=
  ⟨h.grounded, fun name hname hnot => h.agree name hname (mt (@hsub name) hnot)⟩

theorem Apart.trans (h : Apart root names d₀ d) (h' : Apart root names d d') :
    Apart root names d₀ d' :=
  ⟨h'.grounded, fun name hname hnot => (h.agree name hname hnot).trans (h'.agree name hname hnot)⟩

theorem Apart.makeDirectory {q : Path} (h : Apart root names d₀ d)
    (hmake : d.makeDirectory q = .ok d') : Apart root names d₀ d' where
  grounded := h.grounded.makeDirectory hmake
  agree := fun name hname hnot =>
    (h.agree name hname hnot).trans (h.grounded.agree_makeDirectory hmake hname)

/-- A change under one of the names. -/
theorem Apart.change (h : Apart root names d₀ d) (hname : IsEntryName name) (hmem : name ∈ names)
    (hdir : d.isDirectory root = true) (hoff : SameOff (root.child name) d d') :
    Apart root names d₀ d' where
  grounded := grounded_of_isDirectory ((hoff.isDirectory hname).trans hdir)
  agree := by
    intro other hother hnot
    have hne : name ≠ other := fun heq => hnot (heq ▸ hmem)
    exact (h.agree other hother hnot).trans (agree_of_eq (hoff.read hname hother hne))

/-- Entries are valid as before when their files are as they were. -/
theorem Apart.valid_iff (h : Apart root names d₀ d) {i : Int} (hmarker : markerName i ∉ names)
    (hdata : dataName i ∉ names) {data : ByteArray} :
    Valid (opened root n) d i data ↔ Valid (opened root n) d₀ i data :=
  Untouched.valid_iff ⟨h.agree _ (isEntryName_markerName i) hmarker,
    h.agree _ (isEntryName_dataName i) hdata⟩

/-! ### Single operations -/

theorem keeps_makeDirectories_apart {p : Path} (hp : p.WellFormed) :
    Keeps (Apart root names d₀) (makeDirectories p) :=
  keeps_makeDirectories hp fun _ _ _ _ h => h.makeDirectory

theorem keeps_removeIfPresent_apart (hname : IsEntryName name) (hmem : name ∈ names) :
    Keeps (Apart root names d₀) (removeIfPresent (root.child name)) := by
  refine triple_removeIfPresent ?_ (fun _ h _ => h) fun _ h => h
  intro d d' h hremove
  obtain ⟨hdir, hoff, -⟩ := remove_child_eq_ok hname hremove
  exact h.change hname hmem hdir hoff

theorem keeps_writeBytes_apart (hname : IsEntryName name) (hmem : name ∈ names)
    (bytes : ByteArray) : Keeps (Apart root names d₀) (writeBytes (root.child name) bytes) := by
  have hwritten : ∀ d d' part, Apart root names d₀ d → d.write (root.child name) part = .ok d' →
      Apart root names d₀ d' := by
    intro d d' part h hwrite
    obtain ⟨hdir, hoff, -⟩ := write_child_eq_ok hname hwrite
    exact h.change hname hmem hdir hoff
  exact triple_writeBytes (fun d d' h => hwritten d d' bytes h) (fun _ h => h) hwritten

theorem keeps_rename_apart (hname : IsEntryName name) (hmem : name ∈ names)
    (hother : IsEntryName other) (hmem' : other ∈ names) :
    Keeps (Apart root names d₀) (rename (root.child name) (root.child other)) := by
  refine triple_alter ?_ fun _ h => h
  intro d d' h hrename
  obtain ⟨hdir, between, hoff, hoff', -⟩ := rename_child_eq_ok hname hother hrename
  have hdir' : between.isDirectory root = true := (hoff.isDirectory hname).trans hdir
  exact (h.change hname hmem hdir hoff).change hother hmem' hdir' hoff'

/-! ### Calls -/

/-- Until something is stored, no file changes. -/
theorem triple_begin_apart (hroot : root.WellFormed) (id : Int) (timeout : Option Number) :
    Triple (Apart root [] d₀) ((opened root n).begin id timeout : Action (GetError ε) _)
      (fun r d => Apart root [] d₀ d ∧ ∀ a, r = some a → Valid (opened root n) d id a.data)
      (Apart root [] d₀) :=
  (triple_begin_valid (keeps_makeDirectories_apart (wellFormed_locksOf hroot)) id timeout).mono
    fun _ _ h => ⟨h.1.1, h.2⟩

theorem keeps_placeEntry_apart (hroot : root.WellFormed) (id : Int) (data : ByteArray)
    (m : Marker) :
    Keeps (Apart root (filesOf id) d₀) ((opened root n).placeEntry id data m) := by
  have hmarker : markerName id ∈ filesOf id := by simp [filesOf]
  have hdata : dataName id ∈ filesOf id := by simp [filesOf]
  have hmarkerPart : markerName id ++ partSuffix ∈ filesOf id := by simp [filesOf, partsOf]
  have hdataPart : dataName id ++ partSuffix ∈ filesOf id := by simp [filesOf, partsOf]
  have hname : ∀ {name}, name ∈ filesOf id → IsEntryName name := isEntryName_of_mem_filesOf
  unfold placeEntry
  simp only [dataPath_opened, markerPath_opened, addSuffix_dataName, addSuffix_markerName]
  refine (keeps_makeDirectories_apart hroot).bind fun _ => ?_
  refine (keeps_removeIfPresent_apart (hname hmarker) hmarker).bind fun _ => ?_
  refine (keeps_writeBytes_apart (hname hdataPart) hdataPart data).bind fun _ => ?_
  refine (keeps_rename_apart (hname hdataPart) hdataPart (hname hdata) hdata).bind fun _ => ?_
  refine (keeps_writeBytes_apart (hname hmarkerPart) hmarkerPart _).bind fun _ => ?_
  exact keeps_rename_apart (hname hmarkerPart) hmarkerPart (hname hmarker) hmarker

theorem keeps_writeEntry_apart (hroot : root.WellFormed) (id : Int) (data : ByteArray) :
    Keeps (Apart root (filesOf id) d₀) ((opened root n).writeEntry id data) := by
  have hmarkerPart : markerName id ++ partSuffix ∈ filesOf id := by simp [filesOf, partsOf]
  have hdataPart : dataName id ++ partSuffix ∈ filesOf id := by simp [filesOf, partsOf]
  have hsweep : ∀ name ∈ filesOf id, Keeps (Apart root (filesOf id) d₀)
      (sweep (root.child name) : Action StorageError Unit) := fun name hmem =>
    (keeps_removeIfPresent_apart (isEntryName_of_mem_filesOf hmem) hmem).attempt_bind
      (fun _ => keeps_pure _) fun _ => triple_note _
  unfold writeEntry
  refine triple_stamp.bind fun moment => ?_
  refine (keeps_placeEntry_apart hroot id data _).attempt_bind (fun _ => keeps_pure _) fun _ => ?_
  simp only [dataPath_opened, markerPath_opened, addSuffix_dataName, addSuffix_markerName]
  refine (hsweep _ hdataPart).bind fun _ => ?_
  exact (hsweep _ hmarkerPart).bind fun _ => keeps_throw _

/-- **Storing changes the files of its data set at most.** -/
theorem keeps_store_apart (hroot : root.WellFormed) (id : Int) (expected : Option String)
    (fetched : Fetched ε) :
    Keeps (Apart root (filesOf id) d₀) ((opened root n).store id expected fetched) := by
  cases fetched with
  | bytes data =>
    exact (keeps_check id data expected).bind fun _ =>
      (keeps_writeEntry_apart hroot id data).mapError
  | other | fetchError | storageError | failure | interruption => exact keeps_throw _

end DatasetCatalog.Cache
