import DatasetCatalog.Cache.Basic
import DatasetCatalog.Proofs.Cache.Valid

/-! # What a cache tells about its entries

  When nothing disturbs the reading, a data set has an entry exactly when the entry is listed, and
  the listing tells the sizes that the data really has.
-/

namespace DatasetCatalog.Cache

open DatasetCatalog.Action DatasetCatalog.Path

variable {ε : Type} {root : Path} {n : Nat} {stored : History} {d : Disk} {id : Int} {m : Marker}

/-! ### Single entries -/

/-- A data set with a marker has an entry. -/
theorem gives_contains_of_marker (h : Consistent root stored d)
    (hm : markerAt d (root.child (markerName id)) = some m) :
    Gives d ((opened root n).contains id) (.ok true) := by
  obtain ⟨data, hvalid⟩ := h.exists_valid (n := n) hm
  obtain ⟨format, hentry⟩ := gives_readEntry_of_valid hvalid
  exact hentry.bind (gives_pure true)

/-- A data set without a marker has no entry, whatever else stands there. -/
theorem gives_contains_of_none (hm : markerAt d (root.child (markerName id)) = none) :
    ∃ r, Gives d ((opened root n).contains id) r ∧ r ≠ .ok true := by
  have hmarker := gives_readMarker (ε := CacheError) d (root.child (markerName id))
  rw [hm] at hmarker
  have hpresent : Gives d (Action.present (root.child (dataName id)))
      (d.present (root.child (dataName id))) := gives_inspect _
  cases hthere : d.present (root.child (dataName id)) with
  | error fault =>
    rw [hthere] at hpresent
    have hentry : Gives d ((opened root n).readEntry id) (.error (.file fault)) :=
      hmarker.bind hpresent.mapError.bind_error
    exact ⟨_, hentry.bind_error, nofun⟩
  | ok there =>
    rw [hthere] at hpresent
    have hentry : Gives d ((opened root n).readEntry id) (.ok none) := by
      refine hmarker.bind (hpresent.mapError.bind ?_)
      cases there with
      | true => exact (gives_note _).bind (gives_pure none)
      | false => exact gives_pure none
    exact ⟨_, hentry.bind (gives_pure false), nofun⟩

/-- **A data set has an entry exactly when it has a marker** that can be read. -/
theorem contains_iff (h : Consistent root stored d) {w : World} (hw : w.disk = d)
    (hv : w.verdicts = []) :
    (((opened root n).contains id).exec w).1 = some (.ok true) ↔
      (markerAt d (root.child (markerName id))).isSome = true := by
  cases hm : markerAt d (root.child (markerName id)) with
  | some m => simp [(gives_contains_of_marker h hm).outcome hw hv]
  | none =>
    obtain ⟨r, hr, hne⟩ := gives_contains_of_none (n := n) hm
    simp [hr.outcome hw hv, hne]

/-! ### The listing -/

/-- The entry of a listing that a marker gives under a name. -/
def entryAt (c : Cache) (d : Disk) (name : String) : Option Entry :=
  (markerAt d (c.root.child name)).bind fun m => (c.entryOf name m).toOption.join

theorem gives_entriesOf (c : Cache) (d : Disk) {names : List String}
    (h : ∀ name ∈ names, ∀ m, markerAt d (c.root.child name) = some m →
      ∃ entry, c.entryOf name m = .ok entry) :
    Gives d (c.entriesOf names) (.ok (names.filterMap (c.entryAt d))) := by
  induction names with
  | nil => exact gives_pure []
  | cons name names ih =>
    obtain ⟨hname, hnames⟩ := List.forall_mem_cons.1 h
    have hmarker := gives_readMarker (ε := CacheError) d (c.root.child name)
    unfold entriesOf
    refine hmarker.bind ?_
    cases hm : markerAt d (c.root.child name) with
    | none =>
      rw [List.filterMap_cons_none (by simp [entryAt, hm])]
      exact ih hnames
    | some m =>
      obtain ⟨entry, hentry⟩ := hname m hm
      have hhere : c.entryAt d name = entry := by
        simp [entryAt, hm, hentry, Except.toOption]
      have hof := gives_ofExcept (d := d) (c.entryOf name m)
      rw [hentry] at hof
      have hlist : (name :: names).filterMap (c.entryAt d) =
          entry.toList ++ names.filterMap (c.entryAt d) := by
        cases entry with
        | none => rw [List.filterMap_cons_none hhere]; rfl
        | some e => rw [List.filterMap_cons_some hhere]; rfl
      simp only
      rw [hentry, hlist]
      exact hof.mapError.bind ((ih hnames).bind (gives_pure _))

/-- A marker is named after its data set. -/
theorem datasetOfName?_markerName (hfits : fitsInteger id = true) :
    datasetOfName? (markerName id) = some id := by
  have hdot : ∀ c ∈ (integerText id).toList, (c != '.') = true := by
    intro c hc
    rw [bne_iff_ne]
    rintro rfl
    exact (mem_integerText hc).elim (by decide) (by decide)
  have hfront : (markerName id).toList.takeWhile (· != '.') = (integerText id).toList := by
    rw [markerName, String.toList_append, List.takeWhile_append_of_pos hdot]
    exact List.append_nil _
  have hlength : (decimalDigits id.natAbs).length ≤ Numeral.digitLimit := of_decide_eq_true hfits
  rw [datasetOfName?, hfront, integer_integerText_eq, if_neg (Nat.not_lt.2 hlength)]

/-- A marker is listed under its data set, with the size of its data. -/
theorem entryOf_markerName {data : ByteArray} {moment : Timestamp}
    (hfits : fitsInteger id = true) :
    (opened root n).entryOf (markerName id) (Marker.ofData id "arff" data moment) =
      .ok (some ⟨id, root.child (dataName id), data.size, Digest.sha256 data, moment.iso⟩) := by
  unfold entryOf
  rw [datasetOfName?_markerName hfits]
  rfl

/-- A marker beside data can be read, unless the size of the data has too many digits. -/
theorem exists_markerAt_of_read (h : Consistent root stored d) {bytes : ByteArray}
    (hread : d.read (root.child (markerName id)) = .ok bytes)
    (hshort : ∀ data, d.read (root.child (dataName id)) = .ok data →
      data.size < 10 ^ Numeral.digitLimit) :
    ∃ data moment, d.read (root.child (dataName id)) = .ok data ∧
      markerAt d (root.child (markerName id)) = some (Marker.ofData id "arff" data moment) := by
  obtain ⟨-, hfits, -⟩ := (Disk.read_child_eq_ok_iff (isEntryName_markerName id)).1 hread
  obtain ⟨data, moment, -, hdata, rfl⟩ := h.read_data hread
  have hfitsSize : fitsInteger data.size = true :=
    decide_eq_true ((Nat.length_toDigits_le_iff (by decide) (by decide)).2 (hshort data hdata))
  refine ⟨data, moment, hdata, read_of_markerAt.2 ⟨_, hread, ?_⟩⟩
  rw [Marker.ofBytes_toBytes (by decide), fitsInteger_of_markerName hfits, hfitsSize]
  rfl

/-- The names of the markers that are listed. -/
def markerNames (d : Disk) (root : Path) : List String :=
  (if d.isDirectory root then d.list root else []).filter fun name =>
    markerSuffix.toList.isSuffixOf name.toList

theorem mem_markerNames {name : String} : name ∈ markerNames d root ↔
    d.isDirectory root = true ∧ name ∈ d.list root ∧ markerSuffix.toList <:+ name.toList := by
  rw [markerNames, List.mem_filter, List.isSuffixOf_iff_suffix, ← and_assoc]
  refine and_congr_left fun _ => ?_
  split
  · next h => simp [h]
  · next h => simp [h]

/-- Of the names that end as markers do, only those of markers can be read. -/
theorem exists_marker_of_markerAt (h : Consistent root stored d) {name : String}
    (hname : name ∈ markerNames d root) (hm : markerAt d (root.child name) = some m) :
    ∃ id, name = markerName id := by
  obtain ⟨hdir, hmem, hsuffix⟩ := mem_markerNames.1 hname
  have hending : EndsIn 'n' name := endsIn_of_isSuffix (by rfl) hsuffix
  have hentryName : IsEntryName name :=
    ⟨h.names name hmem, hending.ne (by rfl : EndsIn '.' "..") (by decide)⟩
  obtain ⟨bytes, hread, -⟩ := exists_read_of_markerAt hm
  obtain ⟨-, -, hfile⟩ := (Disk.read_child_eq_ok_iff hentryName).1 hread
  exact h.paired.named name bytes hfile hsuffix

/-- A marker that can be read is listed. -/
theorem markerName_mem_markerNames (hm : markerAt d (root.child (markerName id)) = some m) :
    markerName id ∈ markerNames d root := by
  obtain ⟨bytes, hread, -⟩ := exists_read_of_markerAt hm
  obtain ⟨hdir, -, hfile⟩ := (Disk.read_child_eq_ok_iff (isEntryName_markerName id)).1 hread
  exact mem_markerNames.2 ⟨hdir, Disk.mem_list_of_file? hfile, isSuffix_markerName id⟩

/-- The listing has one entry for each marker that can be read. -/
def listing (c : Cache) (d : Disk) : List Entry :=
  ((markerNames d c.root).filterMap (c.entryAt d)).mergeSort Entry.le

theorem gives_namesEnding {c : Cache} {there : Bool} (hthere : d.present c.root = .ok there)
    (suffix : String) : Gives d (c.namesEnding suffix)
      (.ok ((if d.isDirectory c.root then d.list c.root else []).filter fun name =>
        suffix.toList.isSuffixOf name.toList)) := by
  have hpresent : Gives d (Action.present c.root) (.ok there) := hthere ▸ gives_inspect _
  have hlist : Gives d (Action.list c.root)
      (.ok (if d.isDirectory c.root then d.list c.root else [])) := gives_inspect _
  unfold namesEnding
  refine hpresent.mapError.bind ?_
  cases there with
  | true => exact hlist.mapError.bind (gives_pure _)
  | false =>
    rw [Disk.isDirectory_of_absent hthere]
    exact gives_pure []

theorem gives_entries (h : Consistent root stored d) {there : Bool}
    (hthere : d.present root = .ok there) :
    Gives d (opened root n).entries (.ok ((opened root n).listing d)) := by
  have hnames : Gives d ((opened root n).namesEnding markerSuffix) (.ok (markerNames d root)) :=
    gives_namesEnding hthere markerSuffix
  have hentry : ∀ name ∈ markerNames d root, ∀ m, markerAt d (root.child name) = some m →
      ∃ entry, (opened root n).entryOf name m = .ok entry := by
    intro name hname m hm
    obtain ⟨id, rfl⟩ := exists_marker_of_markerAt h hname hm
    obtain ⟨data, moment, -, -, rfl, hfits⟩ := h.markerAt_eq hm
    exact ⟨_, entryOf_markerName hfits⟩
  unfold entries
  exact hnames.bind ((gives_entriesOf (opened root n) d hentry).bind (gives_pure _))

/-- When it cannot be told whether there is a directory, nothing is listed. -/
theorem gives_entries_error {c : Cache} {fault : FileFault} (hthere : d.present c.root = .error fault) :
    Gives d c.entries (.error (.file fault)) := by
  have hpresent : Gives d (Action.present c.root) (.error fault) := hthere ▸ gives_inspect _
  have hnames : Gives d (c.namesEnding markerSuffix) (.error (.file fault)) := by
    unfold namesEnding
    exact hpresent.mapError.bind_error
  unfold entries
  exact hnames.bind_error

theorem gives_total {c : Cache} {r : Except CacheError (List Entry)} (h : Gives d c.entries r) :
    Gives d c.total (r.map sizeOf) := by
  unfold total
  cases r with
  | error e => exact h.bind_error
  | ok entries => exact h.bind (gives_pure _)

/-- What is listed are the data sets with a marker that can be read, with the size and the digest
    that their data has. -/
theorem mem_listing_iff (h : Consistent root stored d) (entry : Entry) :
    entry ∈ (opened root n).listing d ↔
      ∃ id data moment,
        markerAt d (root.child (markerName id)) = some (Marker.ofData id "arff" data moment) ∧
        d.read (root.child (dataName id)) = .ok data ∧
        entry = ⟨id, root.child (dataName id), data.size, Digest.sha256 data, moment.iso⟩ := by
  rw [listing, List.mem_mergeSort, List.mem_filterMap]
  constructor
  · rintro ⟨name, hname, hentry⟩
    obtain ⟨m, hm, hof⟩ := Option.bind_eq_some_iff.1 hentry
    obtain ⟨id, rfl⟩ := exists_marker_of_markerAt h hname hm
    obtain ⟨data, moment, -, hdata, rfl, hfits⟩ := h.markerAt_eq hm
    rw [entryOf_markerName hfits] at hof
    exact ⟨id, data, moment, hm, hdata, (Option.some.inj hof).symm⟩
  · rintro ⟨id, data, moment, hm, -, rfl⟩
    obtain ⟨-, -, -, -, -, hfits⟩ := h.markerAt_eq hm
    refine ⟨markerName id, markerName_mem_markerNames hm, ?_⟩
    rw [entryAt, hm, Option.bind_some, entryOf_markerName hfits]
    rfl

/-! ### Entries and the listing -/

variable {w : World}

/-- The listing of an undisturbed cache, if there is one. -/
theorem entries_cases (h : Consistent root stored d) (hw : w.disk = d) (hv : w.verdicts = []) :
    (∃ there, d.present root = .ok there ∧
        ((opened root n).entries.exec w).1 = some (.ok ((opened root n).listing d))) ∨
      ∃ fault, d.present root = .error fault ∧
        ((opened root n).entries.exec w).1 = some (.error (.file fault)) := by
  cases hthere : d.present root with
  | ok there => exact .inl ⟨there, rfl, (gives_entries h hthere).outcome hw hv⟩
  | error fault => exact .inr ⟨fault, rfl, (gives_entries_error hthere).outcome hw hv⟩

theorem eq_listing (h : Consistent root stored d) (hw : w.disk = d) (hv : w.verdicts = [])
    {es : List Entry} (hes : ((opened root n).entries.exec w).1 = some (.ok es)) :
    es = (opened root n).listing d := by
  obtain ⟨-, -, hentries⟩ | ⟨fault, -, hentries⟩ := entries_cases (n := n) h hw hv
  · exact Except.ok.inj (Option.some.inj (hes.symm.trans hentries))
  · rw [hentries] at hes
    cases hes

/-- **The data sets that have an entry are those that are listed.** -/
theorem contains_iff_listed (h : Consistent root stored d) (hw : w.disk = d)
    (hv : w.verdicts = []) (id : Int) :
    (((opened root n).contains id).exec w).1 = some (.ok true) ↔
      ∃ es, ((opened root n).entries.exec w).1 = some (.ok es) ∧ id ∈ es.map (·.dataset) := by
  rw [contains_iff h hw hv]
  constructor
  · intro hsome
    obtain ⟨m, hm⟩ := Option.isSome_iff_exists.1 hsome
    obtain ⟨data, moment, -, hdata, rfl, -⟩ := h.markerAt_eq hm
    obtain ⟨-, -, hentries⟩ | ⟨fault, hfault, -⟩ := entries_cases (n := n) h hw hv
    · have hlisted := (mem_listing_iff (n := n) h
        ⟨id, root.child (dataName id), data.size, Digest.sha256 data, moment.iso⟩).2
        ⟨id, data, moment, hm, hdata, rfl⟩
      exact ⟨_, hentries, List.mem_map_of_mem hlisted⟩
    · -- the marker stands in a directory
      obtain ⟨hdir, -⟩ := mem_markerNames.1 (markerName_mem_markerNames hm)
      rw [Disk.present, Disk.isDirectory_eq_true_iff.1 hdir] at hfault
      cases hfault
  · rintro ⟨es, hes, hid⟩
    obtain ⟨entry, hentry, rfl⟩ := List.mem_map.1 hid
    obtain rfl := eq_listing h hw hv hes
    obtain ⟨id, data, moment, hm, -, rfl⟩ := (mem_listing_iff h entry).1 hentry
    rw [hm]
    rfl

/-- A listed entry tells the path, the size and the digest of its data. -/
theorem read_of_listed (h : Consistent root stored d) (hw : w.disk = d) (hv : w.verdicts = [])
    {es : List Entry} (hes : ((opened root n).entries.exec w).1 = some (.ok es)) {entry : Entry}
    (hentry : entry ∈ es) :
    entry.path = root.child (dataName entry.dataset) ∧ ∃ data, d.read entry.path = .ok data ∧
      entry.size = data.size ∧ entry.digest = Digest.sha256 data := by
  obtain rfl := eq_listing h hw hv hes
  obtain ⟨id, data, moment, -, hdata, rfl⟩ := (mem_listing_iff h entry).1 hentry
  dsimp only
  exact ⟨rfl, data, hdata, rfl, rfl⟩

end DatasetCatalog.Cache
