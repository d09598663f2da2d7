import DatasetCatalog.Proofs.Cache.Files
import DatasetCatalog.Proofs.Triple

/-! # Valid entries

  An entry is valid when its marker can be read and records the size and the digest of the data
  beside it. Reading gives the data of valid entries and of no others, on a disk that nothing
  disturbs; where something does, it may give less.
-/

namespace DatasetCatalog.Cache

open DatasetCatalog.Action

variable {ε : Type} {c : Cache} {d : Disk} {id : Int} {data : ByteArray} {m : Marker}

/-! ### Markers and data -/

theorem gives_readMarker (d : Disk) (path : Path) :
    Gives d (readMarker path : Action ε (Option Marker)) (.ok (markerAt d path)) := by
  have hread : Gives d (readBytes path) (d.read path) := gives_inspect _
  unfold readMarker
  refine hread.attempt.bind ?_
  unfold markerAt
  cases d.read path with
  | error fault =>
    cases fault with
    | missing => exact gives_pure none
    | notDirectory | refused => exact (gives_note _).bind (gives_pure none)
  | ok bytes =>
    simp only
    cases Marker.ofBytes bytes with
    | fields m => exact gives_pure (some m)
    | unreadable | malformed => exact (gives_note _).bind (gives_pure none)

/-- Data of the size that a marker records is read. -/
theorem gives_readData {path : Path} {data : ByteArray} (hread : d.read path = .ok data)
    (hsize : m.hasSize data.size = true) : Gives d (readData path m) (.ok (some data)) := by
  have hlook := Disk.look_of_read hread
  have hpresent : Gives d (Action.present path) (.ok true) := by
    have h := gives_inspect (d := d) (·.present path)
    rwa [Disk.present, hlook] at h
  have hfileSize : Gives d (fileSize path) (.ok data.size) := by
    have h := gives_inspect (d := d) (·.sizeOf path)
    rwa [Disk.sizeOf_of_read hread] at h
  have hbytes : Gives d (readBytes path) (.ok data) := hread ▸ gives_inspect _
  unfold readData
  refine hpresent.bind ?_
  refine hfileSize.bind ?_
  rw [if_pos hsize]
  exact hbytes.bind (gives_pure _)

/-- A marker that is read is the one on the disk. -/
theorem triple_readMarker (d₀ : Disk) (path : Path) :
    Triple (· = d₀) (readMarker path : Action ε (Option Marker))
      (fun r d => d = d₀ ∧ ∀ m, r = some m → markerAt d₀ path = some m) (· = d₀) := by
  unfold readMarker
  refine (triple_readBytes d₀ path).attempt_bind (fun bytes => ?_) fun fault => ?_
  · simp only
    split
    · next m hm =>
      refine triple_pure fun d hd => ⟨hd.1, fun m' hm' => ?_⟩
      rw [markerAt, hd.2]
      simp only [hm, hm']
    · exact (triple_note _).bind fun _ => triple_pure fun d hd => ⟨hd.1, nofun⟩
    · exact (triple_note _).bind fun _ => triple_pure fun d hd => ⟨hd.1, nofun⟩
  · cases fault with
    | missing => exact triple_pure fun d hd => ⟨hd, nofun⟩
    | notDirectory | refused =>
      exact (triple_note _).bind fun _ => triple_pure fun d hd => ⟨hd, nofun⟩

/-- Data that is read is what is on the disk, of the size that the marker records. -/
theorem triple_readData (d₀ : Disk) (path : Path) (m : Marker) :
    Triple (· = d₀) (readData path m) (fun r d => d = d₀ ∧
      ∀ bytes, r = some bytes → d₀.read path = .ok bytes ∧ m.hasSize bytes.size = true)
      (· = d₀) := by
  have hnone : Triple (· = d₀) (pure none : Action FileFault (Option ByteArray))
      (fun r d => d = d₀ ∧ ∀ bytes, r = some bytes →
        d₀.read path = .ok bytes ∧ m.hasSize bytes.size = true) (· = d₀) :=
    triple_pure fun d hd => ⟨hd, nofun⟩
  have hsize : Triple (· = d₀) (fileSize path)
      (fun size d => d = d₀ ∧ d₀.sizeOf path = .ok size) (· = d₀) :=
    triple_inspect (fun _ _ hd hsize => ⟨hd, hd ▸ hsize⟩) fun _ hd => hd
  unfold readData
  -- whether there is anything does not matter, only the last operation gives data
  refine (keeps_inspect _).bind fun there => ?_
  split
  · refine hsize.bind fun size => Triple.of_and fun hsize => ?_
    split
    · next hmatches =>
      refine (triple_readBytes d₀ path).bind fun bytes => triple_pure ?_
      rintro d ⟨hd, hbytes⟩
      refine ⟨hd, fun bytes' h => ?_⟩
      obtain rfl := Option.some.inj h
      rw [Disk.sizeOf_of_read hbytes] at hsize
      obtain rfl := Except.ok.inj hsize
      exact ⟨hbytes, hmatches⟩
    · exact hnone
  · exact hnone

/-! ### Entries -/

/-- The data set has a valid entry with the data. -/
def Valid (c : Cache) (d : Disk) (id : Int) (data : ByteArray) : Prop :=
  ∃ bytes m, d.read (c.markerPath id) = .ok bytes ∧ Marker.ofBytes bytes = .fields m ∧
    d.read (c.dataPath id) = .ok data ∧ m.hasSize data.size = true ∧ m.hasDigest data = true

theorem read_of_markerAt {path : Path} {m : Marker} :
    markerAt d path = some m ↔
      ∃ bytes, d.read path = .ok bytes ∧ Marker.ofBytes bytes = .fields m := by
  refine ⟨exists_read_of_markerAt, ?_⟩
  rintro ⟨bytes, hread, hfields⟩
  simp only [markerAt, hread, hfields]

/-- A valid entry is read. -/
theorem gives_readEntry_of_valid (h : Valid c d id data) :
    ∃ format, Gives d (c.readEntry id) (.ok (some ⟨id, data, format, c.dataPath id⟩)) := by
  obtain ⟨bytes, m, hmarker, hfields, hdata, hsize, hdigest⟩ := h
  have hread := gives_readMarker (ε := CacheError) d (c.markerPath id)
  rw [read_of_markerAt.2 ⟨bytes, hmarker, hfields⟩] at hread
  refine ⟨(m.lookup "format").getD (.str c.format), ?_⟩
  unfold readEntry
  refine hread.bind ((gives_readData hdata hsize).mapError.bind ?_)
  simp only
  rw [if_pos hdigest]
  exact gives_pure _

/-- What is read of an entry is valid, whatever becomes of the reading. -/
theorem triple_readEntry_valid (c : Cache) (d₀ : Disk) (id : Int) :
    Triple (· = d₀) (c.readEntry id)
      (fun r d => d = d₀ ∧ ∀ a, r = some a → Valid c d₀ id a.data) (· = d₀) := by
  have hnone : Triple (· = d₀) (pure none : Action CacheError (Option Artifact))
      (fun r d => d = d₀ ∧ ∀ a, r = some a → Valid c d₀ id a.data) (· = d₀) :=
    triple_pure fun d hd => ⟨hd, nofun⟩
  unfold readEntry
  refine (triple_readMarker d₀ _).bind fun r => Triple.of_and fun hr => ?_
  cases r with
  | none =>
    refine (keeps_inspect _).mapError.bind fun there => ?_
    split
    · exact (triple_note _).bind fun _ => hnone
    · exact hnone
  | some m =>
    obtain ⟨bytes, hmarker, hfields⟩ := exists_read_of_markerAt (hr m rfl)
    refine (triple_readData d₀ _ _).mapError.bind fun found => Triple.of_and fun hfound => ?_
    cases found with
    | none => exact (triple_note _).bind fun _ => hnone
    | some data =>
      obtain ⟨hdata, hsize⟩ := hfound data rfl
      simp only
      split
      · next hdigest =>
        refine triple_pure fun d hd => ⟨hd, fun a ha => ?_⟩
        obtain rfl := Option.some.inj ha
        exact ⟨bytes, m, hmarker, hfields, hdata, hsize, hdigest⟩
      · exact (triple_note _).bind fun _ => hnone

/-- **Valid are the entries that are read** when nothing disturbs the reading. -/
theorem valid_iff_readEntry {w : World} (hv : w.verdicts = []) :
    Valid c w.disk id data ↔
      ∃ a, ((c.readEntry id).exec w).1 = some (.ok (some a)) ∧ a.data = data := by
  constructor
  · intro h
    obtain ⟨format, hgives⟩ := gives_readEntry_of_valid h
    exact ⟨_, hgives.outcome rfl hv, rfl⟩
  · rintro ⟨a, ha, rfl⟩
    have hread := triple_readEntry_valid c w.disk id w rfl
    revert hread ha
    rcases (c.readEntry id).exec w with ⟨_ | _ | r, next⟩
    · exact nofun
    · exact nofun
    · intro ha hread
      exact hread.2 a (Except.ok.inj (Option.some.inj ha))

/-! ### Entries of consistent caches -/

variable {root : Path} {n : Nat} {stored : History}

/-- A data set with a marker has a valid entry. -/
theorem Consistent.exists_valid (h : Consistent root stored d)
    (hm : markerAt d (root.child (markerName id)) = some m) :
    ∃ data, Valid (opened root n) d id data := by
  obtain ⟨data, moment, -, hdata, rfl, -⟩ := h.markerAt_eq hm
  obtain ⟨bytes, hread, hfields⟩ := exists_read_of_markerAt hm
  exact ⟨data, bytes, _, hread, hfields, hdata, Marker.hasSize_ofData, Marker.hasDigest_ofData⟩

/-- A valid entry is what was stored last. -/
theorem Consistent.lookup_of_valid (h : Consistent root stored d)
    (hvalid : Valid (opened root n) d id data) : stored.lookup id = some data := by
  obtain ⟨bytes, m, hmarker, hfields, hdata, -⟩ := hvalid
  obtain ⟨found, moment, hstored, hfound, -⟩ :=
    h.markerAt_eq (read_of_markerAt.2 ⟨bytes, hmarker, hfields⟩)
  obtain rfl : found = data := Except.ok.inj (hfound.symm.trans hdata)
  exact hstored

end DatasetCatalog.Cache
