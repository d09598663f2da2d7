import DatasetCatalog.Cache.Entry
import DatasetCatalog.Proofs.Cache.Marker
import DatasetCatalog.Proofs.Disk
import DatasetCatalog.Proofs.Number.Written

/-! # The files of a cache

  Which files a cache keeps in its directory, and when they agree with each other: a marker only
  stands beside the data that it records, and the data was stored last for its data set. Removing a
  marker, or changing data that has no marker, keeps this; a marker that is put beside its data
  makes it true of the new data.
-/

namespace DatasetCatalog.Cache

open DatasetCatalog.Path

/-! ### Names -/

/-- The cache of ARFF files in a directory, opened under a number. -/
abbrev opened (root : Path) (number : Nat) : Cache := { root, number }

/-- The name of the data file of a data set. -/
def dataName (id : Int) : String := integerText id ++ "." ++ "arff"

/-- The name of the marker of a data set. -/
def markerName (id : Int) : String := integerText id ++ markerSuffix

/-- The name ends in a character; names of different kinds end differently. -/
def EndsIn (c : Char) (name : String) : Prop := name.toList.getLast? = some c

variable {id other : Int} {c c' : Char} {name name' : String}

theorem endsIn_append {suffix : String} (h : EndsIn c suffix) (name : String) :
    EndsIn c (name ++ suffix) := by
  unfold EndsIn at *
  rw [String.toList_append, List.getLast?_append, h]
  rfl

theorem isSuffix_markerName (id : Int) : markerSuffix.toList <:+ (markerName id).toList := by
  rw [markerName, String.toList_append]
  exact List.suffix_append _ _

theorem endsIn_dataName (id : Int) : EndsIn 'f' (dataName id) := endsIn_append (by rfl) _

theorem endsIn_markerName (id : Int) : EndsIn 'n' (markerName id) := endsIn_append (by rfl) _

theorem endsIn_part (name : String) : EndsIn 't' (name ++ partSuffix) := endsIn_append (by rfl) _

theorem EndsIn.ne (h : EndsIn c name) (h' : EndsIn c' name') (hc : c ≠ c') : name ≠ name' := by
  rintro rfl
  exact hc (Option.some.inj (h.symm.trans h'))

/-- A name with an ending ends as the ending does. -/
theorem endsIn_of_isSuffix {suffix : String} (h : EndsIn c suffix)
    (hname : suffix.toList <:+ name.toList) : EndsIn c name := by
  obtain ⟨front, hfront⟩ := hname
  unfold EndsIn at *
  rw [← hfront, List.getLast?_append, h]
  rfl

theorem isEntryName_append {suffix : String} (id : Int) (hlength : 2 ≤ suffix.toList.length)
    (hslash : '/' ∉ suffix.toList) : IsEntryName (integerText id ++ suffix) := by
  have hlong : 2 < (integerText id ++ suffix).toList.length := by
    obtain ⟨first, more, hmore, -⟩ := Json.head_integerText id
    rw [String.toList_append, List.length_append, hmore, List.length_cons]
    omega
  have hne : ∀ short : String, short.toList.length ≤ 2 → integerText id ++ suffix ≠ short := by
    rintro short hshort rfl
    omega
  refine ⟨⟨hne _ (by decide), hne _ (by decide), ?_⟩, hne _ (by decide)⟩
  rw [String.toList_append, List.mem_append]
  rintro (h | h)
  · exact absurd (chars_integerText id _ h) (by decide)
  · exact hslash h

theorem isEntryName_markerName (id : Int) : IsEntryName (markerName id) :=
  isEntryName_append id (by decide) (by decide)

theorem isEntryName_markerPart (id : Int) : IsEntryName (markerName id ++ partSuffix) := by
  rw [markerName, String.append_assoc]
  exact isEntryName_append id (by decide) (by decide)

theorem isEntryName_dataName (id : Int) : IsEntryName (dataName id) := by
  rw [dataName, String.append_assoc]
  exact isEntryName_append id (by decide) (by decide)

theorem isEntryName_dataPart (id : Int) : IsEntryName (dataName id ++ partSuffix) := by
  rw [dataName, String.append_assoc, String.append_assoc]
  exact isEntryName_append id (by decide) (by decide)

/-- The name of data is no longer than the name of its marker. -/
theorem size_dataName_le (id : Int) :
    (dataName id).utf8ByteSize ≤ (markerName id).utf8ByteSize := by
  have hdot : ".".utf8ByteSize = 1 := by decide
  have harff : "arff".utf8ByteSize = 4 := by decide
  have hmarker : markerSuffix.utf8ByteSize = 10 := by decide
  simp only [dataName, markerName, String.utf8ByteSize_append, hdot, harff, hmarker]
  omega

/-- A name has a byte at least for each character. -/
theorem length_le_utf8ByteSize (s : String) : s.toList.length ≤ s.utf8ByteSize := by
  have hlist : ∀ cs : List Char, cs.length ≤ (String.ofList cs).utf8ByteSize := by
    intro cs
    induction cs with
    | nil => exact Nat.zero_le _
    | cons c cs ih =>
      have hc := Char.utf8Size_pos c
      rw [List.length_cons, ← List.singleton_append, String.ofList_append,
        String.utf8ByteSize_append, ← String.singleton_eq_ofList, String.utf8ByteSize_singleton]
      omega
  have h := hlist s.toList
  rwa [String.ofList_toList] at h

/-- The identifier in a name that a disk takes has not too many digits. -/
theorem fitsInteger_of_markerName (h : (markerName id).utf8ByteSize ≤ Disk.longestName) :
    fitsInteger id = true := by
  have hdigits : (decimalDigits id.natAbs).length ≤ (integerText id).toList.length := by
    rw [toList_integerText, Binary64.signed]
    split
    · exact Nat.le_succ _
    · exact Nat.le_refl _
  have hname : (integerText id).toList.length ≤ (markerName id).toList.length := by
    rw [markerName, String.toList_append, List.length_append]
    exact Nat.le_add_right _ _
  have hlimit : Disk.longestName ≤ Numeral.digitLimit := by decide
  have hbytes := length_le_utf8ByteSize (markerName id)
  exact decide_eq_true (by omega)

theorem markerName_injective : Function.Injective markerName := by
  intro a b h
  refine integerText_injective (String.toList_inj.1 ?_)
  have hlist := congrArg String.toList h
  rw [markerName, markerName, String.toList_append, String.toList_append] at hlist
  exact List.append_cancel_right hlist

theorem dataName_injective : Function.Injective dataName := by
  intro a b h
  refine integerText_injective (String.toList_inj.1 ?_)
  have hlist := congrArg String.toList h
  simp only [dataName, String.append_assoc, String.toList_append] at hlist
  exact List.append_cancel_right hlist

/-! ### Markers and data -/

/-- What has been stored, the latest first. -/
abbrev History := List (Int × ByteArray)

/-- The files of a cache agree with each other and with what has been stored. -/
structure Paired (stored : History) (files : String → Option ByteArray) : Prop where
  /-- A marker is the one of the data beside it, which was stored last. -/
  marked : ∀ id bytes, files (markerName id) = some bytes → ∃ data moment,
    stored.lookup id = some data ∧ files (dataName id) = some data ∧
      bytes = (Marker.ofData id "arff" data moment).toBytes
  /-- Only markers are named as markers. -/
  named : ∀ name bytes, files name = some bytes → markerSuffix.toList <:+ name.toList →
    ∃ id, name = markerName id

namespace Paired

variable {stored : History} {files files' : String → Option ByteArray} {data : ByteArray}

/-- The files that a cache keeps are in the directory, not above it. -/
theorem congr (h : Paired stored files) (heq : ∀ name, name ≠ ".." → files' name = files name) :
    Paired stored files' where
  marked := by
    intro id bytes hbytes
    rw [heq _ (isEntryName_markerName id).ne_up] at hbytes
    rw [heq _ (isEntryName_dataName id).ne_up]
    exact h.marked id bytes hbytes
  named := by
    intro name bytes hbytes hsuffix
    have hup : name ≠ ".." := by
      rintro rfl
      exact absurd hsuffix (by decide)
    rw [heq name hup] at hbytes
    exact h.named name bytes hbytes hsuffix

/-- A file may change when no marker comes into being, and when it is not data with a marker. -/
theorem update (h : Paired stored files) {x : Option ByteArray}
    (hmarker : markerSuffix.toList <:+ name.toList → x = none)
    (hdata : ∀ id, dataName id = name → files (markerName id) = none) :
    Paired stored (Function.update files name x) := by
  have hold : ∀ name' bytes, Function.update files name x name' = some bytes →
      markerSuffix.toList <:+ name'.toList → files name' = some bytes := by
    intro name' bytes hbytes hsuffix
    by_cases hname : name' = name
    · subst hname
      rw [Function.update_self, hmarker hsuffix] at hbytes
      cases hbytes
    · rwa [Function.update_of_ne hname] at hbytes
  constructor
  case marked =>
    intro id bytes hbytes
    have hthere := hold _ bytes hbytes (isSuffix_markerName id)
    have hne : dataName id ≠ name := by
      intro hname
      rw [hdata id hname] at hthere
      cases hthere
    rw [Function.update_of_ne hne]
    exact h.marked id bytes hthere
  case named =>
    intro name' bytes hbytes hsuffix
    exact h.named name' bytes (hold name' bytes hbytes hsuffix) hsuffix

/-- A file that is neither marker nor data may change. -/
theorem update_part (h : Paired stored files) (hname : EndsIn 't' name) (x : Option ByteArray) :
    Paired stored (Function.update files name x) := by
  refine h.update (fun hsuffix => ?_) fun id hdata => ?_
  · have hmarker : EndsIn 'n' name := endsIn_of_isSuffix (by rfl) hsuffix
    exact absurd rfl (hmarker.ne hname (by decide))
  · exact absurd hdata ((endsIn_dataName id).ne hname (by decide))

/-- Data that has no marker may change. -/
theorem update_data (h : Paired stored files) (hmarker : files (markerName id) = none)
    (x : Option ByteArray) : Paired stored (Function.update files (dataName id) x) := by
  refine h.update (fun hsuffix => ?_) fun other hdata => ?_
  · have hending : EndsIn 'n' (dataName id) := endsIn_of_isSuffix (by rfl) hsuffix
    exact absurd rfl (hending.ne (endsIn_dataName id) (by decide))
  · rw [dataName_injective hdata, hmarker]

/-- A marker may be removed. -/
theorem remove_marker (h : Paired stored files) (id : Int) :
    Paired stored (Function.update files (markerName id) none) :=
  h.update (fun _ => rfl) fun other hdata =>
    absurd hdata ((endsIn_dataName other).ne (endsIn_markerName id) (by decide))

/-- A marker that is put beside its data records what was stored last. -/
theorem place_marker (h : Paired stored files) (hdata : files (dataName id) = some data)
    (moment : Timestamp) :
    Paired ((id, data) :: stored) (Function.update files (markerName id)
      (some (Marker.ofData id "arff" data moment).toBytes)) where
  marked := by
    intro other bytes hbytes
    have hne := (endsIn_dataName other).ne (endsIn_markerName id) (by decide)
    rw [Function.update_of_ne hne]
    by_cases hother : other = id
    · subst hother
      rw [Function.update_self] at hbytes
      exact ⟨data, moment, List.lookup_cons_self, hdata, (Option.some.inj hbytes).symm⟩
    · rw [Function.update_of_ne (markerName_injective.ne hother)] at hbytes
      rw [List.lookup_cons, beq_false_of_ne hother]
      exact h.marked other bytes hbytes
  named := by
    intro name bytes hbytes hsuffix
    by_cases hname : name = markerName id
    · exact ⟨id, hname⟩
    · rw [Function.update_of_ne hname] at hbytes
      exact h.named name bytes hbytes hsuffix

end Paired

/-! ### The directory -/

/-- The marker that is read at a path when nothing disturbs the reading. -/
def markerAt (d : Disk) (path : Path) : Option Marker :=
  match d.read path with
  | .ok bytes => match Marker.ofBytes bytes with
    | .fields m => some m
    | _ => none
  | .error _ => none

theorem exists_read_of_markerAt {d : Disk} {path : Path} {m : Marker}
    (h : markerAt d path = some m) :
    ∃ bytes, d.read path = .ok bytes ∧ Marker.ofBytes bytes = .fields m := by
  unfold markerAt at h
  split at h
  · next bytes hread =>
    split at h
    · next hm => exact ⟨bytes, hread, hm.trans (congrArg _ (Option.some.inj h))⟩
    · cases h
  · cases h

/-- The directory of a cache holds files that agree with each other, under proper names. -/
structure Consistent (root : Path) (stored : History) (d : Disk) : Prop where
  /-- The files agree. -/
  paired : Paired stored (d.file? root)
  /-- What stands in the directory has a name. -/
  names : ∀ name ∈ d.list root, IsName name

namespace Consistent

variable {root : Path} {stored stored' : History} {d d' : Disk} {bytes : ByteArray}

theorem put (h : Consistent root stored d) (hname : IsEntryName name)
    (hpaired : Paired stored' (Function.update (d.file? root) name (some bytes))) :
    Consistent root stored' (d.put (root.child name) (.file bytes)) where
  paired := by rwa [Disk.file?_put_child d hname]
  names := fun _ hmem =>
    (Disk.eq_or_mem_list_of_put hname hmem).elim (· ▸ hname.toIsName) (h.names _)

theorem erase (h : Consistent root stored d) (hname : IsEntryName name)
    (hpaired : Paired stored' (Function.update (d.file? root) name none)) :
    Consistent root stored' (d.erase (root.child name)) where
  paired := by rwa [Disk.file?_erase_child d hname]
  names := fun _ hmem => h.names _ (Disk.mem_list_of_erase hmem)

theorem makeDirectory {p : Path} (h : Consistent root stored d) (hp : p.WellFormed)
    (hmake : d.makeDirectory p = .ok d') : Consistent root stored d' where
  paired := h.paired.congr fun _ hname => Disk.file?_makeDirectory hmake hname
  names := fun _ hmem => (Disk.isName_of_makeDirectory hp hmake hmem).elim id (h.names _)

/-- An empty directory holds nothing that could disagree. -/
theorem of_empty (h : d.list root = []) : Consistent root stored d := by
  have hnone := Disk.file?_of_empty h
  refine ⟨⟨fun id bytes hbytes => ?_, fun name bytes hbytes => ?_⟩, fun name hmem => ?_⟩
  · rw [hnone] at hbytes
    cases hbytes
  · rw [hnone] at hbytes
    cases hbytes
  · rw [h] at hmem
    cases hmem

/-- Beside a marker there is the data that it records, and it was stored last. -/
theorem read_data (h : Consistent root stored d)
    (hread : d.read (root.child (markerName id)) = .ok bytes) : ∃ data moment,
      stored.lookup id = some data ∧ d.read (root.child (dataName id)) = .ok data ∧
        bytes = (Marker.ofData id "arff" data moment).toBytes := by
  obtain ⟨hdir, hlength, hfile⟩ := (Disk.read_child_eq_ok_iff (isEntryName_markerName id)).1 hread
  obtain ⟨data, moment, hstored, hdata, hbytes⟩ := h.paired.marked id bytes hfile
  exact ⟨data, moment, hstored,
    (Disk.read_child_eq_ok_iff (isEntryName_dataName id)).2
      ⟨hdir, (size_dataName_le id).trans hlength, hdata⟩,
    hbytes⟩

/-- A marker that can be read is the one of the data beside it, and its numbers are not too
    long. -/
theorem markerAt_eq {m : Marker} (h : Consistent root stored d)
    (hm : markerAt d (root.child (markerName id)) = some m) : ∃ data moment,
      stored.lookup id = some data ∧ d.read (root.child (dataName id)) = .ok data ∧
        m = Marker.ofData id "arff" data moment ∧ fitsInteger id = true := by
  obtain ⟨bytes, hread, hfields⟩ := exists_read_of_markerAt hm
  obtain ⟨data, moment, hstored, hdata, hbytes⟩ := h.read_data hread
  refine ⟨data, moment, hstored, hdata, ?_⟩
  rw [hbytes, Marker.ofBytes_toBytes (by decide)] at hfields
  split at hfields
  · next hfits =>
    exact ⟨(Marker.Reading.fields.inj hfields).symm, (Bool.and_eq_true _ _ ▸ hfits).1⟩
  · cases hfields

end Consistent

end DatasetCatalog.Cache
