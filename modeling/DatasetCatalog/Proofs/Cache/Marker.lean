import DatasetCatalog.Cache.Marker
import DatasetCatalog.Proofs.Json

/-! # Markers, written and read

  The marker of data is read back with the size and the digest of the data, unless it holds a
  number of too many digits. Such a marker is not read at all.
-/

namespace DatasetCatalog

open Json

/-! ### Plain texts -/

theorem plain_hexText (bytes : List UInt8) : Plain (Digest.hexText bytes) := by
  intro c hc
  rw [Digest.hexText, String.toList_ofList, List.mem_flatMap] at hc
  obtain ⟨b, -, hc⟩ := hc
  obtain hc | hc := List.mem_append.1 hc
  · rw [List.eq_of_mem_replicate hc]
    rfl
  · exact isPlain_of_mem_toDigits (by decide) (by decide) _ c hc

theorem plain_padded (width n : Nat) : Plain (Timestamp.padded width n) := by
  intro c hc
  rw [Timestamp.padded, String.toList_ofList] at hc
  obtain hc | hc := List.mem_append.1 hc
  · rw [List.eq_of_mem_replicate hc]
    rfl
  · exact isPlain_of_mem_toDigits (by decide) (by decide) _ c hc

theorem plain_iso (t : Timestamp) : Plain t.iso := by
  have hfraction : ∀ n : Nat,
      Plain (if n = 0 then "" else "." ++ Timestamp.padded 6 n) := by
    intro n
    split
    · decide
    · exact Plain.append (by decide) (plain_padded 6 n)
  have hdash : Plain "-" := by decide
  have hcolon : Plain ":" := by decide
  have htime : Plain "T" := by decide
  have hzone : Plain "+00:00" := by decide
  unfold Timestamp.iso
  dsimp only
  generalize Timestamp.dateOfDay _ = date
  generalize (t.micros.fmod Timestamp.second).toNat = fraction
  generalize ((t.micros.fdiv Timestamp.second).fmod 86400).toNat = time
  obtain ⟨year, month, day⟩ := date
  dsimp only
  have hdate := ((((plain_padded 4 year.toNat).append hdash).append (plain_padded 2 month)).append
    hdash).append (plain_padded 2 day)
  have hhour (n : Nat) := (hdate.append htime).append (plain_padded 2 n)
  have hminute (n m : Nat) := ((hhour n).append hcolon).append (plain_padded 2 m)
  have hsecond (n m k : Nat) := ((hminute n m).append hcolon).append (plain_padded 2 k)
  exact ((hsecond _ _ _).append (hfraction _)).append hzone

namespace Cache.Marker

variable {id : Int} {format : String} {data : ByteArray} {moment : Timestamp}

theorem simpleField_ofData (hformat : Plain format) :
    ∀ pair ∈ Marker.ofData id format data moment, SimpleField pair := by
  intro pair hpair
  simp only [ofData, List.mem_cons, List.not_mem_nil, or_false] at hpair
  obtain rfl | rfl | rfl | rfl | rfl := hpair
  · exact ⟨(by decide : Plain "dataset_id"), .int _⟩
  · exact ⟨(by decide : Plain "format"), .str hformat⟩
  · exact ⟨(by decide : Plain "size"), .int _⟩
  · exact ⟨(by decide : Plain "sha256"), .str (plain_hexText _)⟩
  · exact ⟨(by decide : Plain "stored_at"), .str (plain_iso _)⟩

/-- **The marker of data is read back as it was written**, unless the identifier or the size has
    too many digits. -/
theorem ofBytes_toBytes (hformat : Plain format) :
    Marker.ofBytes (Marker.ofData id format data moment).toBytes =
      if fitsInteger id && fitsInteger data.size then .fields (Marker.ofData id format data moment)
      else .unreadable := by
  have hne : Marker.ofData id format data moment ≠ [] := List.cons_ne_nil _ _
  have hparse := parse?_writeRecord hne (simpleField_ofData hformat)
  have hfits : (Marker.ofData id format data moment).all (fun pair => fits pair.2) =
      (fitsInteger id && fitsInteger data.size) := by
    simp [ofData, fits, Json.int]
  have hpairs : ofPairs (Marker.ofData id format data moment) = Marker.ofData id format data moment :=
    rfl
  unfold Marker.ofBytes
  rw [toBytes, ofBytes?_toUTF8, String.toList_ofList, hparse, hfits, hpairs]
  cases fitsInteger id && fitsInteger data.size with
  | true => rfl
  | false => rfl

theorem hasSize_ofData : (Marker.ofData id format data moment).hasSize data.size = true := by
  have hvalue : (Marker.ofData id format data moment).value "size" = .int data.size := rfl
  rw [hasSize, hvalue]
  simp [Json.int, Number.same, Number.le, Number.position?, Number.Position.le]

theorem hasDigest_ofData : (Marker.ofData id format data moment).hasDigest data = true := by
  have hvalue : (Marker.ofData id format data moment).value "sha256" = .str (Digest.sha256 data) :=
    rfl
  rw [hasDigest, hvalue]
  exact beq_self_eq_true _

end Cache.Marker

end DatasetCatalog
