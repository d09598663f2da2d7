import DatasetCatalog.Proofs.Catalog.Listing

/-! # Flat records of summaries

  The flat record of an entry begins with the fields of the entry and goes on with its qualities.
  The names of qualities come from the service, and nothing keeps them from being rewritten to the
  name of a field: such a quality is not added behind the fields, but takes the place of the value
  of the field.
-/

namespace DatasetCatalog.Catalog

/-- The names of the fields of an entry. -/
def Summary.fieldNames : List String :=
  ["dataset_id", "name", "version", "status", "format", "md5_checksum", "file_id"]

/-- The quality is listed under a name that is rewritten to the name of a field. -/
def Shadows (q : Json) : Prop :=
  ∃ name, qualityName? q = some name ∧ qualityKey name ∈ Summary.fieldNames

/-- What the flat record of a summary holds, beside the entry of the response. -/
structure Flattened (entry : Json) (s : Summary) : Prop where
  /-- Every quality has a key of its own. -/
  distinct : (s.qualities.map (·.1)).Nodup
  /-- The fields come first and in order, each with the value of the quality of its name if there
      is one; the other qualities follow in order. -/
  record : s.record =
    (s.fields.map fun field => (field.1, (s.qualities.lookup field.1).getD field.2)) ++
      s.qualities.filter (·.1 ∉ Summary.fieldNames)
  /-- The fields hold their own values, and all qualities follow, exactly when no quality is listed
      under a name that is rewritten to the name of a field. -/
  complete_iff : s.record = s.fields ++ s.qualities ↔ ∀ q ∈ itemsOf entry "quality", ¬Shadows q

namespace Summary

variable {s : Summary}

theorem names_fields (s : Summary) : s.fields.map (·.1) = fieldNames := rfl

theorem nodup_fieldNames : fieldNames.Nodup := by decide

theorem record_eq (hdistinct : (s.qualities.map (·.1)).Nodup) : s.record =
    (s.fields.map fun field => (field.1, (s.qualities.lookup field.1).getD field.2)) ++
      s.qualities.filter (·.1 ∉ fieldNames) := by
  have hfields : (s.fields.map (·.1)).Nodup := nodup_fieldNames
  exact Json.foldl_setField hfields hdistinct

/-- A flat record is complete unless a quality has the name of a field. -/
theorem record_eq_append_iff (hdistinct : (s.qualities.map (·.1)).Nodup) :
    s.record = s.fields ++ s.qualities ↔ ∀ key ∈ s.qualities.map (·.1), key ∉ fieldNames := by
  rw [record_eq hdistinct]
  constructor
  · intro heq key hkey hname
    obtain ⟨q, hq, rfl⟩ := List.mem_map.1 hkey
    -- one quality less follows the fields
    have hlength := congrArg List.length heq
    rw [List.length_append, List.length_append, List.length_map, Nat.add_left_cancel_iff,
      List.length_filter_eq_length_iff] at hlength
    have hkept := hlength q hq
    simp only [decide_eq_true_eq] at hkept
    exact hkept hname
  · intro hfresh
    congr 1
    · have hown : ∀ field ∈ s.fields,
          (field.1, (s.qualities.lookup field.1).getD field.2) = field := by
        intro field hfield
        have hnone : field.1 ∉ s.qualities.map (·.1) := fun hmem =>
          hfresh _ hmem (names_fields s ▸ List.mem_map_of_mem hfield)
        rw [lookup_eq_none_of_not_mem hnone]
        rfl
      rw [List.map_congr_left hown, List.map_id']
    · rw [List.filter_eq_self]
      intro q hq
      exact decide_eq_true (hfresh q.1 (List.mem_map_of_mem hq))

end Summary

theorem not_shadows_null : ¬Shadows .null := by
  rintro ⟨name, hname, -⟩
  exact absurd hname nofun

/-- The qualities of a decoded entry have the keys of the names that the entry lists. -/
theorem forall_keys_iff {strict : Bool} {path : String} {entry : Json} {r : Record} {i : Nat}
    {s : Summary} (hentry : decodeRecord Schema.datasetEntry strict path entry = .ok r)
    (hs : Response.summary strict i r = .ok s) :
    (s.qualities.map (·.1)).Nodup ∧
      ((∀ key ∈ s.qualities.map (·.1), key ∉ Summary.fieldNames) ↔
        ∀ q ∈ itemsOf entry "quality", ¬Shadows q) := by
  obtain ⟨records, hrecords, hqualities⟩ := Response.exists_of_summary hs
  obtain ⟨hdistinct, hkeys⟩ := Response.keys_of_qualities hqualities List.nodup_nil
  have hbeside := forall₂_of_decodeItems hrecords
  have hitems : (∀ q ∈ itemsOf entry "quality", ¬Shadows q) ↔
      ∀ q ∈ r.objects "quality", ¬Shadows q := by
    rcases objects_quality hentry with hobjects | ⟨hobjects, hnull⟩
    · rw [hobjects]
    · rw [hobjects, hnull]
      simpa using not_shadows_null
  refine ⟨hdistinct, ?_⟩
  rw [hitems]
  constructor
  · rintro hfresh q hq ⟨name, hname, hfield⟩
    obtain ⟨record, hrecord, path', hdecode⟩ := exists_of_mem_forall₂ hbeside hq
    obtain rfl := Option.some.inj (hname.symm.trans (qualityName?_of_decodeRecord hdecode))
    exact hfresh _ ((hkeys _).2 (.inr ⟨record, hrecord, rfl⟩)) hfield
  · intro hclear key hkey hfield
    obtain ⟨record, hrecord, rfl⟩ := ((hkeys key).1 hkey).resolve_left List.not_mem_nil
    obtain ⟨q, hq, path', hdecode⟩ := exists_of_forall₂_mem hbeside hrecord
    exact hclear q hq ⟨_, qualityName?_of_decodeRecord hdecode, hfield⟩

theorem flattened_of_summary {strict : Bool} {path : String} {entry : Json} {r : Record} {i : Nat}
    {s : Summary} (hentry : decodeRecord Schema.datasetEntry strict path entry = .ok r)
    (hs : Response.summary strict i r = .ok s) : Flattened entry s := by
  obtain ⟨hdistinct, hnames⟩ := forall_keys_iff hentry hs
  exact ⟨hdistinct, Summary.record_eq hdistinct,
    (Summary.record_eq_append_iff hdistinct).trans hnames⟩

namespace Client

/-- **The flat records of a listing** hold the fields of their summaries and the qualities behind
    them, but a quality whose name is rewritten to that of a field is found in place of the value
    of the field. So a record loses nothing exactly when its entry lists no such quality. -/
theorem flattened_of_listDatasets {c : Client} {t : Trace} {tag : Option String}
    {filter : FilterChoice} {path : String} {payload : Json} {listed : List Summary}
    (hpath : Request.listing tag filter = .ok path) (hanswers : c.Answers t path payload)
    (h : (run (c.listDatasets tag filter) t).1 = .ok listed) :
    List.Forall₂ Flattened (Response.listed Schema.datasetList payload "dataset") listed := by
  rw [run_listDatasets_of_answers hpath hanswers] at h
  refine (Response.forall₂_of_listing (mapError_eq_ok_iff.1 h)).imp ?_
  rintro entry s ⟨i, r, hs, path', hentry⟩
  exact flattened_of_summary hentry hs

/-- A listing of an entry with a quality that is called `Name`. -/
def namedListing : String :=
  "\x7b\"data\":\x7b\"dataset\":[\x7b\"did\":61,\"name\":\"iris\",\"version\":1," ++
    "\"status\":\"active\",\"quality\":[\x7b\"name\":\"Name\",\"value\":true\x7d]\x7d]\x7d\x7d"

/-- The quality that is called `Name`. -/
def namedQuality : Json := .obj [("name", .str "Name"), ("value", .bool true)]

/-- The listing as a value. -/
def namedPayload : Json := .obj [("data", .obj [("dataset", .arr [.obj [("did", .int 61),
  ("name", .str "iris"), ("version", .int 1), ("status", .str "active"),
  ("quality", .arr [namedQuality])]])])]

/-- The summary of the entry. -/
def namedSummary : Summary :=
  { id := 61, name := "iris", version := 1, status := "active"
    qualities := [("name", .str "true")] }

/-- A client that is answered with the listing. -/
def namedClient : Client := ⟨{}, fun _ _ => .ok namedListing.toUTF8⟩

set_option maxRecDepth 4000 in
theorem answers_namedPayload : namedClient.Answers {} "/data/list" namedPayload := by
  refine ⟨_, rfl, ?_⟩
  rw [Json.ofBytes?_toUTF8]
  cbv

/-- A quality called `Name` takes the place of the name of the data set. -/
theorem not_complete_of_quality_name :
    (run (namedClient.listDatasets none .none) {}).1 = .ok [namedSummary] ∧
    namedSummary.record.lookup "name" = some (.str "true") ∧
    namedSummary.record ≠ namedSummary.fields ++ namedSummary.qualities := by
  have hpath : Request.listing none .none = .ok "/data/list" := rfl
  have hlisting : Response.listing true namedPayload = .ok [namedSummary] := by cbv
  have hlisted : (run (namedClient.listDatasets none .none) {}).1 = .ok [namedSummary] := by
    rw [run_listDatasets_of_answers hpath answers_namedPayload]
    exact congrArg (Except.mapError _) hlisting
  obtain ⟨hflat, -⟩ := List.forall₂_cons.1
    (flattened_of_listDatasets hpath answers_namedPayload hlisted)
  refine ⟨hlisted, ?_, ?_⟩
  · rw [hflat.record]
    rfl
  · rw [ne_eq, hflat.complete_iff]
    intro hclear
    exact hclear namedQuality List.mem_cons_self ⟨"Name", rfl, by decide⟩

end Client

end DatasetCatalog.Catalog
