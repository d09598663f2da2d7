import DatasetCatalog.Proofs.Catalog.Exchange
import DatasetCatalog.Proofs.Catalog.Trim
import DatasetCatalog.Proofs.Json
import Mathlib

/-! # Lenient decoding

  A client decodes strictly or leniently, and nothing else depends on that. What a lenient client
  makes of a response is what a strict one makes of the trimmed response, in success and in failure;
  and where a strict client succeeds there is nothing to trim, so a lenient one does the same.
-/

namespace DatasetCatalog.Catalog

/-! ### Strict success -/

section Strict

variable {schema : Schema} {path : String}

theorem decodeRecord_of_strict {v : Json} {r : Record}
    (h : decodeRecord schema true path v = .ok r) : decodeRecord schema false path v = .ok r := by
  cases v with
  | obj fields =>
    rw [decodeRecord_lenient]
    cases hunknown : unknownField schema fields with
    | none => exact (decodeRecord_of_known hunknown).symm.trans h
    | some name =>
      rw [decodeRecord_of_unknown hunknown, if_pos rfl] at h
      cases h
  | _ => cases h

theorem decodeItems_of_forall {α : Type} {decode decode' : String → Json → Except DecodeError α}
    (hdecode : ∀ path v x, decode path v = .ok x → decode' path v = .ok x) {i : Nat}
    {items : List Json} {xs : List α} (h : decodeItems decode path i items = .ok xs) :
    decodeItems decode' path i items = .ok xs := by
  induction items generalizing i xs with
  | nil => exact h
  | cons v rest ih =>
    unfold decodeItems at h ⊢
    obtain ⟨x, hx, h⟩ := bind_eq_ok_iff.1 h
    obtain ⟨xs', hxs', h⟩ := bind_eq_ok_iff.1 h
    exact bind_eq_ok_iff.2 ⟨x, hdecode _ _ _ hx, bind_eq_ok_iff.2 ⟨xs', ih hxs', h⟩⟩

theorem decodeRecords_of_strict {items : List Json} {records : List Record}
    (h : decodeRecords schema true path items = .ok records) :
    decodeRecords schema false path items = .ok records :=
  decodeItems_of_forall (fun _ _ _ => decodeRecord_of_strict) h

end Strict

namespace Response

variable {payload : Json}

theorem envelope_of_strict {schema : Schema} {r : Record}
    (h : envelope schema true payload = .ok r) : envelope schema false payload = .ok r := by
  obtain ⟨v, hv, h⟩ := bind_eq_ok_iff.1 h
  exact bind_eq_ok_iff.2 ⟨v, hv, decodeRecord_of_strict h⟩

theorem tags_of_strict {tags : List String} (h : Response.tags true payload = .ok tags) :
    Response.tags false payload = .ok tags := by
  obtain ⟨r, hr, h⟩ := bind_eq_ok_iff.1 h
  exact bind_eq_ok_iff.2 ⟨r, envelope_of_strict hr, h⟩

theorem summaries_of_strict {i : Nat} {entries : List Record} {listed : List Summary}
    (h : summaries true i entries = .ok listed) : summaries false i entries = .ok listed := by
  induction entries generalizing i listed with
  | nil => exact h
  | cons entry rest ih =>
    unfold summaries at h ⊢
    obtain ⟨s, hs, h⟩ := bind_eq_ok_iff.1 h
    obtain ⟨tail, htail, h⟩ := bind_eq_ok_iff.1 h
    obtain ⟨records, hrecords, hs⟩ := bind_eq_ok_iff.1 hs
    have hsummary : summary false i entry = .ok s :=
      bind_eq_ok_iff.2 ⟨records, decodeRecords_of_strict hrecords, hs⟩
    exact bind_eq_ok_iff.2 ⟨s, hsummary, bind_eq_ok_iff.2 ⟨tail, ih htail, h⟩⟩

theorem listing_of_strict {listed : List Summary} (h : listing true payload = .ok listed) :
    listing false payload = .ok listed := by
  obtain ⟨r, hr, h⟩ := bind_eq_ok_iff.1 h
  obtain ⟨entries, hentries, h⟩ := bind_eq_ok_iff.1 h
  exact bind_eq_ok_iff.2 ⟨r, envelope_of_strict hr,
    bind_eq_ok_iff.2 ⟨entries, decodeRecords_of_strict hentries, summaries_of_strict h⟩⟩

theorem description_of_strict {d : Description} (h : description true payload = .ok d) :
    description false payload = .ok d := by
  obtain ⟨r, hr, h⟩ := bind_eq_ok_iff.1 h
  exact bind_eq_ok_iff.2 ⟨r, envelope_of_strict hr, h⟩

theorem features_of_strict {attributes : List DeclaredAttribute}
    (h : features true payload = .ok attributes) : features false payload = .ok attributes := by
  obtain ⟨r, hr, h⟩ := bind_eq_ok_iff.1 h
  obtain ⟨records, hrecords, h⟩ := bind_eq_ok_iff.1 h
  exact bind_eq_ok_iff.2 ⟨r, envelope_of_strict hr,
    bind_eq_ok_iff.2 ⟨records, decodeRecords_of_strict hrecords, h⟩⟩

end Response

/-! ### Lenient and strict clients -/

/-- The second answer is the first one trimmed: the same error, or bytes that hold the trimmed
    value, or no JSON either. -/
inductive Trimmed (trim : Json → Json) :
    Except NetworkError ByteArray → Except NetworkError ByteArray → Prop where
  | refused (e : NetworkError) : Trimmed trim (.error e) (.error e)
  | answered {bytes bytes' : ByteArray} (h : Json.ofBytes? bytes' = (Json.ofBytes? bytes).map trim) :
      Trimmed trim (.ok bytes) (.ok bytes')

namespace Client

variable {α : Type} {settings : Settings} {t : Trace}

/-- A client that decodes strictly or leniently. -/
def decoding (settings : Settings) (strict : Bool) (transport : Transport) : Client :=
  ⟨{ settings with strictDecoding := strict }, transport⟩

/-- The second transport answers the request of a path as the first one does, trimmed. -/
def TrimmedAt (settings : Settings) (answers trimmed : Transport) (trim : Json → Json) (t : Trace)
    (path : String) : Prop :=
  Trimmed trim (answers t.requests (Request.address settings path))
    (trimmed t.requests (Request.address settings path))

/-- Strict and lenient clients make the same requests of a transport. -/
theorem transport_decoding (settings : Settings) (strict : Bool) (answers : Transport) (t : Trace)
    (path : String) :
    (decoding settings strict answers).transport t.requests
        (Request.address (decoding settings strict answers).settings path) =
      answers t.requests (Request.address settings path) :=
  rfl

section Requests

variable {answers trimmed : Transport} {trim : Json → Json} {path : String}
  {decode : Bool → Json → Except DecodeError α} {meaning : NetworkError → Exchange α}

theorem decodeAnswer_of_trimmed {bytes bytes' : ByteArray}
    (htrim : ∀ payload, decode true (trim payload) = decode false payload)
    (h : Json.ofBytes? bytes' = (Json.ofBytes? bytes).map trim) :
    decodeAnswer path (decode true) bytes' = decodeAnswer path (decode false) bytes := by
  unfold decodeAnswer
  rw [h]
  cases Json.ofBytes? bytes with
  | none => rfl
  | some payload => exact htrim payload

theorem decodeAnswer_of_strict {bytes : ByteArray} (hstrict : ∀ payload a,
      decode true payload = .ok a → decode false payload = .ok a) {a : α}
    (h : decodeAnswer path (decode true) bytes = .ok a) :
    decodeAnswer path (decode false) bytes = .ok a := by
  unfold decodeAnswer at h ⊢
  cases hpayload : Json.ofBytes? bytes with
  | none =>
    rw [hpayload] at h
    cases h
  | some payload =>
    rw [hpayload] at h
    exact hstrict payload a h

/-- One request, answered to a lenient client and, trimmed, to a strict one. -/
theorem run_get_of_trimmed (htrim : ∀ payload, decode true (trim payload) = decode false payload)
    (h : TrimmedAt settings answers trimmed trim t path) :
    run ((decoding settings false answers).get path (decode false) meaning) t =
      run ((decoding settings true trimmed).get path (decode true) meaning) t := by
  -- both answers are refusals, or both are bytes
  unfold TrimmedAt at h
  generalize hanswer : answers t.requests (Request.address settings path) = answer at h
  generalize hanswer' : trimmed t.requests (Request.address settings path) = answer' at h
  have hlenient := (transport_decoding settings false answers t path).trans hanswer
  have hstrict := (transport_decoding settings true trimmed t path).trans hanswer'
  cases h with
  | refused e =>
    rw [run_get_of_refused hlenient, run_get_of_refused hstrict]
    rfl
  | answered h =>
    rw [run_get_of_answered hlenient, run_get_of_answered hstrict, decodeAnswer_of_trimmed htrim h]
    rfl

/-- One request that succeeds for a strict client. -/
theorem run_get_of_strict (hstrict : ∀ payload a, decode true payload = .ok a →
      decode false payload = .ok a) {a : α} {t' : Trace}
    (h : run ((decoding settings true answers).get path (decode true) meaning) t = (.ok a, t')) :
    run ((decoding settings false answers).get path (decode false) meaning) t = (.ok a, t') := by
  have hanswer := fun strict => transport_decoding settings strict answers t path
  cases hgiven : answers t.requests (Request.address settings path) with
  | error e =>
    rw [run_get_of_refused ((hanswer true).trans hgiven)] at h
    rw [run_get_of_refused ((hanswer false).trans hgiven)]
    exact h
  | ok bytes =>
    rw [run_get_of_answered ((hanswer true).trans hgiven)] at h
    rw [run_get_of_answered ((hanswer false).trans hgiven)]
    obtain ⟨hresult, htrace⟩ := Prod.mk.inj h
    have hdecoded := mapError_eq_ok_iff.1 hresult
    refine Prod.ext (mapError_eq_ok_iff.2 ?_) htrace
    exact decodeAnswer_of_strict hstrict hdecoded

end Requests

/-! ### Operations -/

section Operations

variable {answers trimmed : Transport}

theorem listTags_of_trimmed
    (h : TrimmedAt settings answers trimmed Response.trimTags t Request.tags) :
    run (decoding settings false answers).listTags t =
      run (decoding settings true trimmed).listTags t :=
  run_get_of_trimmed Response.tags_trim h

theorem listDatasets_of_trimmed {tag : Option String} {filter : FilterChoice}
    (h : ∀ path, Request.listing tag filter = .ok path →
      TrimmedAt settings answers trimmed Response.trimListing t path) :
    run ((decoding settings false answers).listDatasets tag filter) t =
      run ((decoding settings true trimmed).listDatasets tag filter) t := by
  unfold listDatasets
  cases hpath : Request.listing tag filter with
  | error e => rfl
  | ok path => exact run_get_of_trimmed Response.listing_trim (h path hpath)

theorem describe_of_trimmed {id : Int}
    (hdescription : TrimmedAt settings answers trimmed Response.trimDescription t
      (Request.description id))
    (hfeatures : TrimmedAt settings answers trimmed Response.trimFeatures
      (t.request (Request.address settings (Request.description id))) (Request.features id)) :
    run ((decoding settings false answers).describe id) t =
      run ((decoding settings true trimmed).describe id) t := by
  have hdescribed : run ((decoding settings false answers).described id) t =
      run ((decoding settings true trimmed).described id) t :=
    run_get_of_trimmed Response.description_trim hdescription
  have htrace : (run ((decoding settings true trimmed).described id) t).2 =
      t.request (Request.address settings (Request.description id)) := run_described_snd _ id t
  have hattributes : run ((decoding settings false answers).attributes id)
      (t.request (Request.address settings (Request.description id))) =
        run ((decoding settings true trimmed).attributes id)
          (t.request (Request.address settings (Request.description id))) :=
    run_get_of_trimmed Response.features_trim hfeatures
  rw [run_describe, run_describe, hdescribed]
  by_cases hid : id < 0
  · rw [if_pos hid, if_pos hid]
  rw [if_neg hid, if_neg hid]
  rcases hrun : run ((decoding settings true trimmed).described id) t with ⟨r, t'⟩
  rw [hrun] at htrace
  obtain rfl : t' = _ := htrace
  cases r with
  | error e => rfl
  | ok d =>
    dsimp only
    rw [hattributes]

theorem listTags_of_strict {tags : List String} {t' : Trace}
    (h : run (decoding settings true answers).listTags t = (.ok tags, t')) :
    run (decoding settings false answers).listTags t = (.ok tags, t') :=
  run_get_of_strict (fun _ _ => Response.tags_of_strict) h

theorem listDatasets_of_strict {tag : Option String} {filter : FilterChoice}
    {listed : List Summary} {t' : Trace}
    (h : run ((decoding settings true answers).listDatasets tag filter) t = (.ok listed, t')) :
    run ((decoding settings false answers).listDatasets tag filter) t = (.ok listed, t') := by
  unfold listDatasets at h ⊢
  cases hpath : Request.listing tag filter with
  | error e =>
    rw [hpath] at h
    exact h
  | ok path =>
    rw [hpath] at h
    exact run_get_of_strict (fun _ _ => Response.listing_of_strict) h

theorem describe_of_strict {id : Int} {d : Description} {t' : Trace}
    (h : run ((decoding settings true answers).describe id) t = (.ok d, t')) :
    run ((decoding settings false answers).describe id) t = (.ok d, t') := by
  rw [run_describe] at h ⊢
  by_cases hid : id < 0
  · rw [if_pos hid] at h
    exact absurd (Prod.mk.inj h).1 nofun
  rw [if_neg hid] at h ⊢
  rcases hdescribed : run ((decoding settings true answers).described id) t with ⟨r, t₁⟩
  rw [hdescribed] at h
  cases r with
  | error e => exact absurd (Prod.mk.inj h).1 nofun
  | ok first =>
    have hfirst : run ((decoding settings false answers).described id) t = (.ok first, t₁) :=
      run_get_of_strict (fun _ _ => Response.description_of_strict) hdescribed
    rw [hfirst]
    dsimp only at h ⊢
    rcases hattributes : run ((decoding settings true answers).attributes id) t₁ with ⟨r, t₂⟩
    rw [hattributes] at h
    cases r with
    | error e => exact absurd (Prod.mk.inj h).1 nofun
    | ok declared =>
      have hdeclared : run ((decoding settings false answers).attributes id) t₁ =
          (.ok declared, t₂) :=
        run_get_of_strict (fun _ _ => Response.features_of_strict) hattributes
      rw [hdeclared]
      exact h

end Operations

/-- **Lenient decoding is strict decoding of what the schemas know.** A lenient client does on its
    responses what a strict client with the same settings does on the trimmed ones: it ends in the
    same value or in the same error, with the same requests and notices. So whenever the strict
    client succeeds, the lenient client does the same on the same responses. -/
theorem lenient_eq_strict_trimmed (settings : Settings) (answers trimmed : Transport) (t : Trace) :
    (TrimmedAt settings answers trimmed Response.trimTags t Request.tags →
      run (decoding settings false answers).listTags t =
        run (decoding settings true trimmed).listTags t) ∧
    (∀ tag filter, (∀ path, Request.listing tag filter = .ok path →
        TrimmedAt settings answers trimmed Response.trimListing t path) →
      run ((decoding settings false answers).listDatasets tag filter) t =
        run ((decoding settings true trimmed).listDatasets tag filter) t) ∧
    (∀ id, TrimmedAt settings answers trimmed Response.trimDescription t (Request.description id) →
      TrimmedAt settings answers trimmed Response.trimFeatures
        (t.request (Request.address settings (Request.description id))) (Request.features id) →
      run ((decoding settings false answers).describe id) t =
        run ((decoding settings true trimmed).describe id) t) ∧
    (∀ tags t', run (decoding settings true answers).listTags t = (.ok tags, t') →
      run (decoding settings false answers).listTags t = (.ok tags, t')) ∧
    (∀ tag filter listed t',
      run ((decoding settings true answers).listDatasets tag filter) t = (.ok listed, t') →
      run ((decoding settings false answers).listDatasets tag filter) t = (.ok listed, t')) ∧
    ∀ id d t', run ((decoding settings true answers).describe id) t = (.ok d, t') →
      run ((decoding settings false answers).describe id) t = (.ok d, t') := by
  refine ⟨listTags_of_trimmed, ?_, ?_, ?_, ?_, ?_⟩
  · intro tag filter h
    exact listDatasets_of_trimmed h
  · intro id hdescription hfeatures
    exact describe_of_trimmed hdescription hfeatures
  · intro tags t' h
    exact listTags_of_strict h
  · intro tag filter listed t' h
    exact listDatasets_of_strict h
  · intro id d t' h
    exact describe_of_strict h

/-- A listing with an unknown field in the record, in its entry and in the quality of the entry. -/
def extendedListing : String :=
  "\x7b\"data\":\x7b\"total\":1,\"dataset\":\x7b\"views\":0,\"did\":\"2\",\"name\":\"anneal\"," ++
    "\"version\":1,\"status\":\"active\",\"quality\":[\x7b\"unit\":\"1\",\"name\":\"sparse\"," ++
    "\"value\":true\x7d]\x7d\x7d\x7d"

/-- The listing without the unknown fields. -/
def plainListing : String :=
  "\x7b\"data\":\x7b\"dataset\":\x7b\"did\":\"2\",\"name\":\"anneal\",\"version\":1," ++
    "\"status\":\"active\",\"quality\":[\x7b\"name\":\"sparse\",\"value\":true\x7d]\x7d\x7d\x7d"

/-- The extended listing as a value. -/
def extendedPayload : Json :=
  .obj [("data", .obj [("total", .int 1), ("dataset", .obj [("views", .int 0), ("did", .str "2"),
    ("name", .str "anneal"), ("version", .int 1), ("status", .str "active"),
    ("quality", .arr [.obj [("unit", .str "1"), ("name", .str "sparse"),
      ("value", .bool true)]])])])]

set_option maxRecDepth 4000 in
theorem ofBytes?_extendedListing :
    Json.ofBytes? extendedListing.toUTF8 = some extendedPayload := by
  rw [Json.ofBytes?_toUTF8]
  cbv

set_option maxRecDepth 4000 in
theorem ofBytes?_plainListing :
    Json.ofBytes? plainListing.toUTF8 = some (Response.trimListing extendedPayload) := by
  rw [Json.ofBytes?_toUTF8]
  cbv

theorem run_listDatasets_of_bytes (strict : Bool) {bytes : ByteArray} {payload : Json}
    (h : Json.ofBytes? bytes = some payload) :
    run ((decoding {} strict fun _ _ => .ok bytes).listDatasets none .none) {} =
      ((Response.listing strict payload).mapError .decode,
        Trace.request {} (Request.address {} "/data/list")) := by
  change run (get _ "/data/list" _ _) {} = _
  rw [run_get]
  simp only [decoding, decodeAnswer, h]
  rfl

/-- Unknown fields at every level are an error to a strict client and none to a lenient one. -/
theorem lenient_eq_strict_of_plainListing :
    (run ((decoding {} true fun _ _ => .ok extendedListing.toUTF8).listDatasets none .none) {}).1 =
      .error (.decode (.at "$.data.total" (.unexpected "data"))) ∧
    run ((decoding {} false fun _ _ => .ok extendedListing.toUTF8).listDatasets none .none) {} =
      run ((decoding {} true fun _ _ => .ok plainListing.toUTF8).listDatasets none .none) {} ∧
    ∃ listed t, run ((decoding {} true fun _ _ => .ok plainListing.toUTF8).listDatasets none .none)
        {} = (.ok listed, t) ∧
      run ((decoding {} false fun _ _ => .ok plainListing.toUTF8).listDatasets none .none) {} =
        (.ok listed, t) := by
  have hstrict : Response.listing true extendedPayload =
      .error (.at "$.data.total" (.unexpected "data")) := by cbv
  have hlisting : ∃ listed, Response.listing true (Response.trimListing extendedPayload) =
      .ok listed := by
    apply exists_eq_ok
    cbv
  refine ⟨?_, ?_, ?_⟩
  · rw [run_listDatasets_of_bytes true ofBytes?_extendedListing, hstrict]
    rfl
  · apply (lenient_eq_strict_trimmed {} _ _ {}).2.1 none .none
    intro path _
    apply Trimmed.answered
    rw [ofBytes?_extendedListing, ofBytes?_plainListing]
    rfl
  · obtain ⟨listed, hlisting⟩ := hlisting
    have hrun := run_listDatasets_of_bytes true ofBytes?_plainListing
    rw [hlisting] at hrun
    exact ⟨listed, _, hrun, (lenient_eq_strict_trimmed {} _ (fun _ _ => .ok plainListing.toUTF8)
      {}).2.2.2.2.1 none .none _ _ hrun⟩

end Client

end DatasetCatalog.Catalog
