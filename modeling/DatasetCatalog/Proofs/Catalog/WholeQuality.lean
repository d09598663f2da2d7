import DatasetCatalog.Proofs.Catalog.Listing
import DatasetCatalog.Proofs.Catalog.Trim
import DatasetCatalog.Proofs.Number.Order
import DatasetCatalog.Proofs.Number.Written

/-! # Whole qualities

  A listing tells a whole number as a number of the response, or as a text of its digits, which may
  have `.0` behind them. Either way the value becomes a double on its way to the integer that a
  summary holds: an integer that no double equals is rounded, silently, and an integer beyond the
  doubles is an infinity when it was told as a text, and the end of the whole listing when it was
  told as a number. Nothing else of the listing depends on the value.
-/

namespace DatasetCatalog.Catalog

open Text Numeral Binary64

/-! ### Values that tell an integer -/

/-- The value tells the integer: as a number, or as a text of its digits, which may have `.0`
    behind them. -/
inductive TellsInteger (n : Int) : Json → Prop where
  | number : TellsInteger n (.int n)
  | digits : TellsInteger n (.str (integerText n))
  | pointed : TellsInteger n (.str (integerText n ++ ".0"))

/-- The value is an integer of the response that is rounded beyond the doubles. -/
def TooLargeValue (v : Json) : Prop := ∃ n, v = .int n ∧ Binary64.ofInt? n = none

theorem TellsInteger.ne_null {n : Int} {v : Json} (h : TellsInteger n v) : v ≠ .null := by
  cases h <;> exact nofun

/-- A text that is read as a double has that double for its value. -/
theorem qualityValue_of_text {s : String} {x : Binary64}
    (hchars : ∀ c ∈ s.toList, isNumeralChar c = true) (h : ofText? s.toList = some x) :
    Response.qualityValue (.str s) = .ok (Response.ofReal x) := by
  have hstrip : strip (Json.asText (.str s)).toList = s.toList := strip_of_isNumeralChar hchars
  unfold Response.qualityValue
  simp only [hstrip, h]

/-- A value that tells an integer is decoded to the double nearest to it, as an integer when that
    is one. -/
theorem qualityValue_of_tellsInteger {n : Int} {v : Json} (h : TellsInteger n v)
    (hlarge : ¬TooLargeValue v) : Response.qualityValue v = .ok (.number (Number.int n).reread) := by
  have hreread : Response.ofReal (Number.int n).nearest = .number (Number.int n).reread := rfl
  cases h with
  | number =>
    have hsome := (Number.ofInt?_cases n).resolve_right fun hnone => hlarge ⟨n, rfl, hnone.1⟩
    unfold Response.qualityValue Json.int
    simp only [hsome, hreread]
  | digits =>
    exact (qualityValue_of_text (chars_integerText n) (ofText?_integerText n)).trans
      (congrArg Except.ok hreread)
  | pointed =>
    exact (qualityValue_of_text (chars_pointed n) (ofText?_pointed n)).trans
      (congrArg Except.ok hreread)

theorem qualityValue_of_tooLarge {v : Json} (h : TooLargeValue v) :
    Response.qualityValue v = .error .tooLarge := by
  obtain ⟨n, rfl, hnone⟩ := h
  unfold Response.qualityValue Json.int
  simp only [hnone]

/-- An integer that some double equals is not beyond the doubles. -/
theorem not_tooLargeValue {n : Int} {v : Json} (h : TellsInteger n v)
    (hdouble : (Number.int n).IsDouble) : ¬TooLargeValue v := by
  rintro ⟨n', rfl, hnone⟩
  obtain rfl : n' = n := by
    cases h
    rfl
  obtain ⟨x, hx⟩ := hdouble
  have hnearest := Number.toInt?_nearest hx
  rcases Number.ofInt?_cases n' with hsome | ⟨-, negative, hinfinite⟩
  · exact absurd (hsome.symm.trans hnone) nofun
  · rw [hinfinite] at hnearest
    exact absurd hnearest nofun

/-! ### One quality of a listing -/

/-- Changes an item of a list, or a value that stands for a list of itself alone. -/
def onItem (i : Nat) (F : Json → Json) : Json → Json
  | .arr items => .arr (items.modify i F)
  | v => if i = 0 then F v else v

/-- A summary with a value for a quality. -/
def Summary.withQuality (s : Summary) (key : String) (value : Json) : Summary :=
  { s with qualities := Json.setField s.qualities key value }

theorem Summary.lookup_withQuality (s : Summary) (key : String) (value : Json) :
    (s.withQuality key value).qualities.lookup key = some value :=
  (Json.lookup_setField key).trans (if_pos rfl)

namespace Response

/-- A listing with another value of quality number `j` of entry number `i`. -/
def setQuality (i j : Nat) (v : Json) : Json → Json :=
  onRecord "data" <| onField "dataset" <| onItem i <| onObject <| onField "quality" <| onItem j <|
    onObject fun fields => Json.setField fields "value" v

/-- Quality number `j` has the name, and no later one has its key: it is the one that counts. -/
structure Counts (qualities : List Json) (j : Nat) (name : String) : Prop where
  named : ∃ q, qualities[j]? = some q ∧ qualityName? q = some name
  last : ∀ j' q' name', j < j' → qualities[j']? = some q' → qualityName? q' = some name' →
    qualityKey name' ≠ qualityKey name

/-- Quality number `j` of entry number `i` has the name, and is the one of its key that counts. -/
def QualityAt (payload : Json) (i j : Nat) (name : String) : Prop :=
  ∃ entry, (listed Schema.datasetList payload "dataset")[i]? = some entry ∧
    Counts (itemsOf entry "quality") j name

end Response

section Item

variable {f : List (String × Json) → List (String × Json)} {i : Nat}

theorem asItems_onItem (v : Json) :
    asItems (onItem i (onObject f) v) = (asItems v).modify i (onObject f) := by
  cases v with
  | arr items => rfl
  | _ => cases i <;> simp [onItem, onObject, asItems]

theorem decodeItems_modify {α : Type} {decode : String → Json → Except DecodeError α}
    {F : Json → Json} {h : α → α} (hF : ∀ path v, decode path (F v) = (decode path v).map h)
    (path : String) (k i : Nat) (items : List Json) :
    decodeItems decode path k (items.modify i F) =
      (decodeItems decode path k items).map (·.modify i h) := by
  induction items generalizing k i with
  | nil => cases i <;> rfl
  | cons v rest ih =>
    cases i with
    | zero =>
      simp only [List.modify_zero_cons, decodeItems, hF]
      cases decode (itemPath path k) v with
      | error e => rfl
      | ok x => cases decodeItems decode path (k + 1) rest <;> rfl
    | succ i =>
      simp only [List.modify_succ_cons, decodeItems, ih]
      cases decode (itemPath path k) v with
      | error e => rfl
      | ok x => cases decodeItems decode path (k + 1) rest <;> rfl

/-- A change of one object in a field. -/
theorem changes_onItem : Changes (onItem i (onObject f)) (·.modify i f) where
  null_iff v := by cases v <;> cases i <;> simp [onItem, onObject]
  items path v := by
    rw [asItems_onItem]
    exact decodeItems_modify (fun _ _ => decodeObject_onObject _ _) path 0 i _

theorem objects_modify {name : String} (r : Record) :
    Record.objects (Record.onRecords name (·.modify i f) r) name =
      (r.objects name).modify i (onObject f) := by
  have hmap : ∀ xs : List (List (String × Json)),
      (xs.modify i f).map Json.obj = (xs.map Json.obj).modify i (onObject f) := by
    intro xs
    apply List.ext_getElem?
    intro k
    simp only [List.getElem?_map, List.getElem?_modify]
    cases xs[k]? with
    | none => rfl
    | some x => by_cases hik : i = k <;> simp [hik, onObject]
  exact objects_onRecords (by cases i <;> rfl) hmap r

end Item

/-! ### Another value of a quality -/

theorem unknownField_setField {schema : Schema} {key : String} (v : Json)
    (fields : List (String × Json)) (hkey : key ∈ schema.fields.map (·.name)) :
    unknownField schema (Json.setField fields key v) = unknownField schema fields := by
  unfold unknownField
  rw [Json.keys_setField]
  split
  · rfl
  · rw [List.filter_append, List.filter_singleton]
    simp [hkey]

/-- A quality with another value is decoded to the record with the other value, or fails in the
    same way. -/
theorem decodeRecord_setValue {v : Json} (hnull : v ≠ .null) (strict : Bool) (path : String)
    (q : Json) :
    decodeRecord Schema.quality strict path
        (onObject (fun fields => Json.setField fields "value" v) q) =
      (decodeRecord Schema.quality strict path q).map fun r =>
        Json.setField r "value" (.any v) := by
  cases q with
  | obj fields =>
    have hname : presentValue (Json.setField fields "value" v) "name" = presentValue fields "name" := by
      unfold presentValue
      rw [Json.lookup_setField]
      rfl
    have hvalue : presentValue (Json.setField fields "value" v) "value" = some v := by
      apply presentValue_of_lookup _ hnull
      rw [Json.lookup_setField]
      rfl
    have hfields : decodeFields path (Json.setField fields "value" v) Schema.quality.fields =
        (decodeFields path fields Schema.quality.fields).map fun r =>
          Json.setField r "value" (.any v) := by
      simp only [Schema.quality, Schema.must, Schema.may, decodeFields, hname, hvalue]
      cases presentValue fields "name" with
      | none => rfl
      | some nameValue =>
        dsimp only
        cases decodeShape (fieldPath path "name") .text nameValue with
        | error e => rfl
        | ok name =>
          -- with or without a value before, the value is the second field of the record
          cases presentValue fields "value" <;> rfl
    have hunknown := unknownField_setField v fields
      (show "value" ∈ Schema.quality.fields.map (·.name) by decide)
    change decodeRecord _ strict path (.obj _) = _
    cases hunknown' : unknownField Schema.quality fields with
    | none =>
      rw [decodeRecord_of_known (hunknown.trans hunknown'), decodeRecord_of_known hunknown', hfields]
    | some name =>
      rw [decodeRecord_of_unknown (hunknown.trans hunknown'), decodeRecord_of_unknown hunknown',
        hfields]
      split <;> rfl
  | _ => rfl

namespace Response

variable {strict : Bool} {payload : Json} {v : Json}

/-- A key that is set again with another value stays so, unless it is set once more. -/
theorem qualities_setField {done all : List (String × Json)} {records : List Record} {key : String}
    (h : qualities done records = .ok all) (hmem : key ∈ done.map (·.1))
    (hlast : ∀ q ∈ records, qualityKey (q.text "name") ≠ key) (value : Json) :
    qualities (Json.setField done key value) records = .ok (Json.setField all key value) := by
  induction records generalizing done with
  | nil =>
    obtain rfl := Except.ok.inj h
    rfl
  | cons q rest ih =>
    unfold qualities at h ⊢
    obtain ⟨value', hvalue', h⟩ := bind_eq_ok_iff.1 h
    have hne := hlast q List.mem_cons_self
    refine bind_eq_ok_iff.2 ⟨value', hvalue', ?_⟩
    rw [Json.setField_comm (Ne.symm hne) hmem]
    exact ih h (Json.mem_keys_setField.2 (.inr hmem)) fun q' hq' =>
      hlast q' (List.mem_cons_of_mem q hq')

/-- Qualities with another value for the last one of a key. -/
theorem qualities_modify {done all : List (String × Json)} {records : List Record} {j : Nat}
    {q : Record} (h : qualities done records = .ok all) (hq : records[j]? = some q)
    (hlast : ∀ j' q', j < j' → records[j']? = some q' →
      qualityKey (q'.text "name") ≠ qualityKey (q.text "name")) (v : Json) :
    qualities done (records.modify j fun r => Json.setField r "value" (.any v)) =
      (qualityValue v).map fun value =>
        Json.setField all (qualityKey (q.text "name")) value := by
  induction records generalizing done j with
  | nil => exact absurd hq nofun
  | cons first rest ih =>
    unfold qualities at h
    obtain ⟨value, hvalue, h⟩ := bind_eq_ok_iff.1 h
    cases j with
    | zero =>
      obtain rfl := Option.some.inj hq
      have hname : Record.text (Json.setField first "value" (.any v)) "name" = first.text "name" := by
        unfold Record.text Record.text?
        rw [Json.lookup_setField]
        rfl
      have hany : Record.any? (Json.setField first "value" (.any v)) "value" = some v := by
        unfold Record.any?
        rw [Json.lookup_setField]
        rfl
      have hrest : ∀ q ∈ rest, qualityKey (q.text "name") ≠ qualityKey (first.text "name") := by
        intro q hq
        obtain ⟨k, hk⟩ := List.getElem?_of_mem hq
        exact hlast (k + 1) q (Nat.succ_pos k) hk
      rw [List.modify_zero_cons]
      unfold qualities
      rw [hname, hany, Option.getD_some]
      cases qualityValue v with
      | error e => rfl
      | ok value' =>
        have hset := qualities_setField h (Json.mem_keys_setField.2 (.inl rfl)) hrest value'
        rw [Json.setField_setField] at hset
        exact hset
    | succ j =>
      rw [List.modify_succ_cons]
      unfold qualities
      rw [hvalue]
      exact ih h hq fun j' q' hlater hq' => hlast (j' + 1) q' (Nat.succ_lt_succ hlater) hq'

/-- A summary with another value for a quality. -/
theorem summary_modify {k j : Nat} {entry : Record} {s : Summary} {name : String}
    (hnull : v ≠ .null) (h : summary strict k entry = .ok s)
    (hcounts : Counts (entry.objects "quality") j name) :
    summary strict k (Record.onRecords "quality"
        (·.modify j fun fields => Json.setField fields "value" v) entry) =
      (qualityValue v).map fun value => s.withQuality (qualityKey name) value := by
  obtain ⟨⟨q, hq, hname⟩, hlast⟩ := hcounts
  obtain ⟨records, hrecords, h⟩ := bind_eq_ok_iff.1 h
  obtain ⟨all, hall, h⟩ := bind_eq_ok_iff.1 h
  -- the decoded qualities stand beside the items, under their names
  have hbeside := forall₂_of_decodeItems hrecords
  obtain ⟨r, hr, path, hdecode⟩ := exists_getElem?_of_forall₂ hbeside.flip hq
  obtain rfl := Option.some.inj (hname.symm.trans (qualityName?_of_decodeRecord hdecode))
  have hlater : ∀ j' r', j < j' → records[j']? = some r' →
      qualityKey (r'.text "name") ≠ qualityKey (r.text "name") := by
    intro j' r' hlater hr'
    obtain ⟨q', hq', path', hdecode'⟩ := exists_getElem?_of_forall₂ hbeside hr'
    exact hlast j' q' _ hlater hq' (qualityName?_of_decodeRecord hdecode')
  have hmodified := qualities_modify hall hr hlater v
  have hdecoded := decodeItems_modify (decodeRecord_setValue hnull strict)
    (fieldPath (itemPath entriesPath k) "quality") 0 j (entry.objects "quality")
  unfold decodeRecords at hrecords
  rw [hrecords] at hdecoded
  simp only [summary, objects_modify, Record.text, Record.integer, text?_onRecords,
    integer?_onRecords, decodeRecords, hdecoded]
  change (qualities [] (records.modify j _) >>= _) = _
  rw [hmodified]
  cases qualityValue v with
  | error e => rfl
  | ok value =>
    split at h
    · cases h
    · next id hid =>
      obtain rfl := Except.ok.inj h
      have hid : checkId ((entry.integer? "did").getD 0) = .ok id := hid
      simp only [Except.map, bind, Except.bind, hid]
      rfl

/-- Summaries of entries of which one is changed. -/
theorem summaries_modify {α : Type} {k i : Nat} {entries : List Record} {out : List Summary}
    {entry : Record} {H : Record → Record} {value : Except DecodeError α}
    {g : α → Summary → Summary} (h : summaries strict k entries = .ok out)
    (hentry : entries[i]? = some entry)
    (hH : ∀ k s, summary strict k entry = .ok s →
      summary strict k (H entry) = value.map fun a => g a s) :
    summaries strict k (entries.modify i H) = value.map fun a => out.modify i (g a) := by
  induction entries generalizing k i out with
  | nil => exact absurd hentry nofun
  | cons first rest ih =>
    unfold summaries at h
    obtain ⟨s, hs, h⟩ := bind_eq_ok_iff.1 h
    obtain ⟨tail, htail, h⟩ := bind_eq_ok_iff.1 h
    obtain rfl := Except.ok.inj h
    cases i with
    | zero =>
      obtain rfl := Option.some.inj hentry
      rw [List.modify_zero_cons]
      unfold summaries
      rw [hH k s hs, htail]
      cases value <;> rfl
    | succ i =>
      rw [List.modify_succ_cons]
      unfold summaries
      rw [hs, ih htail hentry]
      cases value <;> rfl

/-- The items that count are those of a field that is not null. -/
theorem objects_of_counts {path : String} {entry : Json} {record : Record} {j : Nat} {name : String}
    (h : decodeRecord Schema.datasetEntry strict path entry = .ok record)
    (hcounts : Counts (itemsOf entry "quality") j name) :
    record.objects "quality" = itemsOf entry "quality" := by
  refine (objects_quality h).resolve_right ?_
  rintro ⟨-, hnull⟩
  obtain ⟨q, hq, hname⟩ := hcounts.named
  rw [hnull] at hq
  cases j with
  | zero =>
    obtain rfl := Option.some.inj hq
    exact absurd hname nofun
  | succ j => exact absurd hq nofun

/-- **A listing with another value for a quality that counts** is decoded to the same summaries
    with the other value, or fails at it. -/
theorem listing_setQuality {i j : Nat} {name : String} {out : List Summary} (hnull : v ≠ .null)
    (h : listing strict payload = .ok out) (hat : QualityAt payload i j name) :
    listing strict (setQuality i j v payload) = (qualityValue v).map fun value =>
      out.modify i (·.withQuality (qualityKey name) value) := by
  obtain ⟨entry, hentry, hcounts⟩ := hat
  obtain ⟨r, hr, h⟩ := bind_eq_ok_iff.1 h
  obtain ⟨entries, hentries, h⟩ := bind_eq_ok_iff.1 h
  rw [← objects_dataset hr] at hentry
  obtain ⟨record, hrecord, path, hdecode⟩ :=
    exists_getElem?_of_forall₂ (forall₂_of_decodeItems hentries).flip hentry
  rw [← objects_of_counts hdecode hcounts] at hcounts
  -- the record of the response, its entries and their summaries change at one place each
  have henvelope : envelope Schema.datasetList strict (setQuality i j v payload) = _ :=
    envelope_onField changes_onItem strict payload (by decide)
  have hchange : ∀ path entry, decodeRecord Schema.datasetEntry strict path
      (onObject (onField "quality" (onItem j (onObject fun fields =>
        Json.setField fields "value" v))) entry) =
      (decodeRecord Schema.datasetEntry strict path entry).map (Record.onRecords "quality"
        (·.modify j fun fields => Json.setField fields "value" v)) :=
    fun path entry => changes_onItem.decodeRecord_onField strict path entry (by decide)
  have hchanged := decodeItems_modify hchange entriesPath 0 i (r.objects "dataset")
  unfold decodeRecords at hentries
  unfold listing
  rw [henvelope, hr]
  change (decodeRecords _ _ _ (Record.objects (Record.onRecords "dataset" _ r) _) >>= _) = _
  rw [objects_modify]
  unfold decodeRecords
  rw [hchanged, hentries]
  exact summaries_modify h hrecord fun k s hs => summary_modify hnull hs hcounts

/-- A quality that is listed belongs to a summary. -/
theorem QualityAt.exists_summary {i j : Nat} {name : String} {out : List Summary}
    (hat : QualityAt payload i j name) (h : listing strict payload = .ok out) :
    ∃ s, out[i]? = some s := by
  obtain ⟨entry, hentry, -⟩ := hat
  obtain ⟨s, hs, -⟩ := exists_getElem?_of_forall₂ (forall₂_of_listing h).flip hentry
  exact ⟨s, hs⟩

end Response

/-! ### Listings -/

namespace Client

/-- **A listing that tells an integer as the value of a quality** decodes like the listing with any
    other value there, but for the value of that quality. The value is the double nearest to the
    integer, as an integer when it is whole; so it is the integer itself exactly when some double
    equals it, as every integer below `2 ^ 53` does. An integer of the response that is rounded
    beyond the doubles ends the listing in an error. -/
theorem listDatasets_of_tellsInteger {c : Client} {t : Trace} {tag : Option String}
    {filter : FilterChoice} {path name : String} {payload v : Json} {listed : List Summary}
    {i j : Nat} {n : Int} (hpath : Request.listing tag filter = .ok path)
    (hlisted : Response.listing c.settings.strictDecoding payload = .ok listed)
    (hat : Response.QualityAt payload i j name) (htells : TellsInteger n v)
    (hanswers : c.Answers t path (Response.setQuality i j v payload)) :
    (TooLargeValue v → (run (c.listDatasets tag filter) t).1 = .error (.decode .tooLarge)) ∧
    (¬TooLargeValue v → (run (c.listDatasets tag filter) t).1 =
      .ok (listed.modify i (·.withQuality (qualityKey name) (.number (Number.int n).reread)))) ∧
    ((run (c.listDatasets tag filter) t).1 =
      .ok (listed.modify i (·.withQuality (qualityKey name) (.int n))) ↔
        (Number.int n).IsDouble) ∧
    (n.natAbs < 2 ^ 53 → (Number.int n).IsDouble) := by
  have hlisting := Response.listing_setQuality htells.ne_null hlisted hat
  have hrun := run_listDatasets_of_answers hpath hanswers
  rw [hlisting] at hrun
  have htooLarge : TooLargeValue v →
      (run (c.listDatasets tag filter) t).1 = .error (.decode .tooLarge) := by
    intro hlarge
    rw [hrun, qualityValue_of_tooLarge hlarge]
    rfl
  have hrounded : ¬TooLargeValue v → (run (c.listDatasets tag filter) t).1 =
      .ok (listed.modify i (·.withQuality (qualityKey name) (.number (Number.int n).reread))) := by
    intro hlarge
    rw [hrun, qualityValue_of_tellsInteger htells hlarge]
    rfl
  refine ⟨htooLarge, hrounded, ⟨fun hexact => ?_, fun hdouble => ?_⟩, Number.isDouble_of_small⟩
  · by_cases hlarge : TooLargeValue v
    · rw [htooLarge hlarge] at hexact
      exact absurd hexact nofun
    · rw [hrounded hlarge] at hexact
      -- the two lists of summaries hold the two values under the same key
      obtain ⟨s, hs⟩ := hat.exists_summary hlisted
      have hsummary := congrArg (·[i]?) (Except.ok.inj hexact)
      simp only [List.getElem?_modify, hs, if_true, Option.map_eq_map, Option.map_some] at hsummary
      have hvalue := congrArg (·.qualities.lookup (qualityKey name)) (Option.some.inj hsummary)
      simp only [Summary.lookup_withQuality] at hvalue
      exact (Number.reread_eq_int_iff n).1 (Json.number.inj (Option.some.inj hvalue))
  · rw [hrounded (not_tooLargeValue htells hdouble), Number.reread_int hdouble]
    rfl

/-- A listing of an entry with a quality that is told as `2 ^ 53 + 1`. -/
def oddListing : String :=
  "\x7b\"data\":\x7b\"dataset\":[\x7b\"did\":61,\"name\":\"iris\",\"version\":1," ++
    "\"status\":\"active\",\"quality\":[\x7b\"name\":\"NumberOfInstances\"," ++
    "\"value\":\"9007199254740993\"\x7d]\x7d]\x7d\x7d"

/-- The listing as a value, where the quality is told in another way. -/
def blankPayload : Json := .obj [("data", .obj [("dataset", .arr [.obj [("did", .int 61),
  ("name", .str "iris"), ("version", .int 1), ("status", .str "active"),
  ("quality", .arr [.obj [("name", .str "NumberOfInstances"), ("value", .bool true)]])]])])]

/-- The summary of the entry, with a value for the quality. -/
def oddSummary (value : Json) : Summary :=
  { id := 61, name := "iris", version := 1, status := "active"
    qualities := [("number_instances", value)] }

/-- A client that is answered with the listing. -/
def oddClient : Client := ⟨{}, fun _ _ => .ok oddListing.toUTF8⟩

set_option maxRecDepth 4000 in
theorem answers_oddPayload : oddClient.Answers {} "/data/list"
    (Response.setQuality 0 0 (.str "9007199254740993") blankPayload) := by
  refine ⟨_, rfl, ?_⟩
  rw [Json.ofBytes?_toUTF8]
  cbv

/-- A number of instances of `2 ^ 53 + 1` is listed as `2 ^ 53`. -/
theorem not_exact_of_odd_quality :
    TellsInteger 9007199254740993 (.str "9007199254740993") ∧
    (run (oddClient.listDatasets none .none) {}).1 = .ok [oddSummary (.int 9007199254740992)] ∧
    (run (oddClient.listDatasets none .none) {}).1 ≠ .ok [oddSummary (.int 9007199254740993)] := by
  have hlisted : Response.listing true blankPayload = .ok [oddSummary (.str "true")] := by cbv
  have hat : Response.QualityAt blankPayload 0 0 "NumberOfInstances" := by
    refine ⟨_, rfl, ⟨⟨_, rfl, rfl⟩, ?_⟩⟩
    rintro (_ | j') q' name' hlater hq'
    · exact absurd hlater (Nat.lt_irrefl 0)
    · cases hq'
  have htells : TellsInteger 9007199254740993 (.str "9007199254740993") := .digits
  have hreread : (Number.int 9007199254740993).reread = .int 9007199254740992 := by decide
  have hpath : Request.listing none .none = .ok "/data/list" := rfl
  obtain ⟨-, hrounded, hexact, -⟩ :=
    listDatasets_of_tellsInteger hpath hlisted hat htells answers_oddPayload
  have hlarge : ¬TooLargeValue (.str "9007199254740993") := by
    rintro ⟨n, hn, -⟩
    cases hn
  refine ⟨htells, ?_, fun heq => ?_⟩
  · rw [hrounded hlarge, hreread]
    rfl
  · have hdouble := hexact.1 heq
    rw [← Number.reread_eq_int_iff, hreread] at hdouble
    exact absurd hdouble (by decide)

end Client

end DatasetCatalog.Catalog
