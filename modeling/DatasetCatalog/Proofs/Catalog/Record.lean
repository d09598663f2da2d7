import DatasetCatalog.Catalog.Response
import DatasetCatalog.Proofs.Except
import DatasetCatalog.Proofs.Keyed
import Mathlib.Data.List.Basic

/-! # Decoding records: what is decoded and why it fails

  An error of decoding is documented when it names the path of a value at fault. There is one way
  in which a record ends in another error: the decoder takes a text for an integer by its look,
  and the reader of integers refuses it. A decoded record holds nothing but what its fields were
  decoded from; the objects in it are the items of the field.
-/

namespace DatasetCatalog.Catalog

open Text

/-- The error names the path of a value at fault. -/
def DecodeError.Documented : DecodeError → Prop
  | .at .. => True
  | _ => False

/-- The text looks like an integer, but the reader of integers refuses it; the error tells so. -/
def Misread (s : String) (e : DecodeError) : Prop :=
  looksInteger s.toList = true ∧
    ∃ fault, Numeral.integer (strip s.toList) = .error fault ∧ e = .integer s fault

/-- An integer field of the record holds a text that only looks like an integer. -/
def Schema.Misreads (schema : Schema) (record : Json) (e : DecodeError) : Prop :=
  ∃ spec ∈ schema.fields, spec.shape = .integer ∧
    ∃ s, record.field? spec.name = some (.str s) ∧ Misread s e

/-- The shapes of all fields have a meaning. -/
def Schema.Known (schema : Schema) : Prop :=
  ∀ spec ∈ schema.fields, ∀ name, spec.shape ≠ .other name

/-- The schemas of the service name no shape that does not exist. -/
theorem Schema.known_of_mem_all {schema : Schema} (h : schema ∈ Schema.all) : schema.Known := by
  have hall : ∀ schema ∈ Schema.all, ∀ spec ∈ schema.fields,
      spec.shape ∈ [Shape.text, .integer, .truth, .texts, .records, .any] := by decide
  intro spec hspec name heq
  have hmem := hall schema h spec hspec
  rw [heq] at hmem
  simp at hmem

variable {path : String} {v : Json} {e : DecodeError} {schema : Schema} {strict : Bool}

/-! ### Errors -/

theorem decodeText_error (h : decodeText path v = .error e) : e.Documented := by
  unfold decodeText at h
  split at h
  · exact absurd h nofun
  · exact absurd h nofun
  · obtain rfl := Except.error.inj h
    trivial

theorem decodeTruth_error (h : decodeTruth path v = .error e) : e.Documented := by
  unfold decodeTruth at h
  split at h
  · exact absurd h nofun
  · simp only at h
    split at h
    · exact absurd h nofun
    split at h
    · exact absurd h nofun
    · obtain rfl := Except.error.inj h
      trivial
  · obtain rfl := Except.error.inj h
    trivial

theorem decodeObject_error (h : decodeObject path v = .error e) : e.Documented := by
  unfold decodeObject at h
  split at h
  · exact absurd h nofun
  · obtain rfl := Except.error.inj h
    trivial

theorem decodeInteger_error (h : decodeInteger path v = .error e) :
    e.Documented ∨ ∃ s, v = .str s ∧ Misread s e := by
  unfold decodeInteger at h
  split at h
  · obtain rfl := Except.error.inj h
    exact .inl trivial
  · exact absurd h nofun
  · next s =>
    split at h
    · next hlooks =>
      split at h
      · exact absurd h nofun
      · next fault hfault =>
        exact .inr ⟨s, rfl, hlooks, fault, hfault, (Except.error.inj h).symm⟩
    · obtain rfl := Except.error.inj h
      exact .inl trivial
  · obtain rfl := Except.error.inj h
    exact .inl trivial

/-- A list of items fails at one of them. -/
theorem decodeItems_error {α : Type} {decode : String → Json → Except DecodeError α} {i : Nat}
    {items : List Json} (h : decodeItems decode path i items = .error e) :
    ∃ v ∈ items, ∃ path', decode path' v = .error e := by
  induction items generalizing i with
  | nil => exact absurd h nofun
  | cons v rest ih =>
    unfold decodeItems at h
    rcases bind_eq_error_iff.1 h with hv | ⟨x, -, h⟩
    · exact ⟨v, List.mem_cons_self, _, hv⟩
    rcases bind_eq_error_iff.1 h with hrest | ⟨xs, -, h⟩
    · obtain ⟨v', hmem, hv'⟩ := ih hrest
      exact ⟨v', List.mem_cons_of_mem v hmem, hv'⟩
    · exact absurd h nofun

theorem decodeShape_error {shape : Shape} (hknown : ∀ name, shape ≠ .other name)
    (h : decodeShape path shape v = .error e) :
    e.Documented ∨ shape = .integer ∧ ∃ s, v = .str s ∧ Misread s e := by
  cases shape with
  | any => exact absurd h nofun
  | text => exact .inl (decodeText_error (map_eq_error_iff.1 h))
  | integer =>
    exact (decodeInteger_error (map_eq_error_iff.1 h)).imp_right fun hmisread => ⟨rfl, hmisread⟩
  | truth => exact .inl (decodeTruth_error (map_eq_error_iff.1 h))
  | texts =>
    obtain ⟨v', -, path', hv'⟩ := decodeItems_error (map_eq_error_iff.1 h)
    exact .inl (decodeText_error hv')
  | records =>
    obtain ⟨v', -, path', hv'⟩ := decodeItems_error (map_eq_error_iff.1 h)
    exact .inl (decodeObject_error hv')
  | other name => exact absurd rfl (hknown name)

theorem lookup_of_presentValue {fields : List (String × Json)} {name : String}
    (h : presentValue fields name = some v) : fields.lookup name = some v := by
  unfold presentValue at h
  split at h
  · exact absurd h nofun
  · exact h

theorem presentValue_of_lookup {fields : List (String × Json)} {name : String}
    (h : fields.lookup name = some v) (hnull : v ≠ .null) : presentValue fields name = some v := by
  unfold presentValue
  rw [h]
  split
  · next heq => exact absurd (Option.some.inj heq) hnull
  · rfl

theorem presentValue_of_lookup_null {fields : List (String × Json)} {name : String}
    (h : fields.lookup name = some .null) : presentValue fields name = none := by
  unfold presentValue
  rw [h]

theorem presentValue_of_lookup_none {fields : List (String × Json)} {name : String}
    (h : fields.lookup name = none) : presentValue fields name = none := by
  unfold presentValue
  rw [h]

/-- The fields of a record fail at one of them. -/
theorem decodeFields_error {fields : List (String × Json)} {specs : List FieldSpec}
    (hknown : ∀ spec ∈ specs, ∀ name, spec.shape ≠ .other name)
    (h : decodeFields path fields specs = .error e) :
    e.Documented ∨ ∃ spec ∈ specs, spec.shape = .integer ∧
      ∃ s, fields.lookup spec.name = some (.str s) ∧ Misread s e := by
  induction specs with
  | nil => exact absurd h nofun
  | cons spec rest ih =>
    have hrest : decodeFields path fields rest = .error e → e.Documented ∨
        ∃ spec' ∈ spec :: rest, spec'.shape = .integer ∧
          ∃ s, fields.lookup spec'.name = some (.str s) ∧ Misread s e := by
      intro h
      refine (ih (fun s hs => hknown s (List.mem_cons_of_mem spec hs)) h).imp_right ?_
      rintro ⟨spec', hmem, hmisread⟩
      exact ⟨spec', List.mem_cons_of_mem spec hmem, hmisread⟩
    unfold decodeFields at h
    simp only at h
    split at h
    · split at h
      · obtain rfl := Except.error.inj h
        exact .inl trivial
      · exact hrest h
    · next v hv =>
      rcases bind_eq_error_iff.1 h with hshape | ⟨value, -, h⟩
      · refine (decodeShape_error (hknown spec List.mem_cons_self) hshape).imp_right ?_
        rintro ⟨hinteger, s, rfl, hmisread⟩
        exact ⟨spec, List.mem_cons_self, hinteger, s, lookup_of_presentValue hv, hmisread⟩
      rcases bind_eq_error_iff.1 h with h | ⟨record, -, h⟩
      · exact hrest h
      · exact absurd h nofun

/-- A strict decoder refuses a record with an unknown field, and a lenient one passes it by. -/
theorem decodeRecord_of_unknown {fields : List (String × Json)} {name : String}
    (h : unknownField schema fields = some name) :
    decodeRecord schema strict path (.obj fields) =
      if strict then .error (.at (fieldPath path name) (.unexpected schema.kind))
      else decodeFields path fields schema.fields := by
  have hfields : decodeObject path (.obj fields) = .ok fields := rfl
  unfold decodeRecord
  rw [hfields]
  simp only [bind, Except.bind, h]
  cases strict
  · rfl
  · rfl

theorem decodeRecord_of_known {fields : List (String × Json)}
    (h : unknownField schema fields = none) :
    decodeRecord schema strict path (.obj fields) = decodeFields path fields schema.fields := by
  have hfields : decodeObject path (.obj fields) = .ok fields := rfl
  unfold decodeRecord
  rw [hfields]
  simp only [bind, Except.bind, h]

/-- A record is refused as a whole with a documented error, or its fields are decoded. -/
theorem decodeRecord_cases (schema : Schema) (strict : Bool) (path : String) (v : Json) :
    (∃ e : DecodeError, e.Documented ∧ decodeRecord schema strict path v = .error e) ∨
    ∃ fields, v = .obj fields ∧
      decodeRecord schema strict path v = decodeFields path fields schema.fields := by
  cases hobject : decodeObject path v with
  | error e =>
    refine .inl ⟨e, decodeObject_error hobject, ?_⟩
    unfold decodeRecord
    rw [hobject]
    rfl
  | ok fields =>
    obtain rfl : v = .obj fields := by
      unfold decodeObject at hobject
      split at hobject
      · exact congrArg Json.obj (Except.ok.inj hobject)
      · cases hobject
    cases hunknown : unknownField schema fields with
    | none => exact .inr ⟨fields, rfl, decodeRecord_of_known hunknown⟩
    | some name =>
      rw [decodeRecord_of_unknown hunknown]
      split
      · exact .inl ⟨.at _ _, trivial, rfl⟩
      · exact .inr ⟨fields, rfl, rfl⟩

/-- Lenient decoding of a record drops what the schema does not have. -/
theorem decodeRecord_lenient (schema : Schema) (path : String) (fields : List (String × Json)) :
    decodeRecord schema false path (.obj fields) = decodeFields path fields schema.fields := by
  cases hunknown : unknownField schema fields with
  | none => exact decodeRecord_of_known hunknown
  | some name => exact decodeRecord_of_unknown hunknown

/-- **A record fails with a documented error, or an integer field only looks like one.** -/
theorem decodeRecord_error (hknown : schema.Known)
    (h : decodeRecord schema strict path v = .error e) :
    e.Documented ∨ schema.Misreads v e := by
  rcases decodeRecord_cases schema strict path v with ⟨e', he', heq⟩ | ⟨fields, rfl, heq⟩
  · obtain rfl := Except.error.inj (heq.symm.trans h)
    exact .inl he'
  · exact decodeFields_error hknown (heq.symm.trans h)

theorem decodeRecords_error {items : List Json} (hknown : schema.Known)
    (h : decodeRecords schema strict path items = .error e) :
    e.Documented ∨ ∃ item ∈ items, schema.Misreads item e := by
  obtain ⟨item, hmem, path', hitem⟩ := decodeItems_error h
  exact (decodeRecord_error hknown hitem).imp_right fun hmisreads => ⟨item, hmem, hmisreads⟩

theorem unwrap_error {key : String} (h : unwrap v key = .error e) : e.Documented := by
  unfold unwrap at h
  split at h
  · split at h
    · exact absurd h nofun
    · obtain rfl := Except.error.inj h
      trivial
  · obtain rfl := Except.error.inj h
    trivial

/-! ### Decoded values -/

theorem field?_of_unwrap {key : String} {v' : Json} (h : unwrap v key = .ok v') :
    v.field? key = some v' := by
  unfold unwrap at h
  split at h
  · split at h
    · next hlookup => exact hlookup.trans (congrArg some (Except.ok.inj h))
    · exact absurd h nofun
  · exact absurd h nofun

/-- Every decoded item was decoded from one of the items. -/
theorem exists_of_mem_decodeItems {α : Type} {decode : String → Json → Except DecodeError α}
    {i : Nat} {items : List Json} {xs : List α} (h : decodeItems decode path i items = .ok xs)
    {x : α} (hx : x ∈ xs) : ∃ item ∈ items, ∃ path', decode path' item = .ok x := by
  induction items generalizing i xs with
  | nil =>
    obtain rfl := Except.ok.inj h
    exact absurd hx List.not_mem_nil
  | cons v rest ih =>
    unfold decodeItems at h
    obtain ⟨first, hfirst, h⟩ := bind_eq_ok_iff.1 h
    obtain ⟨tail, htail, h⟩ := bind_eq_ok_iff.1 h
    obtain rfl := Except.ok.inj h
    rcases List.mem_cons.1 hx with rfl | hx
    · exact ⟨v, List.mem_cons_self, _, hfirst⟩
    · obtain ⟨item, hmem, hitem⟩ := ih htail hx
      exact ⟨item, List.mem_cons_of_mem v hmem, hitem⟩

/-- A decoded field was decoded from the field of its name. -/
theorem mem_decodeFields {fields : List (String × Json)} {specs : List FieldSpec} {r : Record}
    (h : decodeFields path fields specs = .ok r) {name : String} {value : FieldValue}
    (hmem : (name, value) ∈ r) :
    ∃ spec ∈ specs, spec.name = name ∧ ∃ v, fields.lookup name = some v ∧
      decodeShape (fieldPath path name) spec.shape v = .ok value := by
  induction specs generalizing r with
  | nil =>
    obtain rfl := Except.ok.inj h
    exact absurd hmem List.not_mem_nil
  | cons spec rest ih =>
    have hrest : ∀ r, decodeFields path fields rest = .ok r → (name, value) ∈ r →
        ∃ spec' ∈ spec :: rest, spec'.name = name ∧ ∃ v, fields.lookup name = some v ∧
          decodeShape (fieldPath path name) spec'.shape v = .ok value := by
      intro r h hmem
      obtain ⟨spec', hspec', hvalue⟩ := ih h hmem
      exact ⟨spec', List.mem_cons_of_mem spec hspec', hvalue⟩
    unfold decodeFields at h
    simp only at h
    split at h
    · split at h
      · exact absurd h nofun
      · exact hrest r h hmem
    · next v hv =>
      obtain ⟨value', hshape, h⟩ := bind_eq_ok_iff.1 h
      obtain ⟨record, hrecord, h⟩ := bind_eq_ok_iff.1 h
      obtain rfl := Except.ok.inj h
      rcases List.mem_cons.1 hmem with heq | hmem
      · obtain ⟨rfl, rfl⟩ := Prod.mk.inj heq
        exact ⟨spec, List.mem_cons_self, rfl, v, lookup_of_presentValue hv, hshape⟩
      · exact hrest record hrecord hmem

/-- A decoded record holds only what was decoded from a field of the value. -/
theorem decodeRecord_field {r : Record} (h : decodeRecord schema strict path v = .ok r)
    {name : String} {value : FieldValue} (hvalue : r.lookup name = some value) :
    ∃ spec ∈ schema.fields, spec.name = name ∧ ∃ v', v.field? name = some v' ∧
      decodeShape (fieldPath path name) spec.shape v' = .ok value := by
  rcases decodeRecord_cases schema strict path v with ⟨e', -, heq⟩ | ⟨fields, rfl, heq⟩
  · exact absurd (heq.symm.trans h) nofun
  · exact mem_decodeFields (heq.symm.trans h) (mem_of_lookup hvalue)

/-- The items of objects are the objects themselves. -/
theorem decodeItems_object {i : Nat} {items : List Json} {xs : List (List (String × Json))}
    (h : decodeItems decodeObject path i items = .ok xs) : xs.map .obj = items := by
  induction items generalizing i xs with
  | nil =>
    obtain rfl := Except.ok.inj h
    rfl
  | cons v rest ih =>
    unfold decodeItems at h
    obtain ⟨x, hx, h⟩ := bind_eq_ok_iff.1 h
    obtain ⟨tail, htail, h⟩ := bind_eq_ok_iff.1 h
    obtain rfl := Except.ok.inj h
    unfold decodeObject at hx
    split at hx
    · obtain rfl := Except.ok.inj hx
      rw [List.map_cons, ih htail]
    · exact absurd hx nofun

theorem decodeShape_records {shape : Shape} {xs : List (List (String × Json))}
    (h : decodeShape path shape v = .ok (.records xs)) :
    decodeItems decodeObject path 0 (asItems v) = .ok xs := by
  cases shape with
  | records =>
    obtain ⟨xs', hxs', heq⟩ := map_eq_ok_iff.1 h
    obtain rfl := FieldValue.records.inj heq
    exact hxs'
  | any => exact absurd h nofun
  | other => exact absurd h nofun
  | text | integer | truth | texts =>
    obtain ⟨_, -, heq⟩ := map_eq_ok_iff.1 h
    exact absurd heq nofun

theorem decodeShape_any {shape : Shape} {v' : Json} (h : decodeShape path shape v = .ok (.any v')) :
    v = v' := by
  cases shape with
  | any => exact FieldValue.any.inj (Except.ok.inj h)
  | other => exact absurd h nofun
  | text | integer | truth | texts | records =>
    obtain ⟨_, -, heq⟩ := map_eq_ok_iff.1 h
    exact absurd heq nofun

/-- The items of a field of a value. -/
def itemsOf (v : Json) (name : String) : List Json := ((v.field? name).map asItems).getD []

/-- **The objects of a decoded record are items of the field of their name.** -/
theorem mem_itemsOf_of_mem_objects {r : Record} (h : decodeRecord schema strict path v = .ok r)
    {name : String} {item : Json} (hitem : item ∈ r.objects name) : item ∈ itemsOf v name := by
  unfold Record.objects at hitem
  split at hitem
  · next xs hlookup =>
    obtain ⟨spec, -, -, v', hv', hshape⟩ := decodeRecord_field h hlookup
    have hitems := decodeItems_object (decodeShape_records hshape)
    unfold itemsOf
    rw [hv']
    rw [hitems] at hitem
    exact hitem
  · exact absurd hitem List.not_mem_nil

/-- A field of any value holds the value itself. -/
theorem field?_of_any? {r : Record} (h : decodeRecord schema strict path v = .ok r)
    {name : String} {v' : Json} (hv' : r.any? name = some v') : v.field? name = some v' := by
  unfold Record.any? at hv'
  split at hv'
  · next value hlookup =>
    obtain rfl := Option.some.inj hv'
    obtain ⟨spec, -, -, v', hv', hshape⟩ := decodeRecord_field h hlookup
    rw [hv', decodeShape_any hshape]
  · exact absurd hv' nofun

end DatasetCatalog.Catalog
