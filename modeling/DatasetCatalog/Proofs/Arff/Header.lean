import DatasetCatalog.Arff.Line
import DatasetCatalog.Arff.Writer
import DatasetCatalog.Proofs.Arff.Token
import DatasetCatalog.Proofs.Arff.WellFormed

/-! # Header lines read back

  A written relation name, and a written declaration of every kind, are read as what they were
  written for. The one thing that a declaration cannot show is a date format that is the empty
  text: it is written like no format at all.
-/

namespace DatasetCatalog.Arff

open Text

/-! ### Values of a header line -/

/-- A quoted value in front is recognised, a bare one is not taken for one. -/
theorem leadingQuoted_quoteValue (line : Nat) (value rest : List Char) :
    leadingQuoted line (quoteValue value ++ rest) =
      .ok (if needsQuoting value then some (value, rest) else none) := by
  cases h : needsQuoting value with
  | true =>
    have hq := quotedBody_flatMap value rest
    rw [quoteValue_of_needsQuoting h, quoted, List.append_assoc, List.cons_append,
      List.singleton_append]
    simp only [leadingQuoted, hq]
    rfl
  | false =>
    rw [quoteValue_of_bare h]
    have hb := bare_of_needsQuoting h
    cases value with
    | nil => exact absurd rfl hb.solid.ne_nil
    | cons c value =>
      simp [leadingQuoted, (hb.head c rfl).1]

theorem solid_quoteValue (value : List Char) : Solid (quoteValue value) :=
  (writes_quoteValue value).solid

/-- The name of a relation is read back. -/
theorem readRelation_headerValue (line : Nat) (name : String) :
    readRelation line (' ' :: headerValue name) = .ok name.toList := by
  have hq := leadingQuoted_quoteValue line name.toList []
  rw [List.append_nil] at hq
  unfold readRelation headerValue
  rw [strip_cons_of_blank (by decide), (solid_quoteValue _).strip_eq]
  simp only [hq, bind, Except.bind]
  cases h : needsQuoting name.toList with
  | true => rfl
  | false => simp [quoteValue_of_bare h, pure, Except.pure]

/-- The name of an attribute is split from its type. -/
theorem splitName_headerValue (line : Nat) (name : String) {spec : List Char} (hs : Solid spec) :
    splitName line (' ' :: headerValue name ++ ' ' :: spec) = .ok (name.toList, spec) := by
  have hsolid : Solid (headerValue name ++ ' ' :: spec) := by
    have := (solid_quoteValue name.toList).append (m := [' ']) hs
    rwa [List.append_assoc] at this
  have hq := leadingQuoted_quoteValue line name.toList (' ' :: spec)
  have hspec : strip (' ' :: spec) = spec := by
    rw [strip_cons_of_blank (by decide), hs.strip_eq]
  unfold splitName
  rw [List.cons_append, strip_cons_of_blank (by decide), hsolid.strip_eq]
  unfold headerValue at hsolid ⊢
  simp only [if_neg hsolid.ne_nil, hq, bind, Except.bind, pure, Except.pure]
  cases h : needsQuoting name.toList with
  | true => simp [hspec]
  | false =>
    have hname : ∀ c ∈ name.toList, (!endsName c) = true := by
      intro c hc
      simp [(bare_of_needsQuoting h).name c hc]
    have htake : (name.toList ++ ' ' :: spec).takeWhile (!endsName ·) = name.toList := by
      rw [List.takeWhile_append_of_pos hname]
      simp [endsName]
    have hdrop : (name.toList ++ ' ' :: spec).dropWhile (!endsName ·) = ' ' :: spec := by
      rw [List.dropWhile_append_of_pos hname]
      simp [endsName]
    simp [quoteValue_of_bare h, htake, hdrop, hspec]

/-! ### Types -/

/-- The attribute as its declaration shows it: an empty date format is no date format. -/
def Attribute.shown (a : Attribute) : Attribute :=
  { a with dateFormat := a.dateFormat.filter (· ≠ "") }

/-- A declaration shows everything but an empty date format. -/
theorem Attribute.shown_eq_self_iff {a : Attribute} : a.shown = a ↔ a.dateFormat ≠ some "" := by
  cases a with
  | mk name kind levels format ordered =>
    cases format with
    | none => simp [shown]
    | some f => by_cases hf : f = "" <;> simp [shown, hf]

theorem solid_writeType (a : Attribute) : Solid (writeType a) := by
  have hdate : Solid "date".toList := solid_of_strip_eq (by decide) (by decide)
  unfold writeType
  split
  · refine ⟨by simp, ?_, ?_⟩
    · intro c hc
      have : c = '{' := by simpa [eq_comm] using hc
      subst this
      decide
    · intro c hc
      rw [List.getLast?_concat] at hc
      have : c = '}' := by simpa [eq_comm] using hc
      subst this
      decide
  · split
    · split
      · exact hdate
      · exact hdate.append (m := [' ']) (solid_quoteValue _)
    · exact hdate
  · exact solid_of_strip_eq (by decide) (by decide)
  · exact solid_of_strip_eq (by decide) (by decide)

/-- The levels between the braces are read back. -/
theorem readLevels_joinWith (line : Nat) (levels : List String) :
    readLevels line (joinWith [','] (levels.map headerValue)) =
      .ok (levels.map String.toList) := by
  have hwrites : List.Forall₂ Writes (levels.map headerValue)
      (levels.map fun l => rawOf l.toList) := by
    rw [List.forall₂_map_left_iff, List.forall₂_map_right_iff, List.forall₂_same]
    exact fun l _ => writes_quoteValue l.toList
  unfold readLevels
  by_cases hl : levels = []
  · subst hl
    rfl
  · have hne : levels.map headerValue ≠ [] := by simpa using hl
    have hsolid : Solid (joinWith [','] (levels.map headerValue)) := by
      apply solid_joinWith hne
      intro piece hp
      obtain ⟨l, -, rfl⟩ := List.mem_map.1 hp
      exact solid_quoteValue l.toList
    rw [hsolid.strip_eq, if_neg hsolid.ne_nil, cells, cellsFrom_joinWith hwrites hne]
    simp [Except.map, rawOf]

/-- A set of levels is read back. -/
theorem readNominal_writeType (line : Nat) {a : Attribute} (ha : a.WellFormed)
    (hk : a.kind = .nominal) :
    readNominal line a.name (writeType a) a.ordered = .ok a.shown := by
  have htype : writeType a = '{' :: joinWith [','] (a.levels.map headerValue) ++ ['}'] := by
    unfold writeType
    rw [hk]
  have hlast : (writeType a).getLast? = some '}' := by
    rw [htype, List.getLast?_concat]
  have hinner : (writeType a).tail.dropLast = joinWith [','] (a.levels.map headerValue) := by
    rw [htype]
    simp
  have hnodup : (a.levels.map String.toList).Nodup :=
    ha.levels_nodup.map fun _ _ h => String.toList_inj.1 h
  have hformat : a.dateFormat = none := ha.format_date (by simp [hk])
  have hshown : a.shown = ⟨a.name, .nominal, a.levels, none, a.ordered⟩ := by
    unfold Attribute.shown
    rw [hformat, hk]
    rfl
  unfold readNominal
  simp [hlast, hinner, readLevels_joinWith, bind, Except.bind, hnodup, hshown, pure, Except.pure]

/-- A date type with a format is read back. -/
theorem readSimple_date (line : Nat) (name format : String) :
    readSimple line name ("date ".toList ++ headerValue format) =
      .ok { name, kind := .date, dateFormat := some format } := by
  obtain ⟨tail, htail⟩ :
      ∃ tail, lower ("date ".toList ++ headerValue format) = "date ".toList ++ tail := ⟨_, rfl⟩
  have hnumeric : "date ".toList ++ tail ∉ numericTypes := by
    simp [numericTypes]
  have hstring : "date ".toList ++ tail ≠ "string".toList := by
    simp
  have hword : (splitWord ("date ".toList ++ tail)).1 = "date".toList :=
    splitWord_append "date".toList ' ' tail (by simp; decide) (by decide)
  have hsolid : Solid (headerValue format) := solid_quoteValue _
  have hdrop : strip (("date ".toList ++ headerValue format).drop 4) = headerValue format := by
    show strip (' ' :: headerValue format) = headerValue format
    rw [strip_cons_of_blank (by decide), hsolid.strip_eq]
  have hq := leadingQuoted_quoteValue line format.toList []
  rw [List.append_nil] at hq
  -- neither a numeric type nor the string type begins with the word, so the format is reached
  unfold readSimple
  simp only [htail, if_neg hnumeric, if_neg hstring, if_pos hword, hdrop, if_neg hsolid.ne_nil]
  unfold headerValue
  simp only [hq, bind, Except.bind, pure, Except.pure]
  cases h : needsQuoting format.toList with
  | true => simp
  | false => simp [quoteValue_of_bare h]

/-- A type that is not nominal is read back. -/
theorem readSimple_writeType (line : Nat) {a : Attribute} (ha : a.WellFormed)
    (hk : a.kind ≠ .nominal) : readSimple line a.name (writeType a) = .ok a.shown := by
  obtain ⟨name, kind, levels, format, ordered⟩ := a
  obtain rfl : levels = [] := ha.levels_nominal hk
  obtain rfl : ordered = false := ha.ordered_nominal hk
  cases kind with
  | nominal => exact absurd rfl hk
  | numeric =>
    obtain rfl : format = none := ha.format_date (by simp)
    rfl
  | string =>
    obtain rfl : format = none := ha.format_date (by simp)
    rfl
  | date =>
    cases format with
    | none => rfl
    | some f =>
      by_cases hf : f = ""
      · subst hf
        rfl
      · simp only [writeType, if_neg hf, readSimple_date]
        simp [Attribute.shown, Option.filter, hf]

/-! ### Lines -/

/-- What follows the keyword of a declaration is read as the attribute it shows. -/
theorem readAttribute_writeType (line : Nat) {ordered : List String} {a : Attribute}
    (ha : a.WellFormed) (ho : a.ordered = ordered.contains a.name) :
    readAttribute line ordered (' ' :: headerValue a.name ++ ' ' :: writeType a) =
      .ok a.shown := by
  have hsolid := solid_writeType a
  have hnominal : (writeType a).head? = some '{' ↔ a.kind = .nominal := by
    unfold writeType
    cases hk : a.kind with
    | nominal => simp
    | date => cases a.dateFormat with
      | none => simp
      | some f => by_cases hf : f = "" <;> simp [hf]
    | string => simp
    | numeric => simp
  unfold readAttribute
  rw [splitName_headerValue line a.name hsolid]
  simp only [bind, Except.bind, if_neg hsolid.ne_nil, String.ofList_toList, hnominal, ← ho]
  by_cases hk : a.kind = .nominal
  · rw [if_pos hk]
    exact readNominal_writeType line ha hk
  · rw [if_neg hk, ha.ordered_nominal hk]
    exact readSimple_writeType line ha hk

/-- A keyword line keeps its keyword and its value apart. -/
theorem solid_keyword {keyword value : List Char} (hk : Solid keyword) (hv : Solid value) :
    Solid (keyword ++ ' ' :: value) := by
  have := hk.append (m := [' ']) hv
  rwa [List.append_assoc] at this

theorem writeAttribute_eq (a : Attribute) : writeAttribute a =
    "@attribute".toList ++ ' ' :: (headerValue a.name ++ ' ' :: writeType a) := by
  unfold writeAttribute
  rw [List.append_assoc]
  rfl

theorem solid_declaration (a : Attribute) : Solid (headerValue a.name ++ ' ' :: writeType a) :=
  solid_keyword (solid_quoteValue _) (solid_writeType a)

theorem solid_writeAttribute (a : Attribute) : Solid (writeAttribute a) := by
  rw [writeAttribute_eq]
  exact solid_keyword (solid_of_strip_eq (by decide) (by decide)) (solid_declaration a)

/-- A line is of the kind that its keyword says. -/
theorem lineKind_keyword (keyword : List Char) {value : List Char} (hv : Solid value)
    (hk : ∀ c ∈ '@' :: keyword, isBlank c = false) :
    lineKind ('@' :: keyword ++ ' ' :: value) = lineKind ('@' :: keyword) := by
  have hsolid : Solid ('@' :: keyword) :=
    ⟨by simp, fun c hc => hk c (List.mem_of_head? hc), fun c hc => hk c (List.mem_of_getLast? hc)⟩
  have hword := splitWord_append ('@' :: keyword) ' ' value hk (by decide)
  have halone : (splitWord ('@' :: keyword)).1 = '@' :: keyword := by
    refine List.takeWhile_eq_self_iff.2 fun c hc => ?_
    simp [hk c hc]
  unfold lineKind
  rw [(solid_keyword hsolid hv).strip_eq, hsolid.strip_eq]
  simp only [List.cons_append] at hword ⊢
  rw [hword, halone]

theorem lineKind_relation {value : List Char} (hv : Solid value) :
    lineKind ("@relation".toList ++ ' ' :: value) = .relation := by
  have := lineKind_keyword "relation".toList hv (by simp; decide)
  exact this.trans rfl

theorem lineKind_attribute {value : List Char} (hv : Solid value) :
    lineKind ("@attribute".toList ++ ' ' :: value) = .attribute := by
  have := lineKind_keyword "attribute".toList hv (by simp; decide)
  exact this.trans rfl

theorem lineKind_data : lineKind "@data".toList = .dataMarker := rfl

end DatasetCatalog.Arff
