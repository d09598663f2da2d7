import DatasetCatalog.Arff.Reader
import DatasetCatalog.Proofs.Arff.Header
import DatasetCatalog.Proofs.Arff.Row

/-! # Written documents read back

  A well-formed table is always written, and reading the document gives the table back. The
  reader takes one step per written line: the relation, the declarations one after the other, the
  `@data` line, the rows. Each step adds what its line was written for, so the run over all lines
  rebuilds the table.
-/

namespace DatasetCatalog.Arff

open Text

namespace Progress

variable (options : Options) {p : Progress}

/-! ### One line -/

theorem step_blank (number : Nat) : p.step options number [] = .ok p := by
  have hkind : lineKind [] = .blank := rfl
  unfold step
  split
  · simp [dataStep, hkind]
  · simp [headerStep, hkind, pure, Except.pure]

theorem step_relation (hp : p.inData = false) (number : Nat) (name : String) :
    p.step options number ("@relation ".toList ++ headerValue name) =
      .ok { p with relation := name } := by
  have hsolid : Solid ("@relation".toList ++ ' ' :: headerValue name) :=
    solid_keyword (solid_of_strip_eq (by decide) (by decide)) (solid_quoteValue _)
  have hdrop : (strip ("@relation".toList ++ ' ' :: headerValue name)).drop "@relation".length =
      ' ' :: headerValue name := by
    rw [hsolid.strip_eq]
    rfl
  have hkind : lineKind ("@relation".toList ++ ' ' :: headerValue name) = .relation :=
    lineKind_relation (solid_quoteValue _)
  show p.step options number ("@relation".toList ++ ' ' :: headerValue name) = _
  unfold step headerStep
  simp only [hp, hkind, hdrop, readRelation_headerValue, bind, Except.bind, pure, Except.pure,
    String.ofList_toList]
  rfl

/-- A written declaration adds its attribute, unless the name is declared already. -/
theorem step_attribute (hp : p.inData = false) (number : Nat) {a : Attribute}
    (ha : a.WellFormed) (ho : a.ordered = options.ordered.contains a.name)
    (hnew : a.name ∉ p.attributes.map (·.name)) :
    p.step options number (writeAttribute a) =
      .ok { p with attributes := p.attributes ++ [a.shown] } := by
  have hdrop : (strip (writeAttribute a)).drop "@attribute".length =
      ' ' :: headerValue a.name ++ ' ' :: writeType a := by
    rw [(solid_writeAttribute a).strip_eq, writeAttribute_eq]
    rfl
  have hkind : lineKind (writeAttribute a) = .attribute := by
    rw [writeAttribute_eq]
    exact lineKind_attribute (solid_declaration a)
  have hfresh : p.attributes.any (·.name = a.shown.name) = false := by
    rw [List.any_eq_false]
    intro b hb
    simp only [decide_eq_true_eq]
    exact fun hname => hnew (hname ▸ List.mem_map_of_mem hb)
  unfold step headerStep
  simp only [hp, hkind, hdrop, readAttribute_writeType number ha ho, bind, Except.bind, hfresh,
    Bool.false_eq_true, if_false, pure, Except.pure]

theorem step_data (hp : p.inData = false) (number : Nat) (ha : p.attributes ≠ []) :
    p.step options number "@data".toList = .ok { p with inData := true } := by
  unfold step headerStep
  simp only [hp, lineKind_data, if_neg ha]
  rfl

theorem step_row (hp : p.inData = true) (number : Nat) {line : List Char} {row : List Cell}
    (h : RowLine options.toRowRules p.attributes line row) :
    p.step options number line = .ok { p with rows := row :: p.rows } := by
  unfold step dataStep
  simp only [hp, h.kind, h.solid.strip_eq, h.reads]
  rfl

/-! ### Runs over lines -/

theorem steps_append (number : Nat) (front back : List (List Char)) :
    p.steps options number (front ++ back) =
      (p.steps options number front).bind fun q =>
        q.steps options (number + front.length) back := by
  induction front generalizing p number with
  | nil => rfl
  | cons line front ih =>
    rw [List.cons_append, steps, steps]
    cases h : p.step options number line with
    | error e => rfl
    | ok next =>
      simp only [bind, Except.bind]
      rw [ih, List.length_cons, Nat.add_right_comm, Nat.add_assoc]
      rfl

/-- Written declarations add their attributes in order. -/
theorem steps_attributes (hp : p.inData = false) (number : Nat) {attrs : List Attribute}
    (ha : ∀ a ∈ attrs, a.WellFormed)
    (ho : ∀ a ∈ attrs, a.ordered = options.ordered.contains a.name)
    (hnew : (p.attributes.map (·.name) ++ attrs.map (·.name)).Nodup) :
    p.steps options number (attrs.map writeAttribute) =
      .ok { p with attributes := p.attributes ++ attrs.map Attribute.shown } := by
  induction attrs generalizing p number with
  | nil => simp [steps]
  | cons a attrs ih =>
    -- the names before and behind stay apart when the attribute moves to the front
    have hfresh : a.name ∉ p.attributes.map (·.name) := by
      intro hmem
      exact (List.disjoint_of_nodup_append hnew) hmem (by simp)
    have hstep := step_attribute options hp number (ha a (by simp))
      (ho a (by simp)) hfresh
    have hrest := ih (p := { p with attributes := p.attributes ++ [a.shown] }) hp (number + 1)
      (fun b hb => ha b (by simp [hb])) (fun b hb => ho b (by simp [hb]))
      (by simpa [Attribute.shown] using hnew)
    rw [List.map_cons, steps, hstep]
    simp only [bind, Except.bind]
    rw [hrest]
    simp

/-- Data lines add their rows; the progress holds the last row first. -/
theorem steps_rows (hp : p.inData = true) (number : Nat) {written : List (List Char)}
    {rows : List (List Cell)}
    (h : List.Forall₂ (RowLine options.toRowRules p.attributes) written rows) :
    p.steps options number written = .ok { p with rows := rows.reverse ++ p.rows } := by
  generalize hattrs : p.attributes = attrs at h
  induction h generalizing p number with
  | nil =>
    subst hattrs
    rfl
  | @cons line row written rows hrow _ ih =>
    subst hattrs
    have hrest := ih (p := { p with rows := row :: p.rows }) hp (number + 1) rfl
    rw [steps, step_row options hp number hrow]
    simp only [bind, Except.bind]
    rw [hrest]
    simp

/-- The lines of a header leave the reader in the data section, with everything declared. -/
theorem steps_writeHeader {t : ParsedTable} (hd : t.attributes ≠ []) (hn : t.names.Nodup)
    (ha : ∀ a ∈ t.attributes, a.WellFormed) (ho : t.OrderedBy options.ordered) :
    steps options {} 1 (writeHeader t) =
      .ok { relation := t.relation, attributes := t.attributes.map Attribute.shown,
            inData := true } := by
  have hattrs (number : Nat) := steps_attributes options
    (p := { relation := t.relation }) rfl number ha ho.ordered_eq (by simpa [ParsedTable.names] using hn)
  have hdata (number : Nat) := step_data options
    (p := { relation := t.relation, attributes := t.attributes.map Attribute.shown }) rfl number
    (by simpa using hd)
  -- the relation, a blank line, the declarations, a blank line, the data marker
  unfold writeHeader
  rw [List.cons_append, steps, step_relation options rfl]
  simp only [bind, Except.bind]
  rw [List.cons_append, steps, step_blank]
  simp only [bind, Except.bind]
  rw [steps_append, hattrs]
  simp only [Except.bind, List.nil_append]
  rw [steps, step_blank]
  simp only [bind, Except.bind]
  rw [steps, hdata]
  rfl

end Progress

/-! ### Whole documents -/

/-- The lines of a written document are those that were joined, and an empty one at the end. -/
theorem lines_joinWith {written : List (List Char)} (hne : written ≠ [])
    (h : ∀ line ∈ written, '\n' ∉ line ∧ (line = [] ∨ Solid line)) :
    lines (joinWith ['\n'] written ++ ['\n']) = written ++ [[]] := by
  have hreturn : ∀ line ∈ written, dropReturn line = line := by
    intro line hline
    rcases (h line hline).2 with rfl | hsolid
    · rfl
    · exact dropReturn_of_solid hsolid
  unfold lines
  rw [splitOn_joinWith hne fun line hline => (h line hline).1]
  rw [List.map_append, List.map_congr_left hreturn]
  simp [splitOn, dropReturn]

theorem newline_notMem_headerValue (s : String) : '\n' ∉ headerValue s :=
  (writes_quoteValue s.toList).newline

theorem newline_notMem_writeType (a : Attribute) : '\n' ∉ writeType a := by
  have hlevels : '\n' ∉ joinWith [','] (a.levels.map headerValue) := by
    intro hmem
    rcases mem_joinWith hmem with hsep | ⟨piece, hpiece, hc⟩
    · exact absurd hsep (by decide)
    · obtain ⟨level, -, rfl⟩ := List.mem_map.1 hpiece
      exact newline_notMem_headerValue level hc
  unfold writeType
  split
  · simpa using hlevels
  · split
    · next format _ =>
      split
      · decide
      · simpa using newline_notMem_headerValue format
    · decide
  · decide
  · decide

/-- A header line is one line, and stripping changes nothing. -/
theorem forall_mem_writeHeader (t : ParsedTable) :
    ∀ line ∈ writeHeader t, '\n' ∉ line ∧ (line = [] ∨ Solid line) := by
  intro line hline
  simp only [writeHeader, List.mem_append, List.mem_cons, List.mem_map, List.not_mem_nil,
    or_false] at hline
  rcases hline with (rfl | rfl | ⟨a, -, rfl⟩) | rfl | rfl
  · have hkeyword : Solid "@relation".toList := solid_of_strip_eq (by decide) (by decide)
    refine ⟨by simpa using newline_notMem_headerValue t.relation, .inr ?_⟩
    exact solid_keyword hkeyword (solid_quoteValue _)
  · exact ⟨by decide, .inl rfl⟩
  · refine ⟨?_, .inr (solid_writeAttribute a)⟩
    rw [writeAttribute_eq]
    simp only [List.mem_append, List.mem_cons, not_or]
    exact ⟨by decide, by decide, newline_notMem_headerValue a.name, by decide,
      newline_notMem_writeType a⟩
  · exact ⟨by decide, .inl rfl⟩
  · exact ⟨by decide, .inr (solid_of_strip_eq (by decide) (by decide))⟩

/-- A cell below an attribute fits the attribute as it is shown. -/
theorem fits_shown {strict : Bool} {attrs : List Attribute} {row : List Cell}
    (h : List.Forall₂ (Cell.Fits strict) attrs row) :
    List.Forall₂ (Cell.Fits strict) (attrs.map Attribute.shown) row := by
  rw [List.forall₂_map_left_iff]
  exact h.imp fun a c hc => by cases c <;> exact hc

/-- **Every well-formed table is written and read back**, up to empty date formats. The reader
    is told the marker of the writer and the names of the ordered attributes. -/
theorem exists_write_read_shown {t : ParsedTable} (ht : t.WellFormed true) (options : Options)
    (ho : t.OrderedBy options.ordered) (hm : Bare options.missingMarker.toList) :
    ∃ text, write t options.missingMarker = .ok text ∧
      read options text =
        .ok { t with attributes := t.attributes.map Attribute.shown, skipped := 0 } := by
  have hfits : ∀ row ∈ t.rows, List.Forall₂ (Cell.Fits true) (t.attributes.map Attribute.shown) row :=
    fun row hrow => fits_shown (ht.rows row hrow)
  obtain ⟨written, hwritten, hrows⟩ :=
    exists_writeRows options.toRowRules hm (by simpa using ht.declared) hfits 0
  refine ⟨joinWith ['\n'] (writeHeader t ++ written) ++ ['\n'], ?_, ?_⟩
  · unfold write
    rw [hwritten]
    rfl
  · have hlines : ∀ line ∈ writeHeader t ++ written, '\n' ∉ line ∧ (line = [] ∨ Solid line) := by
      intro line hline
      rcases List.mem_append.1 hline with hheader | hrow
      · exact forall_mem_writeHeader t line hheader
      · obtain ⟨row, -, hline⟩ := exists_of_mem_forall₂ hrows hrow
        exact ⟨hline.newline, .inr hline.solid⟩
    have hheader := Progress.steps_writeHeader options ht.declared ht.names_nodup ht.attributes ho
    have hdata (number : Nat) := Progress.steps_rows options
      (p := ⟨t.relation, t.attributes.map Attribute.shown, true, [], 0⟩) rfl number hrows
    have hend (number : Nat) (rows : List (List Cell)) := Progress.step_blank options
      (p := ⟨t.relation, t.attributes.map Attribute.shown, true, rows, 0⟩) number
    have hnames : (t.attributes.map Attribute.shown).map (·.name) = t.names := by
      rw [List.map_map]
      rfl
    have hundeclared : options.ordered.filter (· ∉ t.names) = [] := by
      rw [List.filter_eq_nil_iff]
      intro name hname
      simpa using ho.declared name hname
    -- three runs one after the other: the header, the rows, the empty last line
    unfold read
    rw [lines_joinWith (by simp [writeHeader]) hlines, Progress.steps_append,
      Progress.steps_append, hheader]
    simp only [Except.bind, hdata, bind, Progress.steps, hend]
    unfold Progress.finish Progress.undeclared
    simp only [if_true, hnames, hundeclared]
    simp

theorem map_shown_eq_self_iff {attrs : List Attribute} :
    attrs.map Attribute.shown = attrs ↔ ∀ a ∈ attrs, a.dateFormat ≠ some "" := by
  constructor
  · intro h a ha
    have hshown : ∀ b ∈ attrs, b.shown = id b := List.map_inj_left.1 (h.trans (List.map_id _).symm)
    exact Attribute.shown_eq_self_iff.1 (hshown a ha)
  · intro h
    rw [List.map_congr_left fun a ha => Attribute.shown_eq_self_iff.2 (h a ha), List.map_id']

/-- **Writing and reading are inverse on well-formed tables.** Names, levels, formats and cells
    may be any texts, as long as no date format is empty; the marker for missing cells is a text
    that needs no quotes, or the question mark. -/
theorem read_write {t : ParsedTable} (ht : t.WellFormed true)
    (hd : ∀ a ∈ t.attributes, a.dateFormat ≠ some "") {marker : String}
    (hm : marker = "?" ∨ needsQuoting marker.toList = false) :
    ∃ text, write t marker = .ok text ∧
      read { missingMarker := marker, ordered := t.orderedNames } text =
        .ok { t with skipped := 0 } := by
  have hbare : Bare marker.toList := by
    rcases hm with rfl | hplain
    · exact bare_questionMark
    · exact bare_of_needsQuoting hplain
  obtain ⟨text, hwrite, hread⟩ := exists_write_read_shown ht
    { missingMarker := marker, ordered := t.orderedNames }
    (ParsedTable.orderedBy_orderedNames ht.names_nodup) hbare
  rw [map_shown_eq_self_iff.2 hd] at hread
  exact ⟨text, hwrite, hread⟩

/-- A level that looks like the marker, a quote in a name and a missing cell. -/
theorem read_write_marker_level :
    let t : ParsedTable := ⟨"a b", [⟨"it's", .nominal, ["?", "x,y"], none, true⟩],
      [[.text "?"], [.missing]], 0⟩
    ∃ text, write t "?" = .ok text ∧
      read { missingMarker := "?", ordered := ["it's"] } text = .ok t := by
  intro t
  have ht : t.WellFormed true := by
    refine ⟨by simp [t], by simp [t, ParsedTable.names], ?_, ?_⟩
    · intro a ha
      obtain rfl := List.mem_singleton.1 ha
      exact ⟨by simp, by simp, by simp, by simp⟩
    · simp [t, Cell.Fits]
  exact read_write ht (by simp [t]) (.inl rfl)

end DatasetCatalog.Arff
