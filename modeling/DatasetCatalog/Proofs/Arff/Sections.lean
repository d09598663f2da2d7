import DatasetCatalog.Proofs.Arff.Accepted

/-! # The two sections of a document

  The first `@data` line ends the header, and every line behind it belongs to the data section.
  The reader keeps to this division: while it reads the header it neither enters the data section
  nor counts a row, and behind the `@data` line each data line is counted once, as a row or as a
  row left out. What a document reads as therefore accounts for all of its data lines.
-/

namespace DatasetCatalog.Arff

open Text

/-! ### Lines -/

/-- The line is a data line. -/
def isRow (line : List Char) : Bool := decide (lineKind line = .row)

/-- The lines up to the first `@data` line and with it, and the lines behind it. -/
def sections : List (List Char) → List (List Char) × List (List Char)
  | [] => ([], [])
  | line :: rest =>
    if lineKind line = .dataMarker then ([line], rest)
    else (line :: (sections rest).1, (sections rest).2)

/-- The data lines of a document: those behind the `@data` line. -/
def dataLines (text : List Char) : List (List Char) := (sections (lines text)).2.filter isRow

theorem sections_cons_of_data {line : List Char} (h : lineKind line = .dataMarker)
    (rest : List (List Char)) : sections (line :: rest) = ([line], rest) := by
  rw [sections, if_pos h]

theorem sections_cons_of_header {line : List Char} (h : lineKind line ≠ .dataMarker)
    (rest : List (List Char)) :
    sections (line :: rest) = (line :: (sections rest).1, (sections rest).2) := by
  rw [sections, if_neg h]

/-- Every line stands in one of the sections. -/
theorem sections_append (ls : List (List Char)) : (sections ls).1 ++ (sections ls).2 = ls := by
  fun_induction sections ls with
  | case1 => rfl
  | case2 line rest _ => rfl
  | case3 line rest _ ih => rw [List.cons_append, ih]

/-! ### One line -/

namespace Progress

variable {options : Options} {p q : Progress} {number : Nat} {line : List Char}

/-- What a header line leaves as it is: it adds no row and leaves none out, and only `@data` ends
    the header. -/
theorem of_headerStep (hp : p.inData = false) (h : p.headerStep options number line = .ok q) :
    q.inData = decide (lineKind line = .dataMarker) ∧ q.rows = p.rows ∧
      q.skipped = p.skipped := by
  unfold headerStep at h
  simp only at h
  split at h
  · next hkind =>
    obtain rfl := Except.ok.inj h
    simp [hkind, hp]
  · next hkind =>
    obtain rfl := Except.ok.inj h
    simp [hkind, hp]
  · next hkind =>
    obtain ⟨name, -, h⟩ := bind_eq_ok_iff.1 h
    obtain rfl := Except.ok.inj h
    simp [hkind, hp]
  · next hkind =>
    obtain ⟨a, -, h⟩ := bind_eq_ok_iff.1 h
    split at h
    · simp at h
    · obtain rfl := Except.ok.inj h
      simp [hkind, hp]
  · next hkind =>
    split at h
    · simp at h
    · obtain rfl := Except.ok.inj h
      simp [hkind]
  · simp at h
  · split at h
    all_goals simp at h

/-- All that a line of the data section can do: it is passed, it adds its row, or its row is
    malformed and left out. -/
theorem dataStep_cases (h : p.dataStep options number line = .ok q) :
    (isRow line = false ∧ q = p) ∨
    (isRow line = true ∧ ∃ row,
      readRow options.toRowRules ⟨number, p.rowIndex⟩ p.attributes (strip line) = .ok row ∧
        q = { p with rows := row :: p.rows }) ∨
    (isRow line = true ∧ options.badRow = .skip ∧ q = { p with skipped := p.skipped + 1 }) := by
  unfold dataStep at h
  split at h
  · next hkind => exact .inl ⟨by simp [isRow, hkind], (Except.ok.inj h).symm⟩
  · next hkind => exact .inl ⟨by simp [isRow, hkind], (Except.ok.inj h).symm⟩
  · next hkind =>
    have hrow : isRow line = true := by simp [isRow, hkind]
    split at h
    · next row hread => exact .inr (.inl ⟨hrow, row, hread, (Except.ok.inj h).symm⟩)
    · split at h
      · simp at h
      · next hskip => exact .inr (.inr ⟨hrow, hskip, (Except.ok.inj h).symm⟩)
  · simp at h

/-- What a line of the data section leaves as it is: the declarations and the section. A data line
    is counted, whether its row is kept or left out. -/
theorem of_dataStep (h : p.dataStep options number line = .ok q) :
    q.inData = p.inData ∧ q.attributes = p.attributes ∧
      q.rowIndex = p.rowIndex + (isRow line).toNat := by
  obtain ⟨hrow, rfl⟩ | ⟨hrow, row, -, rfl⟩ | ⟨hrow, -, rfl⟩ := dataStep_cases h
  · simp [hrow]
  · simp [hrow, rowIndex]
    omega
  · simp [hrow, rowIndex]
    omega

/-! ### Runs over lines -/

variable {ls : List (List Char)}

/-- The data section ends where the document ends, and all of its data lines are counted. -/
theorem of_steps_data (hp : p.inData = true) (h : p.steps options number ls = .ok q) :
    q.inData = true ∧ q.attributes = p.attributes ∧
      q.rowIndex = p.rowIndex + (ls.filter isRow).length := by
  induction ls generalizing p number with
  | nil =>
    obtain rfl := Except.ok.inj h
    exact ⟨hp, rfl, rfl⟩
  | cons line ls ih =>
    rw [steps] at h
    obtain ⟨next, hnext, h⟩ := bind_eq_ok_iff.1 h
    rw [step, if_pos hp] at hnext
    obtain ⟨hsection, hattrs, hcount⟩ := of_dataStep hnext
    obtain ⟨hdata, hattrs', hcount'⟩ := ih (hsection.trans hp) h
    refine ⟨hdata, hattrs'.trans hattrs, ?_⟩
    have hlen : ((line :: ls).filter isRow).length =
        (isRow line).toNat + (ls.filter isRow).length := by
      cases hrow : isRow line with
      | true => simp [hrow, Nat.add_comm]
      | false => simp [hrow]
    rw [hcount', hcount, hlen, Nat.add_assoc]

/-- The lines of the header, up to `@data`, add no row and leave none out. -/
theorem of_steps_header (hp : p.inData = false)
    (h : p.steps options number (sections ls).1 = .ok q) :
    q.rows = p.rows ∧ q.skipped = p.skipped ∧ (q.inData = true ∨ (sections ls).2 = []) := by
  induction ls generalizing p number with
  | nil =>
    obtain rfl := Except.ok.inj h
    exact ⟨rfl, rfl, .inr rfl⟩
  | cons line ls ih =>
    by_cases hmark : lineKind line = .dataMarker
    -- the marker is the last line of the header
    · rw [sections_cons_of_data hmark] at h ⊢
      rw [steps] at h
      obtain ⟨next, hnext, h⟩ := bind_eq_ok_iff.1 h
      obtain rfl := Except.ok.inj h
      rw [step, hp] at hnext
      obtain ⟨hdata, hrows, hskipped⟩ := of_headerStep hp hnext
      exact ⟨hrows, hskipped, .inl (hdata.trans (decide_eq_true hmark))⟩
    · rw [sections_cons_of_header hmark] at h ⊢
      rw [steps] at h
      obtain ⟨next, hnext, h⟩ := bind_eq_ok_iff.1 h
      rw [step, hp] at hnext
      obtain ⟨hdata, hrows, hskipped⟩ := of_headerStep hp hnext
      obtain ⟨hrows', hskipped', hend⟩ := ih (hdata.trans (decide_eq_false hmark)) h
      exact ⟨hrows'.trans hrows, hskipped'.trans hskipped, hend⟩

/-- A run over a whole document counts the data lines behind `@data`. -/
theorem rowIndex_of_steps (hp : p.inData = false) (h : p.steps options number ls = .ok q) :
    q.rowIndex = p.rowIndex + ((sections ls).2.filter isRow).length := by
  rw [← sections_append ls, steps_append] at h
  obtain ⟨middle, hheader, hdata⟩ := bind_eq_ok_iff.1 h
  obtain ⟨hrows, hskipped, hend⟩ := of_steps_header hp hheader
  have hcount : middle.rowIndex = p.rowIndex := by rw [rowIndex, hrows, hskipped, rowIndex]
  rcases hend with hin | hnone
  · obtain ⟨-, -, hcount'⟩ := of_steps_data hin hdata
    rw [hcount', hcount]
  · rw [hnone] at hdata ⊢
    obtain rfl := Except.ok.inj hdata
    exact hcount

/-- Reading ends in the data section, with all names declared that were to be ordered, and the table
    holds what the last progress holds. -/
theorem finish_eq_ok_iff {t : ParsedTable} : p.finish options = .ok t ↔
    p.inData = true ∧ p.undeclared options = [] ∧
      t = ⟨p.relation, p.attributes, p.rows.reverse, p.skipped⟩ := by
  unfold finish
  cases hp : p.inData with
  | true =>
    cases hundeclared : p.undeclared options with
    | nil => simp [eq_comm]
    | cons name names => simp
  | false => by_cases hnone : p.attributes = [] <;> simp [hnone]

end Progress

/-! ### Whole documents -/

/-- What a document that is read comes to: a well-formed table that orders the attributes it was
    told to order, and accounts for every data line. -/
structure ParsedTable.Accounts (options : Options) (text : List Char) (t : ParsedTable) : Prop where
  /-- Declarations and cells fit together. -/
  wellFormed : t.WellFormed options.strict
  /-- The attributes that were named are ordered, and no others. -/
  orderedBy : t.OrderedBy options.ordered
  /-- Every data line is a row or was left out. -/
  counted : t.rows.length + t.skipped = (dataLines text).length

theorem accounts_of_read {options : Options} {text : List Char} {t : ParsedTable}
    (h : read options text = .ok t) : t.Accounts options text := by
  obtain ⟨hwf, hord⟩ := wellFormed_of_read h
  refine ⟨hwf, hord, ?_⟩
  unfold read at h
  obtain ⟨last, hlast, h⟩ := bind_eq_ok_iff.1 h
  have hcount : last.rowIndex = ((sections (lines text)).2.filter isRow).length := by
    have h' := Progress.rowIndex_of_steps rfl hlast
    rwa [show Progress.rowIndex {} = 0 from rfl, Nat.zero_add] at h'
  obtain ⟨-, -, rfl⟩ := Progress.finish_eq_ok_iff.1 h
  rw [List.length_reverse]
  exact hcount

/-- **Every table that reading gives is sound**, for texts and for bytes, under all rules: it is
    well formed, ordered as it was told, and accounts for all data lines. Reading gives a table or a
    format error; only the name of a rule for malformed rows can be wrong besides, and it is wrong
    exactly when it is neither `raise` nor `skip`. -/
theorem accounts_of_parse (options : Options) :
    (∀ text t, read options text = .ok t → t.Accounts options text) ∧
    (∀ bytes t, readBytes options bytes = .ok t →
      ∃ text, String.fromUTF8? (dropByteOrderMark bytes) = some text ∧
        t.Accounts options text.toList) ∧
    ∀ rule, BadRow.ofName? rule = none ↔ rule ≠ "raise" ∧ rule ≠ "skip" := by
  refine ⟨fun text t => accounts_of_read, ?_, ?_⟩
  · intro bytes t h
    unfold readBytes at h
    split at h
    · simp at h
    · next text htext => exact ⟨text, htext, accounts_of_read h⟩
  · intro rule
    unfold BadRow.ofName?
    split_ifs
    all_goals simp_all

/-- Of the four data lines of this document one is left out, as it has a value too many. An unknown
    level, a sparse row and a missing cell are kept; a byte order mark changes nothing. -/
theorem accounts_of_odd_document :
    let options : Options := { strict := false, ordered := ["c"], badRow := .skip }
    let text := "@attribute x numeric\n@attribute c \x7ba,b\x7d\n@data\n" ++
      "1,z\n\n\x7b0 '2,5'\x7d\n1,2,3\n?,'b'\n"
    let bytes := ("\uFEFF" ++ text).toByteArray
    ∃ t, read options text.toList = .ok t ∧ readBytes options bytes = .ok t ∧
      t.rows = [[.text "1", .unknownLevel], [.text "2,5", .text "a"], [.missing, .text "b"]] ∧
      t.skipped = 1 ∧ t.Accounts options text.toList ∧
      ∃ decoded, String.fromUTF8? (dropByteOrderMark bytes) = some decoded ∧
        t.Accounts options decoded.toList := by
  intro options text bytes
  let t : ParsedTable := {
    relation := "",
    attributes := [{ name := "x", kind := .numeric },
      { name := "c", kind := .nominal, levels := ["a", "b"], ordered := true }],
    rows := [[.text "1", .unknownLevel], [.text "2,5", .text "a"], [.missing, .text "b"]],
    skipped := 1 }
  have hread : read options text.toList = .ok t := by decide +kernel
  have hreadBytes : readBytes options bytes = .ok t := by decide +kernel
  obtain ⟨htext, hbytes, -⟩ := accounts_of_parse options
  exact ⟨t, hread, hreadBytes, rfl, rfl, htext _ t hread, hbytes _ t hreadBytes⟩

end DatasetCatalog.Arff
