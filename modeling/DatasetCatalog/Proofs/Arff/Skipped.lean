import DatasetCatalog.Proofs.Arff.Place
import DatasetCatalog.Proofs.Arff.Sections

/-! # Malformed rows left out

  Reading that leaves malformed rows out is reading, without leaving anything out, of the document
  in which every rejected data line is blank. Both readings take the same step on each line that
  is not rejected; on a rejected one the first counts a row and the second passes a blank line. The
  rows behind it are numbered differently then, but a row reads the same at every place.
-/

namespace DatasetCatalog.Arff

open Text

/-! ### Rejected lines -/

/-- The line is a data line, and it is no row below the attributes. The place of the line does
    not matter, so any will do. -/
def rejects (rules : RowRules) (attrs : List Attribute) (line : List Char) : Bool :=
  isRow line && !(readRow rules ⟨0, 0⟩ attrs (strip line)).toOption.isSome

/-- A rejected line becomes a blank one. -/
def blankOut (rules : RowRules) (attrs : List Attribute) (line : List Char) : List Char :=
  if rejects rules attrs line then [] else line

section Lines

variable {rules : RowRules} {attrs : List Attribute} {line : List Char}

/-- A rejected line fails as a row, wherever it stands. -/
theorem readRow_of_rejects (h : rejects rules attrs line = true) (place : RowPlace) :
    lineKind line = .row ∧ ∃ e, readRow rules place attrs (strip line) = .error e := by
  unfold rejects isRow at h
  rw [Bool.and_eq_true, decide_eq_true_eq, Bool.not_eq_true', Option.isSome_eq_false_iff,
    Option.isNone_iff_eq_none, readRow_place rules ⟨0, 0⟩ place] at h
  exact ⟨h.1, toOption_eq_none_iff.1 h.2⟩

/-- A data line that is not rejected is one row, wherever it stands. -/
theorem readRow_of_not_rejects (h : rejects rules attrs line = false)
    (hkind : lineKind line = .row) :
    ∃ row, ∀ place, readRow rules place attrs (strip line) = .ok row := by
  unfold rejects isRow at h
  rw [decide_eq_true hkind, Bool.true_and, Bool.not_eq_false', Option.isSome_iff_exists] at h
  obtain ⟨row, hrow⟩ := h
  refine ⟨row, fun place => ?_⟩
  rw [readRow_place rules ⟨0, 0⟩ place] at hrow
  exact toOption_eq_some_iff.1 hrow

end Lines

/-! ### One line -/

namespace Progress

/-- The progress with more rows left out. -/
def leaveOut (p : Progress) (k : Nat) : Progress := { p with skipped := p.skipped + k }

variable {options : Options} {p q : Progress} {number : Nat} {line : List Char}

theorem step_skip_of_rejects (hp : p.inData = true)
    (h : rejects options.toRowRules p.attributes line = true) :
    p.step { options with badRow := .skip } number line = .ok (p.leaveOut 1) := by
  obtain ⟨hkind, e, he⟩ := readRow_of_rejects h ⟨number, p.rowIndex⟩
  rw [step, if_pos hp, dataStep, hkind]
  simp only [he]
  rfl

/-- A line that is not rejected is the same step for both rules. -/
theorem step_skip_of_not_rejects (hp : p.inData = true)
    (h : rejects options.toRowRules p.attributes line = false) (k : Nat) :
    (p.leaveOut k).step { options with badRow := .skip } number line =
      (p.step { options with badRow := .fail } number line).map (·.leaveOut k) := by
  have hin : (p.leaveOut k).inData = true := hp
  unfold step
  rw [if_pos hp, if_pos hin]
  unfold dataStep
  cases hkind : lineKind line with
  | row =>
    -- the rows have different numbers, but the cells are the same
    obtain ⟨row, hrow⟩ := readRow_of_not_rejects h hkind
    simp only [leaveOut, hrow]
    rfl
  | _ => rfl

/-- Malformed rows do not concern the header. -/
theorem headerStep_badRow (rule : BadRow) :
    p.headerStep { options with badRow := rule } number line = p.headerStep options number line :=
  rfl

/-! ### Runs over lines -/

variable {ls : List (List Char)}

/-- Over the data section, leaving rows out is reading with the rejected lines blank. -/
theorem steps_skip (hp : p.inData = true) (k : Nat) :
    (p.leaveOut k).steps { options with badRow := .skip } number ls =
      (p.steps { options with badRow := .fail } number
        (ls.map (blankOut options.toRowRules p.attributes))).map
        (·.leaveOut (k + (ls.filter (rejects options.toRowRules p.attributes)).length)) := by
  induction ls generalizing p number k with
  | nil => rfl
  | cons line ls ih =>
    rw [List.map_cons, steps, steps]
    cases h : rejects options.toRowRules p.attributes line with
    | true =>
      rw [blankOut, if_pos h, step_blank, List.filter_cons_of_pos h, List.length_cons,
        step_skip_of_rejects (p := p.leaveOut k) hp h]
      show (p.leaveOut (k + 1)).steps _ _ _ = _
      rw [ih hp (k + 1), Nat.add_right_comm, Nat.add_assoc]
      rfl
    | false =>
      rw [blankOut, if_neg (by simp [h]), List.filter_cons_of_neg (by simp [h]),
        step_skip_of_not_rejects hp h]
      cases hstep : p.step { options with badRow := .fail } number line with
      | error e => rfl
      | ok next =>
        have hdata := hstep
        rw [step, if_pos hp] at hdata
        obtain ⟨hsection, hattrs, -⟩ := of_dataStep hdata
        show (next.leaveOut k).steps _ _ _ = _
        rw [ih (hsection.trans hp) k, hattrs]
        rfl

/-- Over the header, malformed rows are of no concern. -/
theorem steps_badRow (hp : p.inData = false) (rule : BadRow) :
    p.steps { options with badRow := rule } number (sections ls).1 =
      p.steps options number (sections ls).1 := by
  induction ls generalizing p number with
  | nil => rfl
  | cons line ls ih =>
    have hstep : p.step { options with badRow := rule } number line =
        p.step options number line := by
      rw [step, step, hp]
      exact headerStep_badRow rule
    by_cases hmark : lineKind line = .dataMarker
    · rw [sections_cons_of_data hmark]
      rw [steps, steps, hstep]
      rfl
    · rw [sections_cons_of_header hmark, steps, steps, hstep]
      cases hnext : p.step options number line with
      | error e => rfl
      | ok next =>
        rw [step, hp] at hnext
        obtain ⟨hdata, -⟩ := of_headerStep hp hnext
        exact ih (hdata.trans (decide_eq_false hmark))

/-- Over a header and a data section, the rule is that of the data section. -/
theorem steps_sections (options : Options) (rule : BadRow) (ls data : List (List Char)) :
    steps { options with badRow := rule } {} 1 ((sections ls).1 ++ data) =
      (steps options {} 1 (sections ls).1).bind fun q =>
        q.steps { options with badRow := rule } (1 + (sections ls).1.length) data := by
  rw [steps_append, steps_badRow rfl]

/-- Reading that leaves nothing out counts nothing left out. -/
theorem skipped_of_steps (h : p.steps { options with badRow := .fail } number ls = .ok q) :
    q.skipped = p.skipped := by
  induction ls generalizing p number with
  | nil =>
    obtain rfl := Except.ok.inj h
    rfl
  | cons line ls ih =>
    rw [steps] at h
    obtain ⟨next, hnext, h⟩ := bind_eq_ok_iff.1 h
    apply (ih h).trans
    unfold step at hnext
    split at hnext
    · obtain ⟨-, rfl⟩ | ⟨-, row, -, rfl⟩ | ⟨-, hskip, -⟩ := dataStep_cases hnext
      · rfl
      · rfl
      · cases hskip
    · next hp => exact (of_headerStep (by simpa using hp) hnext).2.2

/-- Reading that leaves nothing out passes no rejected line. -/
theorem filter_rejects_of_steps (hp : p.inData = true)
    (h : p.steps { options with badRow := .fail } number ls = .ok q) :
    ls.filter (rejects options.toRowRules p.attributes) = [] := by
  induction ls generalizing p number with
  | nil => rfl
  | cons line ls ih =>
    rw [steps] at h
    obtain ⟨next, hnext, h⟩ := bind_eq_ok_iff.1 h
    rw [step, if_pos hp] at hnext
    obtain ⟨hsection, hattrs, -⟩ := of_dataStep hnext
    have hrest := ih (hsection.trans hp) h
    rw [hattrs] at hrest
    rw [List.filter_cons_of_neg, hrest]
    intro hreject
    obtain ⟨hkind, e, he⟩ := readRow_of_rejects hreject ⟨number, p.rowIndex⟩
    obtain ⟨hrow, -⟩ | ⟨-, row, hread, -⟩ | ⟨-, hskip, -⟩ := dataStep_cases hnext
    · simp [isRow, hkind] at hrow
    · rw [he] at hread
      cases hread
    · cases hskip

theorem finish_leaveOut (rule : BadRow) (k : Nat) :
    (p.leaveOut k).finish { options with badRow := rule } =
      (p.finish options).map fun t => { t with skipped := p.skipped + k } := by
  have hundeclared : (p.leaveOut k).undeclared { options with badRow := rule } =
      p.undeclared options := rfl
  unfold finish
  rw [hundeclared]
  cases hp : p.inData with
  | true =>
    rw [show (p.leaveOut k).inData = true from hp]
    cases p.undeclared options <;> rfl
  | false =>
    rw [show (p.leaveOut k).inData = false from hp]
    by_cases hnone : p.attributes = []
    · simp only [leaveOut, hnone]
      rfl
    · simp only [leaveOut, hnone]
      rfl

end Progress

/-! ### Blanking out lines of a text -/

/-- The attributes that a document declares, as far as its header can be read. -/
def declaredIn (options : Options) (text : List Char) : List Attribute :=
  match Progress.steps options {} 1 (sections (lines text)).1 with
  | .ok p => p.attributes
  | .error _ => []

/-- The data lines of a document that are rejected. -/
def rejected (options : Options) (text : List Char) : List (List Char) :=
  (sections (lines text)).2.filter (rejects options.toRowRules (declaredIn options text))

/-- The document with every rejected data line blank. All other lines stay as they are, with their
    carriage returns. -/
def blanked (options : Options) (text : List Char) : List Char :=
  let pieces := sections (splitOn '\n' text)
  joinWith ['\n']
    (pieces.1 ++ pieces.2.map (blankOut options.toRowRules (declaredIn options text)))

theorem sections_map_dropReturn (ls : List (List Char)) :
    sections (ls.map dropReturn) =
      ((sections ls).1.map dropReturn, (sections ls).2.map dropReturn) := by
  fun_induction sections ls with
  | case1 => rfl
  | case2 line rest hmark =>
    rw [List.map_cons, sections_cons_of_data ((lineKind_dropReturn line).trans hmark)]
    rfl
  | case3 line rest hmark ih =>
    rw [List.map_cons, sections_cons_of_header ((lineKind_dropReturn line).trans_ne hmark), ih]
    rfl

theorem rejects_dropReturn (rules : RowRules) (attrs : List Attribute) (line : List Char) :
    rejects rules attrs (dropReturn line) = rejects rules attrs line := by
  unfold rejects isRow
  rw [lineKind_dropReturn, strip_dropReturn]

/-- A line is blanked out with its carriage return. -/
theorem dropReturn_blankOut (rules : RowRules) (attrs : List Attribute) (line : List Char) :
    dropReturn (blankOut rules attrs line) = blankOut rules attrs (dropReturn line) := by
  unfold blankOut
  rw [rejects_dropReturn]
  split
  · rfl
  · rfl

/-- Blanking out changes lines of the data section only. -/
theorem lines_blanked (options : Options) (text : List Char) :
    lines (blanked options text) = (sections (lines text)).1 ++
      (sections (lines text)).2.map (blankOut options.toRowRules (declaredIn options text)) := by
  have hpieces := sections_append (splitOn '\n' text)
  have hfree : ∀ piece ∈ (sections (splitOn '\n' text)).1 ++
      (sections (splitOn '\n' text)).2.map
        (blankOut options.toRowRules (declaredIn options text)), '\n' ∉ piece := by
    intro piece hpiece
    rcases List.mem_append.1 hpiece with hheader | hdata
    · exact notMem_of_mem_splitOn (hpieces ▸ List.mem_append_left _ hheader)
    · obtain ⟨line, hline, rfl⟩ := List.mem_map.1 hdata
      unfold blankOut
      split
      · exact List.not_mem_nil
      · exact notMem_of_mem_splitOn (hpieces ▸ List.mem_append_right _ hline)
  have hne : (sections (splitOn '\n' text)).1 ++ (sections (splitOn '\n' text)).2.map
      (blankOut options.toRowRules (declaredIn options text)) ≠ [] := by
    intro hnil
    apply splitOn_ne_nil '\n' text
    rw [← hpieces]
    simpa using hnil
  unfold blanked
  rw [lines, splitOn_joinWith_last hne hfree, lines, sections_map_dropReturn]
  simp only [List.map_append, List.map_map]
  congr 2
  funext line
  exact dropReturn_blankOut _ _ line

/-- A document without rejected lines stays as it is. -/
theorem blanked_of_rejected_eq_nil {options : Options} {text : List Char}
    (h : rejected options text = []) : blanked options text = text := by
  have hnone : ∀ line ∈ (sections (splitOn '\n' text)).2,
      blankOut options.toRowRules (declaredIn options text) line = line := by
    intro line hline
    have hmem : dropReturn line ∈ (sections (lines text)).2 := by
      rw [lines, sections_map_dropReturn]
      exact List.mem_map_of_mem hline
    have hkept := List.filter_eq_nil_iff.1 h _ hmem
    rw [rejects_dropReturn] at hkept
    exact if_neg hkept
  unfold blanked
  simp only
  rw [List.map_congr_left hnone, List.map_id', sections_append, joinWith_splitOn]

/-! ### Whole documents -/

/-- Reading that leaves malformed rows out, told by reading that leaves nothing out. -/
theorem read_skip (options : Options) (text : List Char) :
    read { options with badRow := .skip } text =
      (read { options with badRow := .fail } (blanked options text)).map fun t =>
        { t with skipped := (rejected options text).length } := by
  have hskip := Progress.steps_sections options .skip (lines text)
    (sections (lines text)).2
  have hfail := Progress.steps_sections options .fail (lines text)
    ((sections (lines text)).2.map (blankOut options.toRowRules (declaredIn options text)))
  rw [sections_append] at hskip
  rw [← lines_blanked] at hfail
  rw [read, read, hskip, hfail]
  clear hskip hfail
  cases hheader : Progress.steps options {} 1 (sections (lines text)).1 with
  -- both readings end with the same fault of the header
  | error e => rfl
  | ok q =>
    have hattrs : declaredIn options text = q.attributes := by
      unfold declaredIn
      rw [hheader]
    obtain ⟨-, hskipped, hend⟩ := Progress.of_steps_header rfl hheader
    unfold rejected
    rw [hattrs]
    simp only [Except.bind]
    generalize 1 + (sections (lines text)).1.length = number
    generalize (sections (lines text)).2 = data at hend ⊢
    have hdata : q.steps { options with badRow := .skip } number data =
        (q.steps { options with badRow := .fail } number
          (data.map (blankOut options.toRowRules q.attributes))).map
          (·.leaveOut (data.filter (rejects options.toRowRules q.attributes)).length) := by
      rcases hend with hin | rfl
      · rw [← Nat.zero_add (List.length _)]
        exact Progress.steps_skip hin 0
      · rfl
    rw [hdata]
    cases hlast : q.steps { options with badRow := .fail } number
        (data.map (blankOut options.toRowRules q.attributes)) with
    | error e => rfl
    | ok last =>
      have hcount : last.skipped = 0 := (Progress.skipped_of_steps hlast).trans hskipped
      show Progress.finish _ (last.leaveOut _) = (last.finish _).map _
      rw [Progress.finish_leaveOut, hcount, Nat.zero_add]
      rfl

/-- A document that is read without leaving anything out has no rejected lines. -/
theorem rejected_of_read {options : Options} {text : List Char} {t : ParsedTable}
    (h : read { options with badRow := .fail } text = .ok t) : rejected options text = [] := by
  have hfail := Progress.steps_sections options .fail (lines text)
    (sections (lines text)).2
  rw [sections_append] at hfail
  rw [read, hfail] at h
  obtain ⟨last, hlast, -⟩ := bind_eq_ok_iff.1 h
  obtain ⟨q, hheader, hdata⟩ := bind_eq_ok_iff.1 hlast
  unfold rejected declaredIn
  rw [hheader]
  obtain ⟨-, -, hin | hnone⟩ := Progress.of_steps_header rfl hheader
  · exact Progress.filter_rejects_of_steps hin hdata
  · rw [hnone]
    rfl

theorem skipped_of_read {options : Options} {text : List Char} {t : ParsedTable}
    (h : read { options with badRow := .fail } text = .ok t) : t.skipped = 0 := by
  obtain ⟨last, hlast, hfinish⟩ := bind_eq_ok_iff.1 h
  obtain ⟨-, -, rfl⟩ := Progress.finish_eq_ok_iff.1 hfinish
  exact Progress.skipped_of_steps hlast

/-- Reading that leaves nothing out is reading that may leave rows out and finds none. -/
theorem read_fail_eq_ok_iff {options : Options} {text : List Char} {t : ParsedTable} :
    read { options with badRow := .fail } text = .ok t ↔
      read { options with badRow := .skip } text = .ok t ∧ t.skipped = 0 := by
  rw [read_skip]
  constructor
  · intro h
    have hnone := rejected_of_read h
    have hskipped := skipped_of_read h
    refine ⟨?_, hskipped⟩
    rw [blanked_of_rejected_eq_nil hnone, h, hnone, List.length_nil, ← hskipped]
    rfl
  · rintro ⟨h, hskipped⟩
    obtain ⟨t', hread, rfl⟩ := map_eq_ok_iff.1 h
    have hnone := List.length_eq_zero_iff.1 hskipped
    rw [blanked_of_rejected_eq_nil hnone] at hread
    rw [hread, hnone, List.length_nil, ← skipped_of_read hread]

/-- **Leaving malformed rows out is filtering.** Reading that leaves them out fails exactly when
    reading the document with all rejected lines blank fails, with the same fault on the same line,
    and otherwise gives the same table with a count of the rejected lines. A document that is
    read without leaving anything out is read the same way under both rules: it has no rejected
    lines. -/
theorem read_skip_eq_read_blanked (options : Options) (text : List Char) :
    (read { options with badRow := .skip } text =
      (read { options with badRow := .fail } (blanked options text)).map fun t =>
        { t with skipped := (rejected options text).length }) ∧
    ∀ t, read { options with badRow := .fail } text = .ok t →
      rejected options text = [] ∧ blanked options text = text ∧
        read { options with badRow := .skip } text = .ok t := by
  refine ⟨read_skip options text, ?_⟩
  intro t h
  have hnone := rejected_of_read h
  have hblanked := blanked_of_rejected_eq_nil hnone
  refine ⟨hnone, hblanked, ?_⟩
  rw [read_skip, hblanked, h, hnone, List.length_nil, ← skipped_of_read h]
  rfl

/-- Of the data lines of this document the second and the fourth are rejected, one for an unknown
    level and one for a position given twice; the others are read as without them. -/
theorem read_skip_two_rejected :
    let options : Options := {}
    let text :=
      "@attribute c \x7ba,b\x7d\n@data\na\r\nz\r\n% z\n\x7b0 b\x7d\n\x7b0 a,0 b\x7d\n".toList
    blanked options text = "@attribute c \x7ba,b\x7d\n@data\na\r\n\n% z\n\x7b0 b\x7d\n\n".toList ∧
    read { options with badRow := .skip } text =
      ((read options (blanked options text)).map fun t => { t with skipped := 2 }) ∧
    ∃ t, read options (blanked options text) = .ok t ∧ t.rows = [[.text "a"], [.text "b"]] ∧
      rejected options (blanked options text) = [] ∧
      read { options with badRow := .skip } (blanked options text) = .ok t := by
  intro options text
  let t : ParsedTable := {
    relation := "",
    attributes := [{ name := "c", kind := .nominal, levels := ["a", "b"] }],
    rows := [[.text "a"], [.text "b"]] }
  have hcount : (rejected options text).length = 2 := by decide +kernel
  have hread : read options (blanked options text) = .ok t := by decide +kernel
  obtain ⟨heq, -⟩ := read_skip_eq_read_blanked options text
  obtain ⟨-, hsame⟩ := read_skip_eq_read_blanked options (blanked options text)
  obtain ⟨hnone, -, hskip⟩ := hsame t hread
  rw [hcount] at heq
  exact ⟨by decide +kernel, heq, t, hread, rfl, hnone, hskip⟩

end DatasetCatalog.Arff
