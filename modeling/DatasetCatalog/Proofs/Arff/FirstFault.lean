import DatasetCatalog.Proofs.Arff.Place
import DatasetCatalog.Proofs.Arff.RoundTrip

/-! # The first line at fault

  The reader takes one line after the other and never looks ahead. An error that names a line is
  therefore the error of the first line that cannot be read: the lines in front of it are read, and
  what stands behind it does not matter. What is missing at the end of a document shows on no line.
-/

namespace DatasetCatalog.Arff

open Text

/-- A fault that shows only when the document ends. -/
def FormatFault.AtEnd : FormatFault → Prop
  | noAttributes | noData | orderedUndeclared _ => True
  | _ => False

/-! ### Runs that fail -/

namespace Progress

variable {options : Options} {p : Progress} {number : Nat} {ls : List (List Char)}
  {e : FormatError}

/-- A run fails at the first line that cannot be read, after all lines in front of it. -/
theorem steps_eq_error_iff : p.steps options number ls = .error e ↔
    ∃ front line back q, ls = front ++ line :: back ∧ p.steps options number front = .ok q ∧
      q.step options (number + front.length) line = .error e := by
  constructor
  -- the first line of the run either fails itself or is one of those in front
  · intro h
    induction ls generalizing p number with
    | nil => cases h
    | cons line ls ih =>
      rw [steps] at h
      obtain hline | ⟨next, hnext, hrest⟩ := bind_eq_error_iff.1 h
      · exact ⟨[], line, ls, p, rfl, rfl, hline⟩
      · obtain ⟨front, bad, back, q, rfl, hfront, hbad⟩ := ih hrest
        refine ⟨line :: front, bad, back, q, rfl, ?_, ?_⟩
        · rw [steps, hnext]
          exact hfront
        · rwa [List.length_cons, ← Nat.add_assoc, Nat.add_right_comm]
  · rintro ⟨front, line, back, q, rfl, hfront, hline⟩
    rw [steps_append, hfront]
    show q.steps options (number + front.length) (line :: back) = _
    rw [steps, hline]
    rfl

/-- What is wrong at the end of a document is wrong on no line. -/
theorem atEnd_of_finish (h : p.finish options = .error e) : e.line = 0 ∧ e.fault.AtEnd := by
  unfold finish at h
  split at h
  · split at h
    · cases h
    · obtain rfl := Except.error.inj h
      exact ⟨rfl, trivial⟩
  · split at h
    all_goals
      obtain rfl := Except.error.inj h
      exact ⟨rfl, trivial⟩

end Progress

/-! ### The first lines of a document -/

/-- The first lines of a document, as a document of their own. -/
def firstLines (k : Nat) (text : List Char) : List Char :=
  joinWith ['\n'] ((splitOn '\n' text).take k)

theorem lines_firstLines {k : Nat} (hk : k ≠ 0) (text : List Char) :
    lines (firstLines k text) = (lines text).take k := by
  have hne : (splitOn '\n' text).take k ≠ [] := by
    rw [Ne, List.take_eq_nil_iff, not_or]
    exact ⟨hk, splitOn_ne_nil '\n' text⟩
  have hfree : ∀ piece ∈ (splitOn '\n' text).take k, '\n' ∉ piece := fun piece hpiece =>
    notMem_of_mem_splitOn (List.mem_of_mem_take hpiece)
  unfold lines firstLines
  rw [splitOn_joinWith_last hne hfree, List.map_take]

variable {options : Options} {text : List Char} {e : FormatError}

/-- An error that names a line is the error of that line, after the lines in front of it. -/
theorem exists_step_of_read (h : read options text = .error e) (hline : e.line ≠ 0) :
    ∃ front line back q, lines text = front ++ line :: back ∧ e.line = front.length + 1 ∧
      Progress.steps options {} 1 front = .ok q ∧
      q.step options (1 + front.length) line = .error e := by
  unfold read at h
  obtain hsteps | ⟨last, -, hfinish⟩ := bind_eq_error_iff.1 h
  · obtain ⟨front, line, back, q, hlines, hfront, hbad⟩ := Progress.steps_eq_error_iff.1 hsteps
    refine ⟨front, line, back, q, hlines, ?_, hfront, hbad⟩
    rw [Progress.line_of_step hbad, Nat.add_comm]
  · exact absurd (Progress.atEnd_of_finish hfinish).1 hline

/-- A document is read up to its end when its lines are. -/
theorem atEnd_of_read {q : Progress} {e' : FormatError}
    (hlines : Progress.steps options {} 1 (lines text) = .ok q)
    (h : read options text = .error e') : e'.line = 0 ∧ e'.fault.AtEnd := by
  unfold read at h
  rw [hlines] at h
  exact Progress.atEnd_of_finish h

/-! ### Whole documents -/

/-- The error is that of the first line that cannot be read. -/
structure FailsFirstAt (options : Options) (text : List Char) (e : FormatError) : Prop where
  /-- The document has the line. -/
  line_le : e.line ≤ (lines text).length
  /-- The lines up to it have the same error as a document of their own. -/
  alone : read options (firstLines e.line text) = .error e
  /-- So has every document that begins with these lines. -/
  begins : ∀ text', (lines text').take e.line = (lines text).take e.line →
    read options text' = .error e
  /-- The lines in front of it are a document, or one that ends too early. -/
  before : ∀ e', read options (firstLines (e.line - 1) text) = .error e' →
    e'.line = 0 ∧ e'.fault.AtEnd

/-- **Errors are reported at the first line at fault.** Whatever the rules are, an error that names
    a line depends on the lines up to that one only, and the lines in front of it are without
    fault. -/
theorem failsFirstAt_of_read (h : read options text = .error e) (hline : e.line ≠ 0) :
    FailsFirstAt options text e := by
  obtain ⟨front, line, back, q, hlines, hnumber, hfront, hbad⟩ := exists_step_of_read h hline
  have htake : (lines text).take e.line = front ++ [line] := by
    rw [hlines, hnumber, List.take_length_add_append]
    rfl
  have hbegins : ∀ text', (lines text').take e.line = (lines text).take e.line →
      read options text' = .error e := by
    intro text' hsame
    have hlines' : lines text' = front ++ line :: (lines text').drop e.line := by
      conv_lhs => rw [← List.take_append_drop e.line (lines text'), hsame, htake]
      rw [List.append_assoc, List.singleton_append]
    have hsteps : Progress.steps options {} 1 (lines text') = .error e :=
      Progress.steps_eq_error_iff.2 ⟨front, line, _, q, hlines', hfront, hbad⟩
    unfold read
    rw [hsteps]
    rfl
  refine ⟨?_, hbegins _ ?_, hbegins, fun e' => ?_⟩
  · rw [hlines, hnumber, List.length_append, List.length_cons]
    omega
  · rw [lines_firstLines hline, List.take_take, Nat.min_self]
  · rw [hnumber, Nat.add_sub_cancel]
    by_cases hnone : front.length = 0
    -- nothing stands in front of the first line, and the empty document is one blank line
    · have hempty : Progress.steps options {} 1 (lines (firstLines 0 text)) = .ok {} := by
        show Progress.steps options {} 1 [[]] = _
        rw [Progress.steps, Progress.step_blank]
        rfl
      rw [hnone]
      exact atEnd_of_read hempty
    · apply atEnd_of_read
      rw [lines_firstLines hnone, hlines, List.take_left]
      exact hfront

/-- The second row of this document has a value too many, in its ninth line; that the third row has
    an undeclared value is not seen. With other lines behind the ninth the error is the same, and
    the lines in front of it are read. -/
theorem failsFirstAt_ninth_line :
    let text :=
      "@relation r\r\n\n@attribute c \x7ba,b\x7d\n% c\n \t@data\r\na\n\n%\na,b\nz\n".toList
    let other :=
      "@relation r\n\n@attribute c \x7ba,b\x7d\n% c\n \t@data\na\n\n%\na,b\r\n@end".toList
    let e : FormatError := ⟨9, .cellCount 1 1 2⟩
    read {} text = .error e ∧ e.line ≠ 0 ∧ FailsFirstAt {} text e ∧
      (lines other).take 9 = (lines text).take 9 ∧ read {} other = .error e ∧
      ∃ t, read {} (firstLines 8 text) = .ok t := by
  intro text other e
  have hread : read {} text = .error e := by decide +kernel
  have hfails := failsFirstAt_of_read hread (by decide)
  have hsame : (lines other).take 9 = (lines text).take 9 := by decide +kernel
  exact ⟨hread, by decide, hfails, hsame, hfails.begins other hsame,
    exists_eq_ok (by decide +kernel)⟩

end DatasetCatalog.Arff
