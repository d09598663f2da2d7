import DatasetCatalog.Proofs.Arff.FirstFault

/-! # Layout

  The layout of a document is what the reader passes over: blank lines, comments, and the white
  space around its lines. A document that is laid out anew reads the same; only the number in an
  error is that of the place to which its line has moved. Lines may as well end with a carriage
  return and a line feed.
-/

namespace DatasetCatalog.Arff

open Text

/-! ### Lines that say nothing -/

/-- A line that is white space only, or whose first character otherwise is a percent sign. -/
structure Passable (line : List Char) : Prop where
  /-- It is one line. -/
  newline : '\n' ∉ line
  /-- It is blank, or a comment. -/
  silent : (∀ c ∈ line, isBlank c = true) ∨ (line.dropWhile isBlank).head? = some '%'

theorem Passable.kind {line : List Char} (h : Passable line) :
    lineKind line = .blank ∨ lineKind line = .comment := by
  unfold lineKind
  rcases h.silent with hblank | hcomment
  · rw [strip_of_forall_blank hblank]
    exact .inl rfl
  · obtain ⟨rest, hrest⟩ := List.head?_eq_some_iff.1 (head?_strip hcomment)
    rw [hrest]
    exact .inr rfl

namespace Progress

variable {options : Options} {p : Progress} {number : Nat} {ls : List (List Char)}

theorem step_passable {line : List Char} (h : Passable line) :
    p.step options number line = .ok p := by
  unfold step dataStep headerStep
  rcases h.kind with hkind | hkind
  all_goals
    rw [hkind]
    split
    all_goals rfl

theorem steps_passable (h : ∀ line ∈ ls, Passable line) : p.steps options number ls = .ok p := by
  induction ls generalizing number with
  | nil => rfl
  | cons line ls ih =>
    rw [steps, step_passable (h line List.mem_cons_self)]
    exact ih fun l hl => h l (List.mem_cons_of_mem line hl)

/-- Lines that differ only in the white space around them are read alike. -/
theorem steps_congr {ls' : List (List Char)}
    (h : List.Forall₂ (fun line line' => strip line' = strip line) ls ls') :
    p.steps options number ls' = p.steps options number ls := by
  induction h generalizing p number with
  | nil => rfl
  | cons hline _ ih =>
    rw [steps, steps, step_congr hline]
    exact congrArg (bind _) (funext fun next => ih)

end Progress

theorem newline_notMem_of_mem_lines {text line : List Char} (h : line ∈ lines text) :
    '\n' ∉ line := by
  obtain ⟨piece, hpiece, rfl⟩ := List.mem_map.1 h
  have hfree := notMem_of_mem_splitOn hpiece
  unfold dropReturn
  split
  · exact fun hmem => hfree (piece.dropLast_subset hmem)
  · exact hfree

/-- A document is read by its lines, with their carriage returns or without. -/
theorem read_eq_steps (options : Options) (text : List Char) :
    read options text =
      Progress.steps options {} 1 (splitOn '\n' text) >>= fun last => last.finish options := by
  have hlines : List.Forall₂ (fun line line' => strip line' = strip line) (splitOn '\n' text)
      (lines text) := by
    unfold lines
    rw [List.forall₂_map_right_iff, List.forall₂_same]
    exact fun line _ => strip_dropReturn line
  unfold read
  rw [Progress.steps_congr hlines]

/-! ### Laying out anew -/

/-- How a document is laid out anew. Positions are counted from zero, and the position behind the
    last line is the end of the document. -/
structure Layout where
  /-- The lines that are put in front of the line at a position. -/
  inserted : Nat → List (List Char)
  /-- The white space that is put in front of the line. -/
  before : Nat → List Char
  /-- The white space that is put behind the line. -/
  after : Nat → List Char
  /-- What is inserted says nothing. -/
  passable : ∀ i, ∀ line ∈ inserted i, Passable line
  /-- What is added to a line is white space and does not break the line. -/
  blank : ∀ i, ∀ c ∈ before i ++ after i, isBlank c = true ∧ c ≠ '\n'

namespace Layout

variable (layout : Layout)

/-- A line with the white space of its position. -/
def pad (i : Nat) (line : List Char) : List Char := layout.before i ++ line ++ layout.after i

/-- The lines from position `i` on, laid out anew. -/
def arrange (i : Nat) : List (List Char) → List (List Char)
  | [] => layout.inserted i
  | line :: rest => layout.inserted i ++ layout.pad i line :: arrange (i + 1) rest

/-- A document, laid out anew. The carriage returns of its lines give way to the new white space,
    which may hold them again. -/
def apply (text : List Char) : List Char := joinWith ['\n'] (layout.arrange 0 (lines text))

/-- The number that a line has after it was laid out anew: it stands behind the line in front of it
    and the lines inserted between the two. Zero stands for no line, before and after. -/
def number : Nat → Nat
  | 0 => 0
  | k + 1 => number k + (layout.inserted k).length + 1

theorem number_succ (k : Nat) :
    layout.number (k + 1) = layout.number k + (layout.inserted k).length + 1 :=
  rfl

theorem strip_pad (i : Nat) (line : List Char) : strip (layout.pad i line) = strip line :=
  strip_surrounded (fun c hc => (layout.blank i c (List.mem_append_left _ hc)).1)
    (fun c hc => (layout.blank i c (List.mem_append_right _ hc)).1) line

/-- Lines stay lines. -/
theorem newline_notMem_arrange {i : Nat} {ls : List (List Char)} (h : ∀ line ∈ ls, '\n' ∉ line) :
    ∀ line ∈ layout.arrange i ls, '\n' ∉ line := by
  have hpad : ∀ j line, '\n' ∉ line → '\n' ∉ layout.pad j line := by
    intro j line hline hmem
    unfold pad at hmem
    rw [List.append_assoc, List.mem_append, List.mem_append] at hmem
    rcases hmem with hmem | hmem | hmem
    · exact (layout.blank j _ (List.mem_append_left _ hmem)).2 rfl
    · exact hline hmem
    · exact (layout.blank j _ (List.mem_append_right _ hmem)).2 rfl
  induction ls generalizing i with
  | nil => exact fun line hline => (layout.passable i line hline).newline
  | cons first ls ih =>
    intro line hline
    rw [arrange, List.mem_append, List.mem_cons] at hline
    rcases hline with hline | rfl | hline
    · exact (layout.passable i line hline).newline
    · exact hpad i first (h first List.mem_cons_self)
    · exact ih (fun l hl => h l (List.mem_cons_of_mem first hl)) line hline

/-- The lines of a document that is laid out anew. -/
theorem splitOn_apply (text : List Char) :
    splitOn '\n' (layout.apply text) = layout.arrange 0 (lines text) := by
  apply splitOn_joinWith_last
  · cases hlines : lines text with
    | nil => exact absurd (List.map_eq_nil_iff.1 hlines) (splitOn_ne_nil '\n' text)
    | cons line rest => simp [arrange]
  · exact layout.newline_notMem_arrange fun line => newline_notMem_of_mem_lines

/-- Every line stands under its new number. -/
theorem exists_getElem?_arrange {ls : List (List Char)} {i k : Nat} {line : List Char}
    (h : ls[k]? = some line) : ∃ j, layout.number i + j + 1 = layout.number (i + k + 1) ∧
      (layout.arrange i ls)[j]? = some (layout.pad (i + k) line) := by
  induction ls generalizing i k with
  | nil => simp at h
  | cons first ls ih =>
    rw [arrange]
    cases k with
    | zero =>
      obtain rfl : first = line := by simpa using h
      exact ⟨(layout.inserted i).length, rfl, by simp⟩
    | succ k =>
      obtain ⟨j, hj, hget⟩ := ih (i := i + 1) (k := k) (by simpa using h)
      rw [Nat.add_right_comm i 1 k] at hj hget
      refine ⟨(layout.inserted i).length + 1 + j, ?_, ?_⟩
      · rw [← Nat.add_assoc i k 1, ← hj, number_succ]
        omega
      · rw [List.getElem?_append_right (by omega)]
        rw [show (layout.inserted i).length + 1 + j - (layout.inserted i).length = j + 1 by omega]
        exact hget

/-- Lines that are laid out anew are read like before, with errors under the new numbers. -/
theorem steps_arrange {options : Options} {p : Progress} (i : Nat) (ls : List (List Char)) :
    p.steps options (layout.number i + 1) (layout.arrange i ls) =
      (p.steps options (i + 1) ls).mapError fun e => { e with line := layout.number e.line } := by
  -- by induction on the lines as they were; the inserted ones in front of each are passed
  induction ls generalizing p i with
  | nil => exact Progress.steps_passable (layout.passable i)
  | cons line ls ih =>
    have hnumber : layout.number i + 1 + (layout.inserted i).length = layout.number (i + 1) := by
      rw [number_succ, Nat.add_right_comm]
    rw [arrange, Progress.steps_append, Progress.steps_passable (layout.passable i), hnumber]
    -- the line takes its old step under its new number
    show p.steps options (layout.number (i + 1)) (layout.pad i line :: _) = _
    rw [Progress.steps, Progress.steps, Progress.step_onLine _ (layout.strip_pad i line)]
    cases hstep : p.step options (i + 1) line with
    | ok next => exact ih (i + 1)
    | error e =>
      have hline := Progress.line_of_step hstep
      show Except.error { e with line := layout.number (i + 1) } = _
      rw [← hline]
      rfl

/-- A document that is laid out anew is read like before. -/
theorem read_apply (options : Options) (text : List Char) :
    read options (layout.apply text) =
      (read options text).mapError fun e => { e with line := layout.number e.line } := by
  -- the new lines may end with carriage returns, the old ones may not
  rw [read_eq_steps, layout.splitOn_apply]
  apply mapError_bind_congr (layout.steps_arrange 0 (lines text))
  intro last
  cases hfinish : last.finish options with
  | ok t => rfl
  | error e =>
    -- an error at the end of the document is on no line, and stays there
    obtain ⟨hline, -⟩ := Progress.atEnd_of_finish hfinish
    show Except.error e = .error { e with line := layout.number e.line }
    rw [hline]
    obtain ⟨_, fault⟩ := e
    obtain rfl := hline
    rfl

end Layout

/-! ### Carriage returns -/

/-- A document whose lines end with a carriage return and a line feed. -/
def withReturns (text : List Char) : List Char :=
  text.flatMap fun c => if c = '\n' then ['\r', '\n'] else [c]

/-- Each line has a carriage return more, or stays as it is. -/
theorem forall₂_splitOn_withReturns (text : List Char) :
    List.Forall₂ (fun line line' => line' = line ∨ line' = line ++ ['\r']) (splitOn '\n' text)
      (splitOn '\n' (withReturns text)) := by
  induction text with
  | nil => exact .cons (.inl rfl) .nil
  | cons c text ih =>
    by_cases hc : c = '\n'
    · subst hc
      exact .cons (.inr rfl) ih
    · have hcons : withReturns (c :: text) = c :: withReturns text := by
        unfold withReturns
        rw [List.flatMap_cons, if_neg hc]
        rfl
      rw [hcons, splitOn, splitOn, if_neg hc, if_neg hc]
      revert ih
      -- the character goes to the first line of both
      cases splitOn '\n' text with
      | nil =>
        intro ih
        rw [List.forall₂_nil_left_iff.1 ih]
        exact .cons (.inl rfl) .nil
      | cons line rest =>
        intro ih
        obtain ⟨line', rest', hline, hrest, hsame⟩ := List.forall₂_cons_left_iff.1 ih
        rw [hsame]
        refine .cons ?_ hrest
        rcases hline with rfl | rfl
        · exact .inl rfl
        · exact .inr rfl

theorem read_withReturns (options : Options) (text : List Char) :
    read options (withReturns text) = read options text := by
  have hlines : List.Forall₂ (fun line line' => strip line' = strip line) (splitOn '\n' text)
      (splitOn '\n' (withReturns text)) := by
    apply (forall₂_splitOn_withReturns text).imp
    rintro line line' (rfl | rfl)
    · rfl
    · exact strip_concat_of_blank line (by decide)
  rw [read_eq_steps, read_eq_steps, Progress.steps_congr hlines]

/-! ### Whole documents -/

/-- **Layout does not matter.** However blank lines and comments are inserted and lines are padded
    with white space, a document reads the same under all rules: it gives the same table with the
    same count of rows left out, or fails for the same reason on the same line, which stands under
    its new number. Carriage returns at the ends of the lines change nothing at all. -/
theorem read_laid_out (options : Options) (text : List Char) :
    (∀ layout : Layout, read options (layout.apply text) =
        (read options text).mapError (fun e => { e with line := layout.number e.line }) ∧
      ∀ k line, (lines text)[k]? = some line →
        (splitOn '\n' (layout.apply text))[layout.number (k + 1) - 1]? =
          some (layout.before k ++ line ++ layout.after k)) ∧
    read options (withReturns text) = read options text := by
  refine ⟨fun layout => ⟨layout.read_apply options text, fun k line hline => ?_⟩,
    read_withReturns options text⟩
  -- lines are numbered from one on, and stand at positions from zero on
  obtain ⟨j, hj, hget⟩ := layout.exists_getElem?_arrange (i := 0) hline
  rw [Nat.zero_add, show layout.number 0 = 0 from rfl, Nat.zero_add] at hj
  rw [layout.splitOn_apply, ← hj, Nat.add_sub_cancel, hget, Nat.zero_add]
  rfl

/-- A comment, two blank lines, an em space, tabs, an information separator and carriage returns are
    added to this document. The row with a value too many moves from its fourth line to the seventh,
    and is the second row there, too. -/
theorem read_laid_out_crowded :
    ∃ layout : Layout,
      let text := "@attribute a numeric\n@data\n1\n2,3\n".toList
      layout.apply text =
        "\x0c% a\n\u2003@attribute a numeric \r\n\n@data\n\t1\r\n \r\n2,3\x1c\n".toList ∧
      (lines text)[3]? = some "2,3".toList ∧
      (splitOn '\n' (layout.apply text))[6]? = some ("2,3".toList ++ ['\x1c']) ∧
      read {} text = .error ⟨4, .cellCount 1 1 2⟩ ∧
      read {} (layout.apply text) = .error ⟨7, .cellCount 1 1 2⟩ ∧
      read {} (withReturns text) = .error ⟨4, .cellCount 1 1 2⟩ := by
  let layout : Layout := {
    inserted := fun
      | 0 => ["\x0c% a".toList]
      | 1 => [[]]
      | 3 => [" \r".toList]
      | _ => []
    before := fun
      | 0 => ['\u2003']
      | 2 => ['\t']
      | _ => []
    after := fun
      | 0 => [' ', '\r']
      | 2 => ['\r']
      | 3 => ['\x1c']
      | _ => []
    passable := by
      intro i line hline
      split at hline
      · obtain rfl := List.mem_singleton.1 hline
        exact ⟨by decide, .inr (by decide)⟩
      · obtain rfl := List.mem_singleton.1 hline
        exact ⟨by decide, .inl (List.all_eq_true.1 (by decide))⟩
      · obtain rfl := List.mem_singleton.1 hline
        exact ⟨by decide, .inl (List.all_eq_true.1 (by decide))⟩
      · simp at hline
    blank := by
      have hlisted : ∀ c ∈ ['\u2003', '\t', ' ', '\r', '\x1c'], isBlank c = true ∧ c ≠ '\n' := by
        simp only [List.forall_mem_cons, List.not_mem_nil, false_imp_iff, implies_true, and_true]
        decide
      intro i c hc
      apply hlisted
      clear hlisted
      split at hc
      all_goals
        split at hc
        all_goals grind }
  let text := "@attribute a numeric\n@data\n1\n2,3\n".toList
  obtain ⟨hlayout, hreturns⟩ := read_laid_out {} text
  obtain ⟨hread, hplace⟩ := hlayout layout
  have hline : (lines text)[3]? = some "2,3".toList := by decide
  have herror : read {} text = .error ⟨4, .cellCount 1 1 2⟩ := by decide +kernel
  rw [herror] at hread hreturns
  exact ⟨layout, by decide, hline, hplace 3 _ hline, herror, hread, hreturns⟩

end DatasetCatalog.Arff
