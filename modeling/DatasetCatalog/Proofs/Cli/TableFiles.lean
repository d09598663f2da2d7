import DatasetCatalog.Cli.Run
import DatasetCatalog.Proofs.Descent

/-! # Table files

  The paths that a table can be written to, by the ends of their names, and the file operations
  that make no such file: directories, removals, and writes of files that end otherwise.
-/

namespace DatasetCatalog

/-! ### Paths of tables -/

/-- A table can be written to the path: its end is the one of an output format. -/
def Path.IsTable (p : Path) : Prop := ∃ format, Cli.OutputFormat.ofPath? p = some format

/-- The end of a name from its last dot on, when there is an end at all. -/
theorem Path.suffix_eq_or {p : Path} {front ending : List Char}
    (hname : p.name.toList = front ++ '.' :: ending) (hending : '.' ∉ ending) :
    p.suffix = "" ∨ p.suffix = String.ofList ('.' :: ending) := by
  have hreverse : p.name.toList.reverse = ending.reverse ++ '.' :: front.reverse := by
    rw [hname]
    simp
  have hall : ∀ c ∈ ending.reverse, (c != '.') = true := by
    intro c hc
    refine bne_iff_ne.2 ?_
    rintro rfl
    exact hending (List.mem_reverse.1 hc)
  have htake : p.name.toList.reverse.takeWhile (· != '.') = ending.reverse := by
    rw [hreverse, List.takeWhile_append_of_pos hall]
    simp
  unfold suffix
  simp only [htake, List.reverse_reverse]
  split
  · exact .inr rfl
  · exact .inl rfl

/-- The ends of table files. -/
theorem Path.IsTable.suffix_mem {p : Path} (h : p.IsTable) :
    String.ofList (Text.lower p.suffix.toList) ∈ [".csv", ".parquet"] := by
  obtain ⟨format, hformat⟩ := h
  unfold Cli.OutputFormat.ofPath? at hformat
  by_cases hcsv : String.ofList (Text.lower p.suffix.toList) = ".csv"
  · simp [hcsv]
  · simp only [if_neg hcsv] at hformat
    by_cases hparquet : String.ofList (Text.lower p.suffix.toList) = ".parquet"
    · simp [hparquet]
    · rw [if_neg hparquet] at hformat
      exact absurd hformat nofun

theorem Path.IsTable.congr {p q : Path} (h : p.IsTable) (hname : p.name = q.name) :
    q.IsTable := by
  obtain ⟨format, hformat⟩ := h
  have hsuffix : p.suffix = q.suffix := by
    unfold suffix
    rw [hname]
  have hsame : Cli.OutputFormat.ofPath? p = Cli.OutputFormat.ofPath? q := by
    unfold Cli.OutputFormat.ofPath?
    rw [hsuffix]
  exact ⟨format, hsame.symm.trans hformat⟩

/-- A name without an end is no name of a table. -/
theorem Path.not_isTable_of_suffix {p : Path} (h : p.suffix = "") : ¬p.IsTable := by
  intro htable
  have hend := htable.suffix_mem
  rw [h] at hend
  revert hend
  decide

/-- The files that a cache writes end otherwise than tables. -/
theorem Path.not_isTable_of_name {p : Path} {front ending : String}
    (hname : p.name = front ++ "." ++ ending) (hending : ending ∈ ["arff", "json", "part"]) :
    ¬p.IsTable := by
  have hother : ∀ ending ∈ ["arff", "json", "part"], '.' ∉ ending.toList ∧
      String.ofList (Text.lower (String.ofList ('.' :: ending.toList)).toList) ∉
        [".csv", ".parquet"] := by
    decide +kernel
  obtain ⟨hdot, hlower⟩ := hother ending hending
  have hchars : p.name.toList = front.toList ++ '.' :: ending.toList := by
    rw [hname]
    simp
  rcases Path.suffix_eq_or hchars hdot with hsuffix | hsuffix
  · exact Path.not_isTable_of_suffix hsuffix
  · intro htable
    have hend := htable.suffix_mem
    rw [hsuffix] at hend
    exact hlower hend

theorem Path.IsTable.resolved {p : Path} (h : p.IsTable) : p.resolved.IsTable := by
  obtain ⟨slashes, names⟩ := p
  obtain rfl | ⟨above, last, rfl⟩ := List.eq_nil_or_concat names
  · exact absurd h (Path.not_isTable_of_suffix rfl)
  · rw [List.concat_eq_append] at *
    have hname : (⟨slashes, above ++ [last]⟩ : Path).name = last := by simp [Path.name]
    by_cases hup : last = ".."
    · refine absurd h (Path.not_isTable_of_suffix ?_)
      unfold Path.suffix
      rw [hname, hup]
      decide
    · refine h.congr ?_
      rw [Path.resolved_append slashes above hup, hname]
      simp [Path.inside, Path.name]

/-! ### Disks -/

/-- No table file has come to be: one that is there was there before, with the same bytes. -/
def Disk.NoNewTable (d d' : Disk) : Prop :=
  ∀ (p : Path) bytes, p.IsTable → d'.node? p.resolved = some (.file bytes) →
    d.node? p.resolved = some (.file bytes)

instance : Std.Refl Disk.NoNewTable := ⟨fun _ _ _ _ h => h⟩

instance : IsTrans Disk Disk.NoNewTable :=
  ⟨fun _ _ _ h h' p bytes hp hfile => h p bytes hp (h' p bytes hp hfile)⟩

namespace Disk

variable {d d' : Disk} {p q : Path} {name other : String} {bytes : ByteArray}

/-- Nothing that is put elsewhere makes a table. -/
theorem noNewTable_put {node : Node} (h : ∀ bytes, node = .file bytes → ¬p.resolved.IsTable) :
    NoNewTable d (d.put p node) := by
  intro q bytes hq hfile
  by_cases hplace : q.resolved = p.resolved
  · have hfound : node = .file bytes := by
      rw [hplace] at hfile
      unfold node? put at hfile
      rw [lookup_setNode, if_pos rfl] at hfile
      split at hfile
      · exact absurd hfile (by simp)
      · exact Option.some.inj hfile
    refine absurd hq.resolved ?_
    rw [hplace]
    exact h bytes hfound
  · rwa [node?_put hplace] at hfile

theorem noNewTable_erase (p : Path) : NoNewTable d (d.erase p) := by
  intro q bytes hq hfile
  by_cases hplace : q.resolved = p.resolved
  · rw [hplace] at hfile
    unfold node? erase at hfile
    rw [lookup_filter_ne, if_pos rfl] at hfile
    split at hfile
    · exact absurd hfile (by simp)
    · exact absurd hfile nofun
  · rwa [node?_erase hplace] at hfile

theorem noNewTable_makeDirectory (h : d.makeDirectory p = .ok d') : NoNewTable d d' := by
  obtain ⟨-, -, rfl⟩ := makeDirectory_eq_ok h
  exact noNewTable_put nofun

theorem noNewTable_remove (h : d.remove p = .ok d') : NoNewTable d d' := by
  unfold remove at h
  split at h
  · cases h
    exact noNewTable_erase p
  · exact absurd h nofun
  · exact absurd h nofun

theorem noNewTable_write (hp : ¬p.resolved.IsTable) (h : d.write p bytes = .ok d') :
    NoNewTable d d' := by
  unfold write at h
  split at h
  · exact absurd h nofun
  · cases h
    exact noNewTable_put fun _ _ => hp
  · exact absurd h nofun

theorem noNewTable_rename (hq : ¬q.resolved.IsTable) (h : d.rename p q = .ok d') :
    NoNewTable d d' := by
  unfold rename at h
  split at h
  · exact absurd h nofun
  · split at h
    · exact absurd h nofun
    · cases h
      exact IsTrans.trans _ _ _ (noNewTable_erase p) (noNewTable_put fun _ _ => hq)
    · exact absurd h nofun

end Disk

end DatasetCatalog
