import DatasetCatalog.Proofs.Path
import Mathlib.Logic.Function.Basic

/-! # The files of a directory

  A directory as a function from names to bytes, and what the file operations do to it. A file
  operation that succeeds on a name in a directory has found the directory, and changes what
  stands under that name only.
-/

namespace DatasetCatalog

open DatasetCatalog.Path

namespace Disk

variable {d d' : Disk} {p q : Path} {name other : String} {bytes : ByteArray}

/-! ### What stands in a directory -/

/-- What stands under a name in a directory, when there is a directory. -/
def child? (d : Disk) (p : Path) (name : String) : Option Node := d.nodes.lookup (p.inside name)

/-- The bytes of the file of a name in a directory, when there is a directory. -/
def file? (d : Disk) (p : Path) (name : String) : Option ByteArray :=
  match d.child? p name with
  | some (.file bytes) => some bytes
  | _ => none

theorem file?_eq_some_iff : d.file? p name = some bytes ↔ d.child? p name = some (.file bytes) := by
  unfold file?
  split <;> simp_all

theorem isDirectory_eq_true_iff : d.isDirectory p = true ↔ d.look p = .ok .directory := by
  unfold isDirectory
  split <;> simp_all

/-- Going down by one more name. -/
theorem descend_append (d : Disk) (s : Nat) (above names : List String) (name : String) :
    d.descend s above (names ++ [name]) = match d.descend s above names with
      | .error fault => .error fault
      | .ok (.file _) => .error .notDirectory
      | .ok .directory =>
        if longestName < name.utf8ByteSize then .error .refused
        else match d.node? ⟨s, above ++ names ++ [name]⟩ with
          | some node => .ok node
          | none => .error .missing := by
  induction names generalizing above with
  | nil =>
    simp only [List.nil_append, descend, List.append_nil]
    rcases d.node? ⟨s, above⟩ with _ | _ | _ <;> rfl
  | cons first names ih =>
    simp only [List.cons_append, descend]
    rcases d.node? ⟨s, above⟩ with _ | _ | _
    · rfl
    · rfl
    · by_cases hlong : longestName < first.utf8ByteSize
      · simp only [hlong, if_true]
      · simp only [hlong, if_false, ih, List.append_assoc, List.cons_append, List.nil_append]

theorem node?_inside (h : name ≠ "..") : d.node? (p.inside name) = d.child? p name := by
  unfold node? child?
  simp [inside, h]

/-- What a path leads to whose last name does not go up. -/
theorem look_append (d : Disk) (s : Nat) (names : List String) (h : name ≠ "..") :
    d.look ⟨s, names ++ [name]⟩ = match d.look ⟨s, names⟩ with
      | .error fault => .error fault
      | .ok (.file _) => .error .notDirectory
      | .ok .directory =>
        if longestName < name.utf8ByteSize then .error .refused
        else match d.child? ⟨s, names⟩ name with
          | some node => .ok node
          | none => .error .missing := by
  have hnode := node?_inside (d := d) (p := ⟨s, names⟩) h
  unfold look
  rw [resolved_append s names h]
  simp only [inside] at hnode ⊢
  rw [descend_append, List.nil_append, hnode]

/-- What a name in a directory leads to. -/
theorem look_child (d : Disk) (p : Path) (h : IsEntryName name) :
    d.look (p.child name) = match d.look p with
      | .error fault => .error fault
      | .ok (.file _) => .error .notDirectory
      | .ok .directory =>
        if longestName < name.utf8ByteSize then .error .refused
        else match d.child? p name with
          | some node => .ok node
          | none => .error .missing := by
  rw [child_eq p h.toIsName]
  exact look_append d p.slashes p.names h.ne_up

theorem look_child_eq_ok_iff (h : IsEntryName name) {node : Node} :
    d.look (p.child name) = .ok node ↔ d.isDirectory p = true ∧
      name.utf8ByteSize ≤ longestName ∧ d.child? p name = some node := by
  rw [look_child d p h, isDirectory_eq_true_iff]
  rcases d.look p with fault | _ | _
  · simp
  · simp
  · by_cases hlong : longestName < name.utf8ByteSize
    · simp [hlong, Nat.not_le.2 hlong]
    · rcases d.child? p name with _ | other
      · simp [hlong]
      · simp [hlong, Nat.le_of_not_lt hlong]

/-- The file under a name in a directory can be read. -/
theorem read_child_eq_ok_iff (h : IsEntryName name) :
    d.read (p.child name) = .ok bytes ↔ d.isDirectory p = true ∧
      name.utf8ByteSize ≤ longestName ∧ d.file? p name = some bytes := by
  rw [file?_eq_some_iff, ← look_child_eq_ok_iff h]
  unfold read
  rcases d.look (p.child name) with fault | _ | _ <;> simp

theorem look_of_read (h : d.read p = .ok bytes) : d.look p = .ok (.file bytes) := by
  unfold read at h
  split at h
  · next hlook => rw [hlook, Except.ok.inj h]
  · exact absurd h nofun
  · exact absurd h nofun

theorem sizeOf_of_read (h : d.read p = .ok bytes) : d.sizeOf p = .ok bytes.size := by
  unfold sizeOf
  rw [look_of_read h]

/-- No file of that name is found in a directory: there is none, or no directory. -/
def Lacks (d : Disk) (p : Path) (name : String) : Prop :=
  d.isDirectory p = true → d.file? p name = none

/-- A name under which nothing is found, though it is not too long, is lacking. -/
theorem lacks_of_look (h : IsEntryName name) (hnode : ∀ node, d.look (p.child name) ≠ .ok node)
    (hrefused : d.look (p.child name) ≠ .error .refused) : d.Lacks p name := by
  intro hdir
  rw [look_child d p h, isDirectory_eq_true_iff.1 hdir] at hnode hrefused
  unfold file?
  rcases hchild : d.child? p name with _ | node
  · rfl
  · simp only [hchild] at hnode hrefused
    split at hnode
    · next hlong => exact absurd (if_pos hlong) hrefused
    · exact absurd rfl (hnode node)

theorem lacks_of_missing (h : IsEntryName name) (hlook : d.look (p.child name) = .error .missing) :
    d.Lacks p name :=
  lacks_of_look h (by simp [hlook]) (by simp [hlook])

theorem lacks_of_present (h : IsEntryName name) (hpresent : d.present (p.child name) = .ok false) :
    d.Lacks p name := by
  refine lacks_of_look h ?_ ?_
  · intro node hnode
    rw [present, hnode] at hpresent
    cases hpresent
  · intro hrefused
    rw [present, hrefused] at hpresent
    cases hpresent

theorem isDirectory_of_absent (h : d.present p = .ok false) : d.isDirectory p = false := by
  by_contra hdir
  rw [Bool.not_eq_false] at hdir
  rw [present, isDirectory_eq_true_iff.1 hdir] at h
  exact absurd h nofun

theorem eq_refused_of_present {fault : FileFault} (h : d.present p = .error fault) :
    fault = .refused := by
  unfold present at h
  split at h
  · cases h
  · exact (Except.error.inj h).symm
  · cases h

/-- The names in a directory are those under which something stands. -/
theorem mem_list : name ∈ d.list p ↔ (d.child? p name).isSome = true := by
  rw [child?, List.lookup_isSome_iff]
  simp only [list, List.mem_mergeSort, List.mem_map, List.mem_filter, Bool.and_eq_true,
    decide_eq_true_eq, beq_iff_eq]
  constructor
  · rintro ⟨r, ⟨⟨node, hnode, rfl⟩, hne, hparent⟩, rfl⟩
    obtain ⟨⟨slashes, names⟩, found⟩ := node
    obtain ⟨above, last, rfl⟩ := (List.eq_nil_or_concat names).resolve_left hne
    refine ⟨_, hnode, ?_⟩
    rw [inside, ← hparent]
    simp [parent, Path.name]
  · rintro ⟨node, hnode, hinside⟩
    exact ⟨p.inside name, ⟨⟨node, hnode, hinside.symm⟩, by simp [inside], by simp [inside, parent]⟩,
      by simp [inside, Path.name]⟩

theorem mem_list_of_file? (h : d.file? p name = some bytes) : name ∈ d.list p := by
  rw [mem_list, file?_eq_some_iff.1 h]
  rfl

/-- In an empty directory nothing stands under any name. -/
theorem child?_of_empty (h : d.list p = []) (name : String) : d.child? p name = none := by
  by_contra hchild
  have hmem : name ∈ d.list p := mem_list.2 (Option.isSome_iff_ne_none.2 hchild)
  rw [h] at hmem
  exact absurd hmem List.not_mem_nil

theorem file?_of_empty (h : d.list p = []) (name : String) : d.file? p name = none := by
  unfold file?
  rw [child?_of_empty h name]

/-! ### Changes of single paths -/

theorem lookup_cons_eq (nodes : List (Path × Node)) (p q : Path) (node : Node) :
    ((p, node) :: nodes).lookup q = if q = p then some node else nodes.lookup q := by
  rw [List.lookup_cons]
  by_cases h : q = p
  · simp [h]
  · simp [h, beq_false_of_ne h]

theorem lookup_setNode (nodes : List (Path × Node)) (p q : Path) (node : Node) :
    (setNode nodes p node).lookup q = if q = p then some node else nodes.lookup q := by
  induction nodes with
  | nil => rw [setNode, lookup_cons_eq]
  | cons first rest ih =>
    obtain ⟨r, old⟩ := first
    rw [setNode]
    split
    · next hr =>
      subst hr
      simp only [lookup_cons_eq]
      split <;> rfl
    · next hr =>
      simp only [lookup_cons_eq, ih]
      -- `q` is the path that is set, the first path, or none of the two
      split
      · next hq => rw [if_neg fun hp => hr (hq.symm.trans hp)]
      · rfl

theorem lookup_filter_ne (nodes : List (Path × Node)) (p q : Path) :
    (nodes.filter fun (r, _) => r ≠ p).lookup q = if q = p then none else nodes.lookup q := by
  induction nodes with
  | nil => simp
  | cons first rest ih =>
    obtain ⟨r, old⟩ := first
    by_cases hr : r = p
    · rw [List.filter_cons_of_neg (by simp [hr]), ih, lookup_cons_eq, hr]
      split <;> rfl
    · rw [List.filter_cons_of_pos (by simp [hr]), lookup_cons_eq, lookup_cons_eq, ih]
      split
      · next hq => rw [if_neg fun hp => hr (hq.symm.trans hp)]
      · rfl

theorem child?_put (d : Disk) (q : Path) (node : Node) :
    (d.put q node).child? p name =
      if p.inside name = q.resolved then some node else d.child? p name :=
  lookup_setNode d.nodes q.resolved (p.inside name) node

theorem child?_erase (d : Disk) (q : Path) :
    (d.erase q).child? p name = if p.inside name = q.resolved then none else d.child? p name :=
  lookup_filter_ne d.nodes q.resolved (p.inside name)

/-! ### Changes of a directory -/

theorem child?_put_child (d : Disk) (h : IsEntryName name) (node : Node) :
    (d.put (p.child name) node).child? p other =
      if other = name then some node else d.child? p other := by
  simp only [child?_put, resolved_child p h, inside_inj]

theorem child?_erase_child (d : Disk) (h : IsEntryName name) :
    (d.erase (p.child name)).child? p other =
      if other = name then none else d.child? p other := by
  simp only [child?_erase, resolved_child p h, inside_inj]

/-- Putting a file into a directory changes what stands under its name. -/
theorem file?_put_child (d : Disk) (h : IsEntryName name) :
    (d.put (p.child name) (.file bytes)).file? p =
      Function.update (d.file? p) name (some bytes) := by
  funext other
  rw [Function.update_apply, file?, file?, child?_put_child d h]
  by_cases hother : other = name
  · simp only [hother, if_true]
  · simp only [hother, if_false]

/-- Erasing a file of a directory changes what stands under its name. -/
theorem file?_erase_child (d : Disk) (h : IsEntryName name) :
    (d.erase (p.child name)).file? p = Function.update (d.file? p) name none := by
  funext other
  rw [Function.update_apply, file?, file?, child?_erase_child d h]
  by_cases hother : other = name
  · simp only [hother, if_true]
  · simp only [hother, if_false]

theorem eq_or_mem_list_of_put (h : IsEntryName name) {node : Node}
    (hmem : other ∈ (d.put (p.child name) node).list p) : other = name ∨ other ∈ d.list p := by
  rw [mem_list, child?_put_child d h] at hmem
  split at hmem
  · exact .inl ‹_›
  · exact .inr (mem_list.2 hmem)

theorem mem_list_of_erase (hmem : name ∈ (d.erase q).list p) : name ∈ d.list p := by
  rw [mem_list, child?_erase] at hmem
  split at hmem
  · exact absurd hmem Bool.false_ne_true
  · exact mem_list.2 hmem

/-- Something can be put under a name in a directory only when there is the directory. -/
theorem isDirectory_of_lookToPut (h : IsEntryName name) {found : Option Node}
    (hlook : d.lookToPut (p.child name) = .ok found) : d.isDirectory p = true := by
  unfold lookToPut at hlook
  rw [parent_child p h.toIsName] at hlook
  split at hlook
  · next node hnode => exact ((look_child_eq_ok_iff h).1 hnode).1
  · split at hlook
    · next hparent => exact isDirectory_eq_true_iff.2 hparent
    · cases hlook
    · cases hlook
  · cases hlook

theorem write_child (h : IsEntryName name) (hwrite : d.write (p.child name) bytes = .ok d') :
    d.isDirectory p = true ∧ d' = d.put (p.child name) (.file bytes) := by
  unfold write at hwrite
  split at hwrite
  · cases hwrite
  · next hlook => exact ⟨isDirectory_of_lookToPut h hlook, (Except.ok.inj hwrite).symm⟩
  · cases hwrite

theorem remove_child (h : IsEntryName name) (hremove : d.remove (p.child name) = .ok d') :
    d.isDirectory p = true ∧ d' = d.erase (p.child name) := by
  unfold remove at hremove
  split at hremove
  · next hlook => exact ⟨((look_child_eq_ok_iff h).1 hlook).1, (Except.ok.inj hremove).symm⟩
  · cases hremove
  · cases hremove

theorem rename_child (h : IsEntryName name)
    (hrename : d.rename (p.child name) q = .ok d') :
    d.isDirectory p = true ∧ ∃ bytes, d.file? p name = some bytes ∧
      d' = (d.erase (p.child name)).put q (.file bytes) := by
  unfold rename at hrename
  split at hrename
  · cases hrename
  · next bytes hread =>
    obtain ⟨hdir, -, hfile⟩ := (read_child_eq_ok_iff h).1 hread
    split at hrename
    · cases hrename
    · exact ⟨hdir, bytes, hfile, (Except.ok.inj hrename).symm⟩
    · cases hrename

/-! ### New directories -/

/-- Where something can be looked up there is a directory above. -/
theorem exists_look_of_resolved {last : String} {node : Node} (hp : p.resolved = q.inside last)
    (hlook : d.look p = .ok node) : ∃ above, d.look q = .ok above := by
  unfold look at hlook ⊢
  rw [hp] at hlook
  simp only [inside] at hlook
  rw [descend_append] at hlook
  split at hlook
  · cases hlook
  · cases hlook
  · next hq => exact ⟨_, hq⟩

/-- A directory is only made where nothing stands. -/
theorem makeDirectory_eq_ok (hmake : d.makeDirectory p = .ok d') :
    d.look p = .error .missing ∧ d.look p.parent = .ok .directory ∧ d' = d.put p .directory := by
  unfold makeDirectory lookToPut at hmake
  split at hmake
  · next hfound =>
    split at hfound
    · cases hfound
    · next hmissing =>
      split at hfound
      · next hparent => exact ⟨hmissing, hparent, (Except.ok.inj hmake).symm⟩
      · cases hfound
      · cases hfound
    · cases hfound
  · cases hmake
  · cases hmake

/-- Where there is a directory, none is made. -/
theorem makeDirectory_of_isDirectory (hdir : d.isDirectory p = true) :
    d.makeDirectory p = .error .refused := by
  unfold makeDirectory lookToPut
  rw [isDirectory_eq_true_iff.1 hdir]

/-- What stands in a directory is not replaced by a new directory. -/
theorem child?_eq_none_of_makeDirectory (hname : name ≠ "..") (hplace : q.inside name = p.resolved)
    (hmissing : d.look p = .error .missing) (hparent : d.look p.parent = .ok .directory) :
    d.child? q name = none := by
  obtain ⟨s, names⟩ := p
  obtain rfl | ⟨above, last, rfl⟩ := List.eq_nil_or_concat names
  · -- the working directory and the root stand in no directory under a name
    simp [inside, resolved] at hplace
  · rw [List.concat_eq_append] at *
    rw [show (⟨s, above ++ [last]⟩ : Path).parent = ⟨s, above⟩ by simp [parent]] at hparent
    by_cases hlast : last = ".."
    · subst hlast
      -- the path ends in a step up, from a directory that is there, so it leads somewhere
      obtain hnil | hup | ⟨below, hbelow⟩ := resolved_append_up s above
      · simp [← hplace, inside] at hnil
      · rw [hup] at hplace
        simp only [inside, Path.mk.injEq, List.append_singleton_inj] at hplace
        exact absurd hplace.2.2 hname
      · obtain ⟨node, hnode⟩ := exists_look_of_resolved hbelow hparent
        rw [hmissing] at hnode
        cases hnode
    · rw [look_append d s above hlast, hparent] at hmissing
      have hchild : d.child? q name = d.child? ⟨s, above⟩ last := by
        rw [child?, child?, hplace, resolved_append s above hlast]
      rw [hchild]
      rcases hfound : d.child? ⟨s, above⟩ last with _ | node
      · rfl
      · simp only [hfound] at hmissing
        split at hmissing <;> cases hmissing

/-- A new directory is no file, and changes no file. -/
theorem file?_makeDirectory (hmake : d.makeDirectory p = .ok d') (hname : name ≠ "..") :
    d'.file? q name = d.file? q name := by
  obtain ⟨hmissing, hparent, rfl⟩ := makeDirectory_eq_ok hmake
  rw [file?, file?, child?_put]
  by_cases hplace : q.inside name = p.resolved
  · rw [if_pos hplace, child?_eq_none_of_makeDirectory hname hplace hmissing hparent]
  · rw [if_neg hplace]

/-- A file that is there when a directory has been made was there before. -/
theorem file?_of_makeDirectory (hmake : d.makeDirectory p = .ok d')
    (hfile : d'.file? q name = some bytes) : d.file? q name = some bytes := by
  obtain ⟨-, -, rfl⟩ := makeDirectory_eq_ok hmake
  rw [file?_eq_some_iff, child?_put] at hfile
  rw [file?_eq_some_iff]
  split at hfile
  · exact absurd hfile nofun
  · exact hfile

/-- A new directory has a name of its path. -/
theorem isName_of_makeDirectory (hp : p.WellFormed) (hmake : d.makeDirectory p = .ok d')
    (hmem : name ∈ d'.list q) : IsName name ∨ name ∈ d.list q := by
  obtain ⟨-, -, rfl⟩ := makeDirectory_eq_ok hmake
  rw [mem_list, child?_put] at hmem
  split at hmem
  · next hplace =>
    refine .inl (isName_of_mem_resolved hp ?_)
    simp [← hplace, inside]
  · exact .inr (mem_list.2 hmem)

end Disk

end DatasetCatalog
