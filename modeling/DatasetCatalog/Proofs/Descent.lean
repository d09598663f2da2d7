import DatasetCatalog.Proofs.Disk

/-! # The way down to a path

  What a path leads to depends on the nodes on the way only. A change of a file is not seen by
  paths that do not lead through it, and a new directory is made where no path has led before, so
  what could be reached stays as it is.
-/

namespace DatasetCatalog.Disk

open DatasetCatalog.Path

variable {d d' : Disk} {root p q : Path} {name other : String} {bytes : ByteArray} {node : Node}

/-! ### Nodes on the way -/

/-- Disks with the same nodes on the way lead to the same. -/
theorem descend_congr {s : Nat} {above names : List String}
    (h : ∀ front, front <+: names → d'.node? ⟨s, above ++ front⟩ = d.node? ⟨s, above ++ front⟩) :
    d'.descend s above names = d.descend s above names := by
  induction names generalizing above with
  | nil =>
    have hhere := h [] List.nil_prefix
    rw [List.append_nil] at hhere
    rw [descend, descend, hhere]
  | cons name rest ih =>
    have hhere := h [] List.nil_prefix
    rw [List.append_nil] at hhere
    have hrest : d'.descend s (above ++ [name]) rest = d.descend s (above ++ [name]) rest := by
      refine ih fun front hfront => ?_
      have hbelow := h (name :: front) (List.cons_prefix_cons.2 ⟨rfl, hfront⟩)
      rwa [List.append_cons] at hbelow
    rw [descend, descend, hhere, hrest]

/-- Whoever arrives has come by every name on the way. -/
theorem descend_front {s : Nat} {above names front : List String}
    (h : d.descend s above names = .ok node) (hfront : front <+: names) :
    ∃ found, d.descend s above front = .ok found := by
  induction names generalizing above front with
  | nil =>
    obtain rfl := List.prefix_nil.1 hfront
    exact ⟨node, h⟩
  | cons name rest ih =>
    rw [descend] at h
    split at h
    · next hhere =>
      cases front with
      | nil => exact ⟨.directory, by rw [descend, hhere]⟩
      | cons first front =>
        obtain ⟨rfl, hbelow⟩ := List.cons_prefix_cons.1 hfront
        split at h
        · cases h
        · next hshort =>
          obtain ⟨found, hfound⟩ := ih h hbelow
          exact ⟨found, by rw [descend, hhere]; simp only [if_neg hshort, hfound]⟩
    · cases h
    · cases h

/-! ### Changes off the way -/

theorem node?_put (hne : p ≠ q.resolved) : (d.put q node).node? p = d.node? p := by
  unfold node? put
  rw [lookup_setNode, if_neg hne]

theorem node?_erase (hne : p ≠ q.resolved) : (d.erase q).node? p = d.node? p := by
  unfold node? erase
  rw [lookup_filter_ne, if_neg hne]

/-- The path does not lead through what another path names. -/
def Avoids (p q : Path) : Prop := ¬ q.resolved.names <+: p.resolved.names

theorem look_congr (havoids : Avoids p q)
    (h : ∀ r, r ≠ q.resolved → d'.node? r = d.node? r) : d'.look p = d.look p := by
  unfold look
  refine descend_congr fun front hfront => h _ ?_
  rw [List.nil_append]
  rintro heq
  exact havoids (by rwa [← heq])

theorem look_put (havoids : Avoids p q) : (d.put q node).look p = d.look p :=
  look_congr havoids fun _ => node?_put

theorem look_erase (havoids : Avoids p q) : (d.erase q).look p = d.look p :=
  look_congr havoids fun _ => node?_erase

/-- A directory is not reached through what it holds. -/
theorem avoids_child (p : Path) (h : IsEntryName name) : Avoids p (p.child name) := by
  intro hprefix
  rw [resolved_child p h, inside] at hprefix
  have hlength := hprefix.length_le
  rw [List.length_append, List.length_singleton] at hlength
  omega

/-- What a directory holds is not reached through what stands beside it. -/
theorem avoids_beside (p : Path) (h : IsEntryName name) (hother : IsEntryName other)
    (hne : name ≠ other) : Avoids (p.child other) (p.child name) := by
  intro hprefix
  rw [resolved_child p h, resolved_child p hother, inside, inside,
    List.prefix_append_right_inj] at hprefix
  exact hne (List.cons_prefix_cons.1 hprefix).1

/-- Nor is what lies below. -/
theorem Avoids.child (h : Avoids p q) (hname : IsEntryName name)
    (hlength : q.resolved.names.length ≤ p.resolved.names.length) : Avoids (p.child name) q := by
  intro hprefix
  rw [resolved_child p hname, inside] at hprefix
  exact h (List.prefix_of_prefix_length_le hprefix (List.prefix_append _ _) hlength)

theorem isDirectory_congr (h : d'.look p = d.look p) : d'.isDirectory p = d.isDirectory p := by
  unfold isDirectory
  rw [h]

theorem lookToPut_congr (h : d'.look p = d.look p) (hparent : d'.look p.parent = d.look p.parent) :
    d'.lookToPut p = d.lookToPut p := by
  unfold lookToPut
  rw [h, hparent]

/-! ### Changes of single files -/

/-- The disks differ at most in what is reached through a path. -/
def SameOff (q : Path) (d d' : Disk) : Prop := ∀ p, Avoids p q → d'.look p = d.look p

theorem sameOff_put (q : Path) (node : Node) : SameOff q d (d.put q node) := fun _ => look_put

theorem sameOff_erase (q : Path) : SameOff q d (d.erase q) := fun _ => look_erase

theorem read_congr (h : d'.look p = d.look p) : d'.read p = d.read p := by
  unfold read
  rw [h]

/-- A file beside the changed one is read as before. -/
theorem SameOff.read (h : SameOff (root.child name) d d') (hname : IsEntryName name)
    (hother : IsEntryName other) (hne : name ≠ other) :
    d'.read (root.child other) = d.read (root.child other) :=
  read_congr (h _ (avoids_beside root hname hother hne))

theorem SameOff.isDirectory (h : SameOff (root.child name) d d') (hname : IsEntryName name) :
    d'.isDirectory root = d.isDirectory root :=
  isDirectory_congr (h root (avoids_child root hname))

/-- A name that something can be put under is not too long. -/
theorem fits_of_lookToPut (h : IsEntryName name) {found : Option Node}
    (hlook : d.lookToPut (p.child name) = .ok found) : name.utf8ByteSize ≤ longestName := by
  have hdir := isDirectory_of_lookToPut h hlook
  unfold lookToPut at hlook
  rw [look_child d p h, isDirectory_eq_true_iff.1 hdir] at hlook
  by_contra hlong
  simp only [if_pos (Nat.lt_of_not_le hlong)] at hlook
  exact absurd hlook nofun

/-- What is put under a name that is not too long is read there. -/
theorem read_put_child (h : IsEntryName name) (hdir : d.isDirectory p = true)
    (hfits : name.utf8ByteSize ≤ longestName) :
    (d.put (p.child name) (.file bytes)).read (p.child name) = .ok bytes := by
  refine (read_child_eq_ok_iff h).2 ⟨?_, hfits, ?_⟩
  · rw [(sameOff_put _ _).isDirectory h, hdir]
  · rw [file?_put_child d h, Function.update_self]

/-- What is erased is not read any more. -/
theorem read_erase_child (h : IsEntryName name) :
    (d.erase (p.child name)).read (p.child name) ≠ .ok bytes := by
  intro hread
  obtain ⟨-, -, hfile⟩ := (read_child_eq_ok_iff h).1 hread
  rw [file?_erase_child d h, Function.update_self] at hfile
  exact absurd hfile nofun

theorem fits_of_write (h : IsEntryName name) (hwrite : d.write (p.child name) bytes = .ok d') :
    name.utf8ByteSize ≤ longestName := by
  unfold write at hwrite
  split at hwrite
  · exact absurd hwrite nofun
  · next hlook => exact fits_of_lookToPut h hlook
  · exact absurd hwrite nofun

theorem fits_of_rename (h : IsEntryName name) (hrename : d.rename q (p.child name) = .ok d') :
    name.utf8ByteSize ≤ longestName := by
  unfold rename at hrename
  split at hrename
  · exact absurd hrename nofun
  · split at hrename
    · exact absurd hrename nofun
    · next hlook => exact fits_of_lookToPut h hlook
    · exact absurd hrename nofun

theorem write_child_eq_ok (h : IsEntryName name) (hwrite : d.write (p.child name) bytes = .ok d') :
    d.isDirectory p = true ∧ SameOff (p.child name) d d' ∧ d'.read (p.child name) = .ok bytes := by
  have hfits := fits_of_write h hwrite
  obtain ⟨hdir, rfl⟩ := write_child h hwrite
  exact ⟨hdir, sameOff_put _ _, read_put_child h hdir hfits⟩

theorem remove_child_eq_ok (h : IsEntryName name) (hremove : d.remove (p.child name) = .ok d') :
    d.isDirectory p = true ∧ SameOff (p.child name) d d' ∧
      ∀ bytes, d'.read (p.child name) ≠ .ok bytes := by
  obtain ⟨hdir, rfl⟩ := remove_child h hremove
  exact ⟨hdir, sameOff_erase _, fun _ => read_erase_child h⟩

/-- A file that is moved disappears at one place and is read at the other. -/
theorem rename_child_eq_ok (h : IsEntryName name) (hother : IsEntryName other)
    (hrename : d.rename (p.child name) (p.child other) = .ok d') :
    d.isDirectory p = true ∧ ∃ between, SameOff (p.child name) d between ∧
      SameOff (p.child other) between d' ∧
      ∀ bytes, d.read (p.child name) = .ok bytes → d'.read (p.child other) = .ok bytes := by
  have hfits := fits_of_rename hother hrename
  obtain ⟨hdir, moved, hmoved, rfl⟩ := rename_child h hrename
  refine ⟨hdir, _, sameOff_erase _, sameOff_put _ _, fun bytes hread => ?_⟩
  obtain ⟨-, -, hfile⟩ := (read_child_eq_ok_iff h).1 hread
  obtain rfl := Option.some.inj (hmoved.symm.trans hfile)
  exact read_put_child hother (((sameOff_erase _).isDirectory h).trans hdir) hfits

/-! ### New directories -/

/-- What could be reached is reached as before when a directory is made. -/
theorem look_of_makeDirectory (hmake : d.makeDirectory q = .ok d') (hlook : d.look p = .ok node) :
    d'.look p = .ok node := by
  obtain ⟨hmissing, -, rfl⟩ := makeDirectory_eq_ok hmake
  rw [← hlook]
  unfold look at hlook hmissing ⊢
  refine descend_congr fun front hfront => node?_put ?_
  -- nobody has come by the place of the new directory
  rw [List.nil_append]
  intro heq
  obtain ⟨found, hfound⟩ := descend_front hlook hfront
  rw [← heq] at hmissing
  simp only at hmissing
  rw [hmissing] at hfound
  exact absurd hfound nofun

theorem isDirectory_of_makeDirectory (hmake : d.makeDirectory q = .ok d')
    (hdir : d.isDirectory p = true) : d'.isDirectory p = true :=
  isDirectory_eq_true_iff.2 (look_of_makeDirectory hmake (isDirectory_eq_true_iff.1 hdir))

/-- Files in a directory are only found when there is the directory. -/
def Grounded (root : Path) (d : Disk) : Prop :=
  ∀ name bytes, name ≠ ".." → d.file? root name = some bytes → d.isDirectory root = true

theorem grounded_of_isDirectory (h : d.isDirectory root = true) : Grounded root d :=
  fun _ _ _ _ => h

/-- An empty directory holds no files. -/
theorem grounded_of_empty (h : d.list root = []) : Grounded root d := by
  intro name bytes _ hfile
  rw [file?_of_empty h] at hfile
  exact absurd hfile nofun

theorem Grounded.makeDirectory (h : Grounded root d) (hmake : d.makeDirectory q = .ok d') :
    Grounded root d' := by
  intro name bytes hname hfile
  rw [file?_makeDirectory hmake hname] at hfile
  exact isDirectory_of_makeDirectory hmake (h name bytes hname hfile)

/-- The same file, if any, is read on both disks. -/
def Agree (p : Path) (d d' : Disk) : Prop := ∀ bytes, d'.read p = .ok bytes ↔ d.read p = .ok bytes

theorem agree_of_eq (h : d'.read p = d.read p) : Agree p d d' := fun _ => by rw [h]

theorem Agree.trans {d'' : Disk} (h : Agree p d d') (h' : Agree p d' d'') : Agree p d d'' :=
  fun bytes => (h' bytes).trans (h bytes)

/-- A new directory changes no file. -/
theorem Grounded.agree_makeDirectory (h : Grounded root d) (hmake : d.makeDirectory q = .ok d')
    (hname : IsEntryName name) : Agree (root.child name) d d' := by
  intro bytes
  rw [read_child_eq_ok_iff hname, read_child_eq_ok_iff hname,
    file?_makeDirectory hmake hname.ne_up]
  constructor
  · rintro ⟨-, hfits, hfile⟩
    exact ⟨h name bytes hname.ne_up hfile, hfits, hfile⟩
  · rintro ⟨hdir, hfits, hfile⟩
    exact ⟨isDirectory_of_makeDirectory hmake hdir, hfits, hfile⟩

end DatasetCatalog.Disk
