import DatasetCatalog.Proofs.Except
import DatasetCatalog.Proofs.World
import Mathlib.Order.Defs.Unbundled

/-! # Where actions move

  How far an action can move the disk and the trace, whether it ends with a value, fails or stops
  the process: from where it begins to where it ends a relation holds of the disks, and another one
  of the traces. Both relations can be followed one step after the other, so what each step of an
  action keeps, the whole action keeps. Locks, flights, the clock and verdicts are left open.
-/

namespace DatasetCatalog.Action

variable {ε δ α β : Type} {D : Disk → Disk → Prop} {T : Trace → Trace → Prop} {x : Action ε α}

/-- The action moves the disk along `D` and the trace along `T`. -/
def Moves (D : Disk → Disk → Prop) (T : Trace → Trace → Prop) (x : Action ε α) : Prop :=
  ∀ w, D w.disk (x.exec w).2.disk ∧ T w.trace (x.exec w).2.trace

theorem Moves.mono {D' : Disk → Disk → Prop} {T' : Trace → Trace → Prop} (h : Moves D T x)
    (hD : ∀ d d', D d d' → D' d d') (hT : ∀ t t', T t t' → T' t t') : Moves D' T' x :=
  fun w => ⟨hD _ _ (h w).1, hT _ _ (h w).2⟩

theorem Moves.attempt (hx : Moves D T x) : Moves D T (x.attempt : Action δ (Except ε α)) := by
  intro w
  have hx := hx w
  rw [exec_attempt]
  revert hx
  rcases x.exec w with ⟨_ | r, next⟩
  · exact id
  · exact id

theorem Moves.mapError {f : ε → δ} (hx : Moves D T x) : Moves D T (x.mapError f) := by
  intro w
  have hx := hx w
  rw [exec_mapError]
  revert hx
  rcases x.exec w with ⟨_ | _ | a, next⟩
  · exact id
  · exact id
  · exact id

/-! ### Steps one after the other -/

theorem Moves.bind [IsTrans Disk D] [IsTrans Trace T] {f : α → Action ε β} (hx : Moves D T x)
    (hf : ∀ a, Moves D T (f a)) : Moves D T (x >>= f) := by
  intro w
  have hfirst := hx w
  rw [exec_bind]
  revert hfirst
  rcases x.exec w with ⟨_ | e | a, next⟩
  · exact id
  · exact id
  · intro hfirst
    exact ⟨IsTrans.trans _ _ _ hfirst.1 (hf a next).1, IsTrans.trans _ _ _ hfirst.2 (hf a next).2⟩

/-! ### Single steps -/

theorem moves_change [Std.Refl D] {f : World → World} (hdisk : ∀ w, (f w).disk = w.disk)
    (htrace : ∀ w, T w.trace (f w).trace) : Moves D T (change f : Action ε Unit) := by
  intro w
  refine ⟨?_, htrace w⟩
  rw [exec_change, hdisk w]
  exact Std.Refl.refl w.disk

variable [Std.Refl D] [Std.Refl T]

/-- An action that leaves disk and trace as they are; the rest of the world is left open. -/
theorem moves_of_eq (hdisk : ∀ w, (x.exec w).2.disk = w.disk)
    (htrace : ∀ w, (x.exec w).2.trace = w.trace) : Moves D T x := by
  intro w
  rw [hdisk w, htrace w]
  exact ⟨Std.Refl.refl w.disk, Std.Refl.refl w.trace⟩

theorem moves_ofExcept (r : Except ε α) : Moves D T (ofExcept r) :=
  moves_of_eq (fun _ => rfl) fun _ => rfl

theorem moves_pure (a : α) : Moves D T (pure a : Action ε α) :=
  moves_of_eq (fun _ => rfl) fun _ => rfl

theorem moves_throw (e : ε) : Moves D T (throw e : Action ε α) :=
  moves_of_eq (fun _ => rfl) fun _ => rfl

theorem moves_look (f : World → α) : Moves D T (look f : Action ε α) :=
  moves_of_eq (fun _ => rfl) fun _ => rfl

theorem moves_stopped : Moves D T (stopped : Action ε α) :=
  moves_of_eq (fun _ => rfl) fun _ => rfl

theorem moves_stamp : Moves D T (stamp : Action ε Timestamp) :=
  moves_of_eq (fun _ => rfl) fun _ => rfl

/-! ### File operations -/

theorem moves_operate {op : Disk → Except FileFault (α × Disk)} {torn : Nat → Disk → Disk}
    (hop : ∀ d a d', op d = .ok (a, d') → D d d') (htorn : ∀ n d, D d (torn n d)) :
    Moves D T (operate op torn) := by
  intro w
  unfold operate
  rw [exec_of]
  rcases w.verdicts.head?.getD .proceed with _ | n | n
  · cases hd : op w.disk with
    | error fault => exact ⟨Std.Refl.refl w.disk, Std.Refl.refl w.trace⟩
    | ok r => exact ⟨hop w.disk r.1 r.2 hd, Std.Refl.refl w.trace⟩
  · exact ⟨htorn n w.disk, Std.Refl.refl w.trace⟩
  · exact ⟨htorn n w.disk, Std.Refl.refl w.trace⟩

theorem moves_inspect (op : Disk → Except FileFault α) : Moves D T (inspect op) := by
  refine moves_operate ?_ fun _ d => Std.Refl.refl d
  intro d a d' h
  obtain ⟨b, -, heq⟩ := map_eq_ok_iff.1 h
  cases heq
  exact Std.Refl.refl d

theorem moves_alter {op : Disk → Except FileFault Disk} (hop : ∀ d d', op d = .ok d' → D d d') :
    Moves D T (alter op) := by
  refine moves_operate ?_ fun _ d => Std.Refl.refl d
  intro d a d' h
  obtain ⟨b, hb, heq⟩ := map_eq_ok_iff.1 h
  cases heq
  exact hop d d' hb

/-- A write that fails may leave a beginning of the file behind. -/
theorem moves_writeBytes {p : Path} (hwrite : ∀ d d' bytes, d.write p bytes = .ok d' → D d d')
    (bytes : ByteArray) : Moves D T (writeBytes p bytes) := by
  refine moves_operate ?_ ?_
  · intro d a d' h
    obtain ⟨b, hb, heq⟩ := map_eq_ok_iff.1 h
    cases heq
    exact hwrite d d' bytes hb
  · intro n d
    cases hd : d.write p (bytes.extract 0 n) with
    | error fault => exact Std.Refl.refl d
    | ok next => exact hwrite d next _ hd

/-! ### Composed actions -/

variable [IsTrans Disk D] [IsTrans Trace T]

/-- What is done behind an action, whether it fails or not. -/
theorem Moves.finally {f : World → World} (hx : Moves D T x)
    (hf : Moves D T (change f : Action ε Unit)) :
    Moves D T (do let r ← x.attempt; change f; ofExcept r) :=
  hx.attempt.bind fun r => hf.bind fun _ => moves_ofExcept r

theorem moves_removeIfPresent {p : Path} (hremove : ∀ d d', d.remove p = .ok d' → D d d') :
    Moves D T (removeIfPresent p) := by
  unfold removeIfPresent
  refine (moves_alter hremove).attempt.bind fun r => ?_
  split
  · exact moves_pure _
  · exact moves_pure _
  · exact moves_throw _

theorem moves_makeDirectory {p : Path} (hmake : ∀ d d', d.makeDirectory p = .ok d' → D d d') :
    Moves D T (makeDirectory p) := by
  unfold makeDirectory
  refine (moves_alter hmake).attempt.bind fun r => ?_
  split
  · exact moves_pure _
  · exact moves_throw _
  · refine (moves_inspect _).bind fun there => ?_
    split
    · exact moves_pure _
    · exact moves_throw _

theorem moves_makeDirectories
    (hmake : ∀ q d d', Disk.makeDirectory d q = .ok d' → D d d') (p : Path) :
    Moves D T (makeDirectories p) := by
  have hall : ∀ (depth : Nat) (q : Path), Moves D T (makeDirectoriesTo q depth) := by
    intro depth
    induction depth with
    | zero => exact fun q => moves_makeDirectory (hmake q)
    | succ depth ih =>
      intro q
      unfold makeDirectoriesTo
      refine (moves_makeDirectory (hmake q)).attempt.bind fun r => ?_
      split
      · exact (ih q.parent).bind fun _ => moves_makeDirectory (hmake q)
      · exact moves_pure _
      · exact moves_throw _
  exact hall _ p

end DatasetCatalog.Action
