import DatasetCatalog.World

/-! # Running actions

  What an action does to a world, step by step: each lemma tells what running one of the ways to
  make or combine actions comes to.
-/

namespace DatasetCatalog.Action

variable {ε δ α β : Type} {w : World}

@[simp] theorem exec_pure (a : α) : (pure a : Action ε α).exec w = (some (.ok a), w) := rfl

@[simp] theorem exec_throw (e : ε) : (throw e : Action ε α).exec w = (some (.error e), w) := rfl

@[simp] theorem exec_of (f : World → Option (Except ε α) × World) : (of f).exec w = f w := rfl

@[simp] theorem exec_stopped : (stopped : Action ε α).exec w = (none, w) := rfl

@[simp] theorem exec_look (f : World → α) : (look f : Action ε α).exec w = (some (.ok (f w)), w) :=
  rfl

@[simp] theorem exec_change (f : World → World) :
    (change f : Action ε Unit).exec w = (some (.ok ()), f w) := rfl

@[simp] theorem exec_ofExcept (r : Except ε α) : (ofExcept r).exec w = (some r, w) := rfl

/-- An action goes on with the value of another one. -/
theorem exec_bind (x : Action ε α) (f : α → Action ε β) :
    (x >>= f).exec w = match x.exec w with
      | (none, next) => (none, next)
      | (some (.error e), next) => (some (.error e), next)
      | (some (.ok a), next) => (f a).exec next := by
  show Id.run _ = _
  unfold exec
  simp only [bind, ExceptT.bind, ExceptT.mk, OptionT.bind, OptionT.mk, ExceptT.run, OptionT.run,
    StateT.bind, StateT.run, ExceptT.bindCont, Id.run]
  rcases x w with ⟨_ | _ | _, next⟩ <;> rfl

theorem exec_attempt (x : Action ε α) :
    (x.attempt : Action δ (Except ε α)).exec w = match x.exec w with
      | (none, next) => (none, next)
      | (some r, next) => (some (.ok r), next) := by
  unfold attempt
  rw [exec_of]
  rcases x.exec w with ⟨_ | _, next⟩ <;> rfl

theorem exec_mapError (f : ε → δ) (x : Action ε α) :
    (x.mapError f).exec w = match x.exec w with
      | (none, next) => (none, next)
      | (some (.error e), next) => (some (.error (f e)), next)
      | (some (.ok a), next) => (some (.ok a), next) := by
  unfold mapError
  rw [exec_bind, exec_attempt]
  rcases x.exec w with ⟨_ | _ | _, next⟩ <;> rfl

/-! ### Taking runs apart -/

theorem exec_bind_ok {x : Action ε α} {f : α → Action ε β} {b : β} {next : World}
    (h : (x >>= f).exec w = (some (.ok b), next)) :
    ∃ a between, x.exec w = (some (.ok a), between) ∧
      (f a).exec between = (some (.ok b), next) := by
  rw [exec_bind] at h
  revert h
  rcases x.exec w with ⟨_ | e | a, between⟩
  · exact nofun
  · exact nofun
  · exact fun h => ⟨a, between, rfl, h⟩

theorem exec_bind_error {x : Action ε α} {f : α → Action ε β} {e : ε} {next : World}
    (h : (x >>= f).exec w = (some (.error e), next)) :
    x.exec w = (some (.error e), next) ∨
      ∃ a between, x.exec w = (some (.ok a), between) ∧
        (f a).exec between = (some (.error e), next) := by
  rw [exec_bind] at h
  revert h
  rcases x.exec w with ⟨_ | e' | a, between⟩
  · exact nofun
  · intro h
    cases h
    exact .inl rfl
  · exact fun h => .inr ⟨a, between, rfl, h⟩

theorem exec_mapError_error {f : ε → δ} {x : Action ε α} {e : δ} {next : World}
    (h : (x.mapError f).exec w = (some (.error e), next)) :
    ∃ e', x.exec w = (some (.error e'), next) ∧ e = f e' := by
  rw [exec_mapError] at h
  revert h
  rcases x.exec w with ⟨_ | e' | a, between⟩
  · exact nofun
  · intro h
    cases h
    exact ⟨e', rfl, rfl⟩
  · exact nofun

theorem exec_attempt_ok {x : Action ε α} {r : Except ε α} {next : World}
    (h : (x.attempt : Action δ (Except ε α)).exec w = (some (.ok r), next)) :
    x.exec w = (some r, next) := by
  rw [exec_attempt] at h
  revert h
  rcases x.exec w with ⟨_ | r', between⟩
  · exact nofun
  · intro h
    cases h
    rfl

theorem exec_pure_ne_error {a : α} {e : ε} :
    ((pure a : Action ε α).exec w).1 ≠ some (.error e) := nofun

/-- A failure that is caught is not one. -/
theorem exec_attempt_ne_error {x : Action ε α} {e : δ} :
    ((x.attempt : Action δ (Except ε α)).exec w).1 ≠ some (.error e) := by
  rw [exec_attempt]
  rcases x.exec w with ⟨_ | r, next⟩
  · exact nofun
  · exact nofun

/-! ### Undisturbed actions -/

/-- On a disk that nothing disturbs, an action ends with an outcome. It requests nothing and leaves
    nothing behind in the world but notices. -/
def Gives (d : Disk) (x : Action ε α) (r : Except ε α) : Prop :=
  ∀ w : World, w.disk = d → w.verdicts = [] →
    ∃ trace, x.exec w = (some r, { w with trace }) ∧ trace.requests = w.trace.requests

variable {d : Disk} {x : Action ε α} {r : Except ε α}

theorem gives_ofExcept (r : Except ε α) : Gives d (ofExcept r) r :=
  fun w _ _ => ⟨w.trace, rfl, rfl⟩

theorem gives_pure (a : α) : Gives d (pure a : Action ε α) (.ok a) := gives_ofExcept (.ok a)

theorem gives_note (n : Notice) : Gives d (note n : Action ε Unit) (.ok ()) :=
  fun w _ _ => ⟨w.trace.note n, rfl, rfl⟩

theorem Gives.bind {f : α → Action ε β} {a : α} {s : Except ε β} (hx : Gives d x (.ok a))
    (hf : Gives d (f a) s) : Gives d (x >>= f) s := by
  intro w hw hv
  obtain ⟨trace, hnext, hrequests⟩ := hx w hw hv
  obtain ⟨last, hlast, hrequests'⟩ := hf { w with trace } hw hv
  rw [exec_bind, hnext]
  exact ⟨last, hlast, hrequests'.trans hrequests⟩

theorem Gives.bind_error {f : α → Action ε β} {e : ε} (hx : Gives d x (.error e)) :
    Gives d (x >>= f) (.error e) := by
  intro w hw hv
  obtain ⟨trace, hnext, hrequests⟩ := hx w hw hv
  rw [exec_bind, hnext]
  exact ⟨trace, rfl, hrequests⟩

theorem Gives.attempt (hx : Gives d x r) :
    Gives d (x.attempt : Action δ (Except ε α)) (.ok r) := by
  intro w hw hv
  obtain ⟨trace, hnext, hrequests⟩ := hx w hw hv
  rw [exec_attempt, hnext]
  exact ⟨trace, rfl, hrequests⟩

theorem Gives.mapError {f : ε → δ} (hx : Gives d x r) : Gives d (x.mapError f) (r.mapError f) := by
  intro w hw hv
  obtain ⟨trace, hnext, hrequests⟩ := hx w hw hv
  rw [exec_mapError, hnext]
  cases r with
  | ok a => exact ⟨trace, rfl, hrequests⟩
  | error e => exact ⟨trace, rfl, hrequests⟩

/-- A file operation that nothing disturbs and that leaves the disk as it is. -/
theorem gives_operate {op : Disk → Except FileFault (α × Disk)} {torn : Nat → Disk → Disk}
    {r : Except FileFault α} (hop : op d = r.map fun a => (a, d)) :
    Gives d (operate op torn) r := by
  rintro ⟨disk, verdicts, locks, flights, now, tick, trace⟩ rfl rfl
  refine ⟨trace, ?_, rfl⟩
  unfold operate
  rw [exec_of]
  simp only [List.head?_nil, Option.getD_none, List.tail_nil] at hop ⊢
  rw [hop]
  cases r with
  | ok a => rfl
  | error fault => rfl

/-- A look at the disk that nothing disturbs tells what is there. -/
theorem gives_inspect (op : Disk → Except FileFault α) : Gives d (inspect op) (op d) :=
  gives_operate rfl

/-- A change that is refused is no change. -/
theorem gives_alter_error {op : Disk → Except FileFault Disk} {fault : FileFault}
    (hop : op d = .error fault) : Gives d (alter op) (.error fault) :=
  gives_operate (by rw [hop]; rfl)

/-- An undisturbed action has one outcome. -/
theorem Gives.outcome (hx : Gives d x r) {w : World} (hw : w.disk = d) (hv : w.verdicts = []) :
    (x.exec w).1 = some r := by
  obtain ⟨trace, hnext, -⟩ := hx w hw hv
  rw [hnext]

end DatasetCatalog.Action
