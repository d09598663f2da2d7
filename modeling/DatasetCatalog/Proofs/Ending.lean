import DatasetCatalog.Proofs.Except
import DatasetCatalog.Proofs.Local

/-! # How actions end

  The errors of an action are of a kind when every error that it ends with is, in whatever world it
  runs and whatever becomes of its file operations. Where an action turns the errors of another one
  into errors of the kind, it does not matter what the other one fails with. A run that nothing
  disturbs finishes when it comes to an end, with an error of the kind if it fails.
-/

namespace DatasetCatalog.Action

variable {ε δ α β : Type} {P : ε → Prop} {Q : δ → Prop} {x : Action ε α}

/-! ### Kinds of errors -/

/-- A local action whose errors are of the kind, in whatever world it runs and whatever becomes of
    its file operations. -/
structure Confined (P : ε → Prop) (x : Action ε α) : Prop where
  isLocal : Local x
  error : ∀ w e, (x.exec w).1 = some (.error e) → P e

theorem Local.confined (hx : Local x) (hok : ∀ w, ∃ a, (x.exec w).1 = some (.ok a)) :
    Confined P x where
  isLocal := hx
  error := by
    intro w e he
    obtain ⟨a, ha⟩ := hok w
    rw [ha] at he
    exact absurd he nofun

theorem confined_pure (a : α) : Confined P (pure a : Action ε α) :=
  (local_pure a).confined fun _ => ⟨a, rfl⟩

theorem confined_look (f : World → α) : Confined P (look f : Action ε α) :=
  (local_look f).confined fun w => ⟨f w, rfl⟩

theorem confined_change {f : World → World} (hf : Local (change f : Action ε Unit)) :
    Confined P (change f : Action ε Unit) :=
  hf.confined fun _ => ⟨(), rfl⟩

theorem confined_throw {e : ε} (h : P e) : Confined P (throw e : Action ε α) where
  isLocal := local_throw e
  error := by
    intro w e' he
    obtain rfl := Except.error.inj (Option.some.inj he)
    exact h

theorem Confined.bind {f : α → Action ε β} (hx : Confined P x) (hf : ∀ a, Confined P (f a)) :
    Confined P (x >>= f) where
  isLocal := hx.isLocal.bind fun a => (hf a).isLocal
  error := by
    intro w e
    have hx := hx.error w
    rw [exec_bind]
    revert hx
    rcases x.exec w with ⟨_ | e' | a, next⟩
    · exact fun _ => nofun
    · intro hx he
      obtain rfl := Except.error.inj (Option.some.inj he)
      exact hx e' rfl
    · exact fun _ => (hf a).error next e

/-- Turned into errors of the kind, the errors of any local action are of the kind. -/
theorem Local.confined_mapError {f : ε → δ} (hx : Local x) (hf : ∀ e, Q (f e)) :
    Confined Q (x.mapError f) where
  isLocal := hx.mapError
  error := by
    intro w e
    rw [exec_mapError]
    rcases x.exec w with ⟨_ | e' | a, next⟩
    · exact nofun
    · intro he
      obtain rfl := Except.error.inj (Option.some.inj he)
      exact hf e'
    · exact nofun

/-- What is done behind an action, whether it fails or not, does not change its error. -/
theorem Confined.finally {f : World → World} (hx : Confined P x)
    (hf : Local (change f : Action ε Unit)) :
    Confined P (do let r ← x.attempt; change f; ofExcept r) where
  isLocal := hx.isLocal.finally hf
  error := by
    intro w e
    have hx := hx.error w
    rw [exec_bind, exec_attempt]
    revert hx
    rcases x.exec w with ⟨_ | r, next⟩
    · exact fun _ => nofun
    · exact fun hx he => hx e he

/-! ### Reading -/

/-- On a disk that nothing disturbs, the action leaves the disk alone and ends, with an error of the
    kind if it fails. -/
def Settles (d : Disk) (P : ε → Prop) (x : Action ε α) : Prop :=
  ∃ r, Gives d x r ∧ ∀ e, r = .error e → P e

variable {d : Disk}

theorem Gives.settles {r : Except ε α} (hx : Gives d x r) (hr : ∀ e, r = .error e → P e) :
    Settles d P x := ⟨r, hx, hr⟩

theorem Gives.settles_ok {a : α} (hx : Gives d x (.ok a)) : Settles d P x := hx.settles (by simp)

theorem settles_pure (a : α) : Settles d P (pure a : Action ε α) := (gives_pure a).settles_ok

theorem settles_note (n : Notice) : Settles d P (note n : Action ε Unit) :=
  (gives_note n).settles_ok

theorem settles_inspect {P : FileFault → Prop} {op : Disk → Except FileFault α}
    (h : ∀ fault, op d = .error fault → P fault) : Settles d P (inspect op) :=
  (gives_inspect op).settles h

theorem Settles.bind {f : α → Action ε β} (hx : Settles d P x) (hf : ∀ a, Settles d P (f a)) :
    Settles d P (x >>= f) := by
  obtain ⟨r, hr, herror⟩ := hx
  cases r with
  | error e => exact hr.bind_error.settles fun e' he => herror e' (by simpa using he)
  | ok a =>
    obtain ⟨s, hs, herror'⟩ := hf a
    exact ⟨s, hr.bind hs, herror'⟩

theorem Settles.mapError {f : ε → δ} (hx : Settles d P x) (hf : ∀ e, P e → Q (f e)) :
    Settles d Q (x.mapError f) := by
  obtain ⟨r, hr, herror⟩ := hx
  refine hr.mapError.settles ?_
  intro e he
  obtain ⟨e', rfl, rfl⟩ := mapError_eq_error_iff.1 he
  exact hf e' (herror e' rfl)

/-! ### Undisturbed runs -/

/-- In the world the action ends and leaves no verdicts, with an error of the kind if it fails. -/
def Finishes (P : ε → Prop) (x : Action ε α) (w : World) : Prop :=
  ∃ r next, x.exec w = (some r, next) ∧ next.verdicts = [] ∧ ∀ e, r = .error e → P e

variable {w : World}

theorem finishes_pure (a : α) (hv : w.verdicts = []) : Finishes P (pure a : Action ε α) w :=
  ⟨.ok a, w, rfl, hv, nofun⟩

theorem finishes_throw {e : ε} (h : P e) (hv : w.verdicts = []) :
    Finishes P (throw e : Action ε α) w := by
  refine ⟨.error e, w, rfl, hv, ?_⟩
  rintro e' he
  exact Except.error.inj he ▸ h

theorem Confined.finishes (hx : Confined P x) (hv : w.verdicts = []) : Finishes P x w := by
  obtain ⟨hends, hnone⟩ := (hx.isLocal w).2 hv
  obtain ⟨r, hr⟩ := Option.isSome_iff_exists.1 hends
  refine ⟨r, (x.exec w).2, Prod.ext hr rfl, hnone, ?_⟩
  rintro e rfl
  exact hx.error w e hr

theorem Settles.finishes (hx : Settles w.disk P x) (hv : w.verdicts = []) : Finishes P x w := by
  obtain ⟨r, hr, herror⟩ := hx
  obtain ⟨trace, hexec, -⟩ := hr w rfl hv
  exact ⟨r, _, hexec, hv, herror⟩

theorem exec_of_mapError_ok {f : ε → δ} {a : α} {w next : World}
    (h : (x.mapError f).exec w = (some (.ok a), next)) : x.exec w = (some (.ok a), next) := by
  rw [exec_mapError] at h
  rcases hx : x.exec w with ⟨_ | _ | b, last⟩
  · rw [hx] at h
    exact absurd h nofun
  · rw [hx] at h
    exact absurd h nofun
  · rw [hx] at h
    cases h
    rfl

theorem Finishes.bind {f : α → Action ε β} (hx : Finishes P x w)
    (hf : ∀ a next, x.exec w = (some (.ok a), next) → next.verdicts = [] → Finishes P (f a) next) :
    Finishes P (x >>= f) w := by
  obtain ⟨r, next, hexec, hv, herror⟩ := hx
  cases r with
  | error e =>
    refine ⟨.error e, next, by rw [exec_bind, hexec], hv, ?_⟩
    rintro e' he
    obtain rfl := Except.error.inj he
    exact herror e rfl
  | ok a =>
    obtain ⟨s, last, hlast, hv', herror'⟩ := hf a next hexec hv
    exact ⟨s, last, by rw [exec_bind, hexec]; exact hlast, hv', herror'⟩

/-- An action goes on with the outcome of another one. -/
theorem Finishes.attempt_bind {f : Except ε α → Action δ β} (hx : Finishes P x w)
    (hf : ∀ r next, next.verdicts = [] → (∀ e, r = .error e → P e) → Finishes Q (f r) next) :
    Finishes Q (x.attempt >>= f) w := by
  obtain ⟨r, next, hexec, hv, herror⟩ := hx
  obtain ⟨s, last, hlast, hv', herror'⟩ := hf r next hv herror
  exact ⟨s, last, by rw [exec_bind, exec_attempt, hexec]; exact hlast, hv', herror'⟩

end DatasetCatalog.Action
