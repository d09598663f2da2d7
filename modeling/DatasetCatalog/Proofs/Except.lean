/-! # Computations that succeed

  A chain of steps that ends well has ended well at each step, so what the chain gives can be
  taken apart step by step.
-/

namespace DatasetCatalog

variable {ε α β : Type}

/-- A sequence succeeds exactly when both parts do. -/
theorem bind_eq_ok_iff {x : Except ε α} {f : α → Except ε β} {b : β} :
    x >>= f = .ok b ↔ ∃ a, x = .ok a ∧ f a = .ok b := by
  cases x <;> simp [bind, Except.bind]

theorem map_eq_ok_iff {x : Except ε α} {f : α → β} {b : β} :
    x.map f = .ok b ↔ ∃ a, x = .ok a ∧ f a = b := by
  cases x <;> simp [Except.map]

/-- A sequence fails exactly when one of the parts does. -/
theorem bind_eq_error_iff {x : Except ε α} {f : α → Except ε β} {e : ε} :
    x >>= f = .error e ↔ x = .error e ∨ ∃ a, x = .ok a ∧ f a = .error e := by
  cases x <;> simp [bind, Except.bind]

theorem map_eq_error_iff {x : Except ε α} {f : α → β} {e : ε} :
    x.map f = .error e ↔ x = .error e := by
  cases x <;> simp [Except.map]

theorem mapError_eq_ok_iff {ε' : Type} {x : Except ε α} {f : ε → ε'} {a : α} :
    x.mapError f = .ok a ↔ x = .ok a := by
  cases x with
  | error e =>
    show Except.error (f e) = .ok a ↔ _
    simp
  | ok b =>
    show Except.ok b = .ok a ↔ _
    simp

theorem mapError_eq_error_iff {ε' : Type} {x : Except ε α} {f : ε → ε'} {e : ε'} :
    x.mapError f = .error e ↔ ∃ e', x = .error e' ∧ f e' = e := by
  cases x with
  | error e' =>
    show Except.error (f e') = .error e ↔ _
    simp
  | ok a =>
    show Except.ok a = .error e ↔ _
    simp

theorem exists_eq_ok {x : Except ε α} (h : x.isOk = true) : ∃ a, x = .ok a := by
  cases x with
  | error e => exact absurd h Bool.false_ne_true
  | ok a => exact ⟨a, rfl⟩

/-- What can be done to every element is done to all of them. -/
theorem exists_mapM_ok {γ : Type} {f : α → Except ε β} {view : β → γ} {g : α → γ} {xs : List α}
    (h : ∀ x ∈ xs, ∃ y, f x = .ok y ∧ view y = g x) :
    ∃ ys, xs.mapM f = .ok ys ∧ ys.map view = xs.map g := by
  induction xs with
  | nil => exact ⟨[], rfl, rfl⟩
  | cons x xs ih =>
    obtain ⟨y, hy, hview⟩ := h x List.mem_cons_self
    obtain ⟨ys, hys, hviews⟩ := ih fun x' hx' => h x' (List.mem_cons_of_mem x hx')
    refine ⟨y :: ys, ?_, by rw [List.map_cons, List.map_cons, hview, hviews]⟩
    rw [List.mapM_cons, hy, hys]
    rfl

/-! ### Without the reason

  Two computations that may fail for different reasons are compared by what is left of them when
  the reason is forgotten. -/

theorem toOption_map (x : Except ε α) (f : α → β) :
    (x.map f).toOption = x.toOption.map f := by
  cases x <;> rfl

theorem toOption_mapError {ε' : Type} (x : Except ε α) (f : ε → ε') :
    (x.mapError f).toOption = x.toOption := by
  cases x <;> rfl

theorem toOption_eq_some_iff {x : Except ε α} {a : α} : x.toOption = some a ↔ x = .ok a := by
  cases x <;> simp [Except.toOption]

theorem toOption_eq_none_iff {x : Except ε α} : x.toOption = none ↔ ∃ e, x = .error e := by
  cases x <;> simp [Except.toOption]

/-! ### Reasons told anew

  Two computations that take the same course but tell their reasons differently are related by a
  translation of the reasons, step by step. -/

section Anew

variable {ε' : Type} {g : ε → ε'}

theorem mapError_bind_congr {x : Except ε α} {x' : Except ε' α} {f : α → Except ε β}
    {f' : α → Except ε' β} (hx : x' = x.mapError g) (hf : ∀ a, f' a = (f a).mapError g) :
    x' >>= f' = (x >>= f).mapError g := by
  subst hx
  cases x with
  | error e => rfl
  | ok a => exact hf a

theorem mapError_map_congr {x : Except ε α} {x' : Except ε' α} (hx : x' = x.mapError g)
    (f : α → β) : x'.map f = (x.map f).mapError g := by
  subst hx
  cases x <;> rfl

end Anew

/-! ### Other values

  Two computations that take the same course over values and over their images give a value and its
  image. Of two computations that give the same, one may keep to values with a property. -/

theorem map_bind_congr {α' β' : Type} {g : α → α'} {k : β → β'} {x : Except ε α} {x' : Except ε α'}
    {f : α → Except ε β} {f' : α' → Except ε β'} (hx : x' = x.map g)
    (hf : ∀ a, f' (g a) = (f a).map k) : x' >>= f' = (x >>= f).map k := by
  subst hx
  cases x with
  | error e => rfl
  | ok a => exact hf a

/-- The second computation gives what the first one gives, if it is kept. -/
def Screens (keep : α → Prop) (x x' : Except ε α) : Prop :=
  ∀ a, x' = .ok a ↔ x = .ok a ∧ keep a

namespace Screens

variable {keep : α → Prop} {keep' : β → Prop} {x x' : Except ε α} {f f' : α → Except ε β}

theorem of_error (e e' : ε) : Screens keep (.error e : Except ε α) (.error e') := by
  intro a
  simp

theorem of_ok {a : α} (h : keep a) : Screens keep (.ok a : Except ε α) (.ok a) := by
  intro b
  refine ⟨fun hb => ⟨hb, ?_⟩, And.left⟩
  obtain rfl := Except.ok.inj hb
  exact h

theorem of_eq (h : x' = x) (hkeep : ∀ a, x = .ok a → keep a) : Screens keep x x' := by
  intro a
  rw [h]
  exact ⟨fun ha => ⟨ha, hkeep a ha⟩, And.left⟩

/-- What is not kept is not given. -/
theorem exists_error (h : Screens keep x x') (hlost : ∀ a, x = .ok a → ¬keep a) :
    ∃ e, x' = .error e := by
  cases hx : x' with
  | error e => exact ⟨e, rfl⟩
  | ok a =>
    obtain ⟨ha, hkept⟩ := (h a).1 hx
    exact absurd hkept (hlost a ha)

/-- A sequence is screened step by step, when what is kept in the end has been kept before. -/
theorem bind (hx : Screens keep x x') (hf : ∀ a, x = .ok a → keep a → Screens keep' (f a) (f' a))
    (hkeep : ∀ a b, x = .ok a → f a = .ok b → keep' b → keep a) :
    Screens keep' (x >>= f) (x' >>= f') := by
  intro b
  rw [bind_eq_ok_iff, bind_eq_ok_iff]
  constructor
  · rintro ⟨a, ha, hb⟩
    obtain ⟨ha, hkept⟩ := (hx a).1 ha
    obtain ⟨hb, hkept'⟩ := (hf a ha hkept b).1 hb
    exact ⟨⟨a, ha, hb⟩, hkept'⟩
  · rintro ⟨⟨a, ha, hb⟩, hkept'⟩
    have hkept := hkeep a b ha hb hkept'
    exact ⟨a, (hx a).2 ⟨ha, hkept⟩, (hf a ha hkept b).2 ⟨hb, hkept'⟩⟩

theorem bind_left (hf : ∀ a, Screens keep' (f a) (f' a)) :
    Screens keep' (x >>= f) (x >>= f') := by
  have hx : Screens (fun _ => True) x x := of_eq rfl fun _ _ => trivial
  exact hx.bind (fun a _ _ => hf a) fun _ _ _ _ _ => trivial

end Screens

/-! ### Giving up -/

theorem throw_bind_eq (e : ε) (f : α → Except ε β) : (throw e : Except ε α) >>= f = .error e :=
  rfl

@[simp] theorem throw_ne_ok (e : ε) (a : α) : (throw e : Except ε α) ≠ .ok a :=
  nofun

end DatasetCatalog
