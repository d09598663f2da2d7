import DatasetCatalog.Proofs.Disk
import DatasetCatalog.Proofs.Except
import DatasetCatalog.Proofs.World

/-! # Triples

  What an action makes of the disk, whatever becomes of its file operations: from a disk of one
  kind it ends in a disk of another kind when it gives a value, and in one of a third kind when it
  fails or the process stops. Everything else in the world is left open.
-/

namespace DatasetCatalog.Action

variable {ε δ α β : Type}

/-- From a disk of `P`, an action that gives a value ends in a disk of `Q`, and one that fails or
    stops ends in a disk of `R`. -/
def Triple (P : Disk → Prop) (x : Action ε α) (Q : α → Disk → Prop) (R : Disk → Prop) : Prop :=
  ∀ w, P w.disk → match x.exec w with
    | (some (.ok a), next) => Q a next.disk
    | (_, next) => R next.disk

/-- An action ends in a disk of `I` in any case when it begins in one. -/
abbrev Keeps (I : Disk → Prop) (x : Action ε α) : Prop := Triple I x (fun _ => I) I

variable {P P' R R' I : Disk → Prop} {Q Q' : α → Disk → Prop} {S : β → Disk → Prop}
  {x : Action ε α}

/-! ### Structure -/

theorem Triple.consequence (h : Triple P x Q R) (hP : ∀ d, P' d → P d)
    (hQ : ∀ a d, Q a d → Q' a d) (hR : ∀ d, R d → R' d) : Triple P' x Q' R' := by
  intro w hw
  have hx := h w (hP _ hw)
  revert hx
  rcases x.exec w with ⟨_ | _ | a, next⟩
  · exact hR _
  · exact hR _
  · exact hQ a _

theorem Triple.mono (h : Triple P x Q R) (hQ : ∀ a d, Q a d → Q' a d) : Triple P x Q' R :=
  h.consequence (fun _ => id) hQ fun _ => id

/-- Where an action gives no value, less may be told. -/
theorem Triple.weaken (h : Triple P x Q R) (hR : ∀ d, R d → R' d) : Triple P x Q R' :=
  h.consequence (fun _ => id) (fun _ _ => id) hR

/-- An action that leaves every disk alone keeps whatever is true of it. -/
theorem keeps_of_disk_eq (h : ∀ w, (x.exec w).2.disk = w.disk) : Keeps I x := by
  intro w hw
  have hnext : I (x.exec w).2.disk := (congrArg I (h w)).mpr hw
  revert hnext
  rcases x.exec w with ⟨_ | _ | a, next⟩
  · exact id
  · exact id
  · exact id

theorem Triple.disk (hx : Triple P x (fun _ => R) R) {w : World} (hw : P w.disk) :
    R (x.exec w).2.disk := by
  have hx := hx w hw
  revert hx
  rcases x.exec w with ⟨_ | _ | a, next⟩
  · exact id
  · exact id
  · exact id

/-- The disk at the beginning may be given a name. -/
theorem Triple.of_forall (h : ∀ d₀, P d₀ → Triple (· = d₀) x Q R) : Triple P x Q R :=
  fun w hw => h w.disk hw w rfl

/-- An action that leaves the disk as it is keeps all that is known of it. -/
theorem Triple.of_reading {T : α → Disk → Prop}
    (h : ∀ d₀, P d₀ → Triple (· = d₀) x (fun a d => d = d₀ ∧ T a d₀) (· = d₀)) :
    Triple P x (fun a d => P d ∧ T a d) P := by
  refine Triple.of_forall fun d₀ hd₀ => (h d₀ hd₀).consequence (fun _ hd => hd) ?_ ?_
  · rintro a d ⟨rfl, ha⟩
    exact ⟨hd₀, ha⟩
  · rintro d rfl
    exact hd₀

/-- What is read need not be about the disk. -/
theorem Triple.of_same {T : α → Prop}
    (h : ∀ d₀, P d₀ → Triple (· = d₀) x (fun a d => d = d₀ ∧ T a) (· = d₀)) :
    Triple P x (fun a d => P d ∧ T a) P :=
  Triple.of_reading h

theorem keeps_of_same {T : Disk → α → Prop}
    (h : ∀ d₀, Triple (· = d₀) x (fun a d => d = d₀ ∧ T d₀ a) (· = d₀)) : Keeps I x := by
  have hsame : Triple I x (fun _ d => I d ∧ True) I :=
    Triple.of_same fun d₀ _ => (h d₀).mono fun _ _ ha => ⟨ha.1, trivial⟩
  exact hsame.mono fun _ _ ha => ha.1

/-- What is kept can be kept together. -/
theorem keeps_and {J : Disk → Prop} (h : Keeps I x) (h' : Keeps J x) :
    Keeps (fun d => I d ∧ J d) x := by
  intro w hw
  have hI := h w hw.1
  have hJ := h' w hw.2
  revert hI hJ
  rcases x.exec w with ⟨_ | _ | a, next⟩
  · exact And.intro
  · exact And.intro
  · exact And.intro

/-- What is known apart from the disk stays known. -/
theorem Triple.of_and {p : Prop} (h : p → Triple P x Q R) :
    Triple (fun d => P d ∧ p) x Q R :=
  fun w hw => h hw.2 w hw.1

theorem Triple.bind {f : α → Action ε β} (hx : Triple P x Q R) (hf : ∀ a, Triple (Q a) (f a) S R) :
    Triple P (x >>= f) S R := by
  intro w hw
  have hx := hx w hw
  rw [exec_bind]
  revert hx
  rcases x.exec w with ⟨_ | _ | a, next⟩
  · exact id
  · exact id
  · exact hf a next

/-- An action that is caught goes on with its value, or with its error. -/
theorem Triple.attempt_bind {f : Except ε α → Action δ β} (hx : Triple P x Q R)
    (hok : ∀ a, Triple (Q a) (f (.ok a)) S R) (herror : ∀ e, Triple R (f (.error e)) S R) :
    Triple P (x.attempt >>= f) S R := by
  intro w hw
  have hx := hx w hw
  rw [exec_bind, exec_attempt]
  revert hx
  rcases x.exec w with ⟨_ | e | a, next⟩
  · exact id
  · exact herror e next
  · exact hok a next

theorem Triple.mapError {f : ε → δ} (hx : Triple P x Q R) : Triple P (x.mapError f) Q R := by
  intro w hw
  have hx := hx w hw
  rw [exec_mapError]
  revert hx
  rcases x.exec w with ⟨_ | _ | a, next⟩
  · exact id
  · exact id
  · exact id

theorem triple_pure {a : α} (h : ∀ d, P d → Q a d) : Triple P (pure a : Action ε α) Q R :=
  fun w hw => h w.disk hw

theorem triple_throw {e : ε} (h : ∀ d, P d → R d) : Triple P (throw e : Action ε α) Q R :=
  fun w hw => h w.disk hw

theorem triple_stopped (h : ∀ d, P d → R d) : Triple P (stopped : Action ε α) Q R :=
  fun w hw => h w.disk hw

theorem triple_ofExcept {r : Except ε α} (h : ∀ a, r = .ok a → ∀ d, P d → Q a d)
    (h' : ∀ e, r = .error e → ∀ d, P d → R d) : Triple P (ofExcept r) Q R := by
  intro w hw
  cases r with
  | ok a => exact h a rfl _ hw
  | error e => exact h' e rfl _ hw

/-- What is read of the world besides the disk is open. -/
theorem triple_look {f : World → α} (h : ∀ a d, P d → Q a d) :
    Triple P (look f : Action ε α) Q R :=
  fun w hw => h (f w) w.disk hw

theorem triple_change {f : World → World} (hf : ∀ w, (f w).disk = w.disk) :
    Triple P (change f : Action ε Unit) (fun _ => P) R :=
  fun w hw => (congrArg P (hf w)).mpr hw

theorem triple_note (n : Notice) : Triple P (note n : Action ε Unit) (fun _ => P) R :=
  triple_change fun _ => rfl

/-- What is done to the world behind an action, whether it fails or not, leaves the disk alone. -/
theorem Triple.finally {f : World → World} (hf : ∀ w, (f w).disk = w.disk) (hx : Triple P x Q R) :
    Triple P (do let r ← x.attempt; change f; ofExcept r) Q R := by
  refine hx.attempt_bind (fun a => ?_) fun e => ?_
  · exact (triple_change hf).bind fun _ => triple_pure fun _ hd => hd
  · exact (triple_change hf).bind fun _ => triple_throw fun _ hd => hd

theorem keeps_pure (a : α) : Keeps I (pure a : Action ε α) := triple_pure fun _ h => h

theorem keeps_throw (e : ε) : Keeps I (throw e : Action ε α) := triple_throw fun _ h => h

theorem keeps_ofExcept (r : Except ε α) : Keeps I (ofExcept r) :=
  triple_ofExcept (fun _ _ _ h => h) fun _ _ _ h => h

theorem keeps_look (f : World → α) : Keeps I (look f : Action ε α) := triple_look fun _ _ h => h

theorem triple_stamp : Triple P (stamp : Action ε Timestamp) (fun _ => P) R := fun _ hw => hw

/-! ### File operations -/

theorem triple_operate {op : Disk → Except FileFault (α × Disk)} {torn : Nat → Disk → Disk}
    (hok : ∀ d a d', P d → op d = .ok (a, d') → Q a d') (hR : ∀ d, P d → R d)
    (htorn : ∀ n d, P d → R (torn n d)) : Triple P (operate op torn) Q R := by
  intro w hw
  unfold operate
  rw [exec_of]
  rcases w.verdicts.head?.getD .proceed with _ | n | n
  · rcases hop : op w.disk with fault | ⟨a, d'⟩
    · exact hR _ hw
    · exact hok _ _ _ hw hop
  · exact htorn n _ hw
  · exact htorn n _ hw

theorem triple_inspect {op : Disk → Except FileFault α}
    (hok : ∀ d a, P d → op d = .ok a → Q a d) (hR : ∀ d, P d → R d) :
    Triple P (inspect op) Q R := by
  refine triple_operate ?_ hR fun _ d hd => hR d hd
  intro d a d' hd hop
  obtain ⟨b, hb, heq⟩ := map_eq_ok_iff.1 hop
  cases heq
  exact hok d a hd hb

theorem keeps_inspect (op : Disk → Except FileFault α) : Keeps I (inspect op) :=
  triple_inspect (fun _ _ h _ => h) fun _ h => h

theorem triple_alter {op : Disk → Except FileFault Disk} {T : Unit → Disk → Prop}
    (hok : ∀ d d', P d → op d = .ok d' → T () d') (hR : ∀ d, P d → R d) :
    Triple P (alter op) T R := by
  refine triple_operate ?_ hR fun _ d hd => hR d hd
  intro d a d' hd hop
  obtain ⟨b, hb, heq⟩ := map_eq_ok_iff.1 hop
  cases heq
  exact hok d d' hd hb

theorem exec_alter (op : Disk → Except FileFault Disk) (w : World) :
    (alter op).exec w = match w.verdicts.head?.getD .proceed with
      | .proceed => match op w.disk with
        | .ok disk => (some (.ok ()), { w with disk, verdicts := w.verdicts.tail })
        | .error fault => (some (.error fault), { w with verdicts := w.verdicts.tail })
      | .fail _ => (some (.error .refused), { w with verdicts := w.verdicts.tail })
      | .stop _ => (none, { w with verdicts := w.verdicts.tail }) := by
  unfold alter operate
  rw [exec_of]
  rcases w.verdicts.head?.getD .proceed with _ | n | n
  · dsimp only
    cases op w.disk with
    | error fault => rfl
    | ok d' => rfl
  · rfl
  · rfl

/-- What is read is what is on the disk. -/
theorem triple_readBytes (d₀ : Disk) (p : Path) :
    Triple (· = d₀) (readBytes p) (fun bytes d => d = d₀ ∧ d₀.read p = .ok bytes) (· = d₀) :=
  triple_inspect (fun _ _ hd hbytes => ⟨hd, hd ▸ hbytes⟩) fun _ hd => hd

/-- A failed write may leave a beginning of the bytes. -/
theorem triple_writeBytes {p : Path} {bytes : ByteArray} {T : Unit → Disk → Prop}
    (hok : ∀ d d', P d → d.write p bytes = .ok d' → T () d') (hR : ∀ d, P d → R d)
    (htorn : ∀ d d' part, P d → d.write p part = .ok d' → R d') :
    Triple P (writeBytes p bytes) T R := by
  refine triple_operate ?_ hR ?_
  · intro d a d' hd hop
    obtain ⟨b, hb, heq⟩ := map_eq_ok_iff.1 hop
    cases heq
    exact hok d d' hd hb
  · intro n d hd
    rcases hwrite : d.write p (bytes.extract 0 n) with fault | d'
    · exact hR d hd
    · exact htorn d d' _ hd hwrite

/-- After a removal there is no file, whether there was one or not. -/
theorem triple_removeIfPresent {p : Path} {T : Unit → Disk → Prop}
    (hok : ∀ d d', P d → d.remove p = .ok d' → T () d')
    (hmissing : ∀ d, P d → d.look p = .error .missing → T () d) (hR : ∀ d, P d → R d) :
    Triple P (removeIfPresent p) T R := by
  intro w hw
  unfold removeIfPresent remove
  rw [exec_bind, exec_attempt, exec_alter]
  rcases w.verdicts.head?.getD .proceed with _ | n | n
  · rcases hop : w.disk.remove p with fault | d'
    · cases fault with
      | missing =>
        refine hmissing _ hw ?_
        unfold Disk.remove at hop
        split at hop
        · cases hop
        · cases hop
        · next hlook =>
          cases hop
          exact hlook
      | notDirectory | refused => exact hR _ hw
    · exact hok _ _ hw hop
  · exact hR _ hw
  · exact hR _ hw

/-! ### Directories -/

theorem keeps_makeDirectory {p : Path} (h : ∀ d d', I d → d.makeDirectory p = .ok d' → I d') :
    Keeps I (makeDirectory p) := by
  unfold makeDirectory
  refine (triple_alter (T := fun _ => I) h fun _ hd => hd).attempt_bind (fun _ => keeps_pure _) ?_
  -- it is not made, but it may be there already
  intro fault
  cases fault with
  | missing => exact keeps_throw _
  | notDirectory | refused =>
    refine (keeps_inspect _).bind fun b => ?_
    split
    · exact keeps_pure _
    · exact keeps_throw _

/-- What every new directory of some paths keeps, the making of all directories of such a path
    keeps, when the paths above are such paths as well. -/
theorem keeps_makeDirectories_of {C : Path → Prop} {p : Path} (hp : C p)
    (hparent : ∀ q, C q → C q.parent)
    (h : ∀ q d d', C q → I d → d.makeDirectory q = .ok d' → I d') : Keeps I (makeDirectories p) := by
  -- the depth counts the directories above that may still be missing
  have hall : ∀ (depth : Nat) (q : Path), C q → Keeps I (makeDirectoriesTo q depth) := by
    intro depth
    induction depth with
    | zero => exact fun q hq => keeps_makeDirectory fun d d' => h q d d' hq
    | succ depth ih =>
      intro q hq
      have hmake : Keeps I (makeDirectory q) := keeps_makeDirectory fun d d' => h q d d' hq
      unfold makeDirectoriesTo
      refine hmake.attempt_bind (fun _ => keeps_pure _) fun fault => ?_
      cases fault with
      | missing => exact (ih q.parent (hparent q hq)).bind fun _ => hmake
      | notDirectory | refused => exact keeps_throw _
  exact hall _ p hp

/-- What every new directory of a well-formed path keeps, the making of all directories of a path
    keeps. -/
theorem keeps_makeDirectories {p : Path} (hp : p.WellFormed)
    (h : ∀ q d d', q.WellFormed → I d → d.makeDirectory q = .ok d' → I d') :
    Keeps I (makeDirectories p) :=
  keeps_makeDirectories_of hp (fun _ => Path.wellFormed_parent) h

/-- Making a directory that is there changes nothing, and it is not told that anything above it is
    missing. -/
theorem makeDirectory_there {p : Path} {w : World} (hdir : w.disk.isDirectory p = true) :
    ((makeDirectory p).exec w).2.disk = w.disk ∧
      ((makeDirectory p).exec w).1 ≠ some (.error .missing) := by
  have hrefused := Disk.makeDirectory_of_isDirectory hdir
  unfold makeDirectory
  rw [exec_bind, exec_attempt, exec_alter, hrefused]
  have hlook : ∀ next : World, next.disk = w.disk →
      ((do if ← inspect fun d => .ok (d.isDirectory p) then return else throw .refused :
        Action FileFault Unit).exec next).2.disk = w.disk ∧
      ((do if ← inspect fun d => .ok (d.isDirectory p) then return else throw .refused :
        Action FileFault Unit).exec next).1 ≠ some (.error .missing) := by
    intro next hnext
    unfold inspect operate
    rw [exec_bind, exec_of]
    rcases next.verdicts.head?.getD .proceed with _ | n | n
    · simp only [Except.map, hnext, hdir]
      exact ⟨rfl, nofun⟩
    · exact ⟨hnext, nofun⟩
    · exact ⟨hnext, nofun⟩
  rcases w.verdicts.head?.getD .proceed with _ | n | n
  · exact hlook _ rfl
  · exact hlook _ rfl
  · exact ⟨rfl, nofun⟩

theorem keeps_makeDirectories_there {p : Path} {d : Disk} (hdir : d.isDirectory p = true) :
    Keeps (· = d) (makeDirectories p) := by
  have hall : ∀ (depth : Nat), Keeps (· = d) (makeDirectoriesTo p depth) := by
    intro depth
    cases depth with
    | zero =>
      rintro w rfl
      have hthere := makeDirectory_there hdir
      revert hthere
      unfold makeDirectoriesTo
      rcases (makeDirectory p).exec w with ⟨_ | _ | _, next⟩
      · exact fun h => h.1
      · exact fun h => h.1
      · exact fun h => h.1
    | succ depth =>
      rintro w rfl
      have hthere := makeDirectory_there hdir
      revert hthere
      unfold makeDirectoriesTo
      rw [exec_bind, exec_attempt]
      rcases (makeDirectory p).exec w with ⟨_ | fault | _, next⟩
      · exact fun h => h.1
      · cases fault with
        | missing => exact fun h => absurd rfl h.2
        | notDirectory | refused => exact fun h => h.1
      · exact fun h => h.1
  exact hall _

theorem gives_makeDirectories_there {p : Path} {d : Disk} (hdir : d.isDirectory p = true) :
    Gives d (makeDirectories p) (.ok ()) := by
  have hmake : Gives d (makeDirectory p) (.ok ()) := by
    have hlook : Gives d (inspect fun d => .ok (d.isDirectory p)) (.ok true) :=
      hdir ▸ gives_inspect _
    unfold makeDirectory
    refine (gives_alter_error (Disk.makeDirectory_of_isDirectory hdir)).attempt.bind ?_
    exact hlook.bind (gives_pure ())
  have hall : ∀ depth, Gives d (makeDirectoriesTo p depth) (.ok ()) := by
    intro depth
    cases depth with
    | zero => exact hmake
    | succ depth => exact hmake.attempt.bind (gives_pure ())
  exact hall _

end DatasetCatalog.Action
