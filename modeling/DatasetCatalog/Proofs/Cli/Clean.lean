import DatasetCatalog.Plain
import DatasetCatalog.Proofs.Cli.Quiet
import DatasetCatalog.Proofs.Ending

/-! # Commands that fail leave nothing behind

  A command works in two parts. The first one, which resolves the settings, asks the catalog and
  works on the cache, is quiet; the second one prints, and writes a table when one is asked for,
  and none of its errors has a report. So whenever an error is reported by an exit code, it comes
  from the first part, and nothing has been printed or written.
-/

namespace DatasetCatalog.Cli

open DatasetCatalog.Action DatasetCatalog.Catalog

variable {α β : Type} {x : Action Failure α} {body : Action Failure Nat} {w next : World}
  {s : Surroundings} {inv : Invocation} {failed : Prop}

/-! ### What is left behind -/

/-- Nothing is to be seen: the same has been printed, and no table file has come to be. -/
structure Unseen (w next : World) : Prop where
  lines : next.trace.lines = w.trace.lines
  tables : Disk.NoNewTable w.disk next.disk

/-- Every connection that was opened has been closed. -/
def Tidy (w next : World) : Prop :=
  ∃ opened, next.trace.connections = w.trace.connections ++ opened ∧
    ∀ c ∈ opened, c.isOpen = false

/-- A run that begins in a world is clean: it ends with one of three exit codes if it ends with
    any, with code three exactly when the settings failed. Connections are closed, and nothing is
    to be seen when the code is not zero. -/
structure Clean (failed : Prop) (w : World) (r : Option (Except Failure Nat) × World) : Prop where
  code : ∀ n, r.1 = some (.ok n) → n = 0 ∨ n = 2 ∨ n = 3
  three : r.1 = some (.ok 3) ↔ failed
  tidy : r.1 ≠ none → Tidy w r.2
  unseen : ∀ n, r.1 = some (.ok n) → n ≠ 0 → Unseen w r.2

theorem unseen_of_moves (h : Disk.NoNewTable w.disk next.disk ∧ w.trace.SameOutput next.trace) :
    Unseen w next := ⟨h.2.lines, h.1⟩

theorem tidy_of_same (h : next.trace.connections = w.trace.connections) : Tidy w next :=
  ⟨[], h.trans (List.append_nil _).symm, fun _ hc => absurd hc List.not_mem_nil⟩

/-! ### Printing -/

/-- The same connections have been opened and closed. -/
def SameConnections (t t' : Trace) : Prop := t'.connections = t.connections

instance : Std.Refl SameConnections := ⟨fun _ => rfl⟩

instance : IsTrans Trace SameConnections := ⟨fun _ _ _ h h' => h'.trans h⟩

/-- Whatever becomes of the disk. -/
def AnyDisk (_ _ : Disk) : Prop := True

instance : Std.Refl AnyDisk := ⟨fun _ => trivial⟩

instance : IsTrans Disk AnyDisk := ⟨fun _ _ _ _ _ => trivial⟩

/-- The error has no report, so it ends the program. -/
def Failure.Unreported (e : Failure) : Prop := e.report? = none

/-- The action opens and closes no connection, and none of its errors has a report. -/
structure Printing (x : Action Failure α) : Prop where
  moves : Moves AnyDisk SameConnections x
  errors : Confined Failure.Unreported x

theorem printing_pure (a : α) : Printing (pure a : Action Failure α) :=
  ⟨moves_pure a, confined_pure a⟩

theorem Printing.bind {f : α → Action Failure β} (hx : Printing x) (hf : ∀ a, Printing (f a)) :
    Printing (x >>= f) :=
  ⟨hx.moves.bind fun a => (hf a).moves, hx.errors.bind fun a => (hf a).errors⟩

theorem printing_print (line : String) : Printing (Action.print line) :=
  ⟨moves_change (fun _ => rfl) fun _ => rfl,
    confined_change (local_change (fun _ => rfl) fun _ => rfl)⟩

theorem printing_tell (severity : Severity) (text : String) : Printing (tell severity text) :=
  ⟨moves_change (fun _ => rfl) fun _ => rfl, confined_change (local_note _)⟩

theorem printing_forM {items : List β} {f : β → Action Failure PUnit}
    (hf : ∀ b, Printing (f b)) : Printing (items.forM f) := by
  induction items with
  | nil => exact printing_pure _
  | cons item items ih => exact (hf item).bind fun _ => ih

/-- A table that cannot be written ends the program. -/
theorem printing_writeTable (libraries : FrameLibraries) (path : Path) (format : OutputFormat)
    (t : Table) : Printing (writeTable libraries path format t) := by
  have hmake : Printing ((makeDirectories path.parent).mapError Failure.file) :=
    ⟨(moves_makeDirectories (D := AnyDisk) (fun _ _ _ _ => trivial) _).mapError,
      (filing_makeDirectories _).isLocal.confined_mapError fun _ => rfl⟩
  have hencode : Printing ((Action.ofExcept (format.encode libraries t)).mapError
      Failure.foreign) :=
    ⟨(moves_ofExcept _).mapError, (local_ofExcept _).confined_mapError fun _ => rfl⟩
  have hwrite : ∀ bytes, Printing ((writeBytes path bytes).mapError Failure.file) := fun bytes =>
    ⟨(moves_writeBytes (D := AnyDisk) (fun _ _ _ _ => trivial) bytes).mapError,
      (filing_operate _ _).isLocal.confined_mapError fun _ => rfl⟩
  unfold writeTable
  exact hmake.bind fun _ => hencode.bind fun bytes => (hwrite bytes).bind fun _ =>
    printing_tell _ _

/-! ### Bodies of commands -/

/-- The action opens and closes no connection, and where its error has a report nothing is to be
    seen. -/
structure Careful (x : Action Failure α) : Prop where
  moves : Moves AnyDisk SameConnections x
  unseen : ∀ w e next, x.exec w = (some (.error e), next) → ¬e.Unreported → Unseen w next

theorem moves_of_quiet (h : Quiet x) : Moves AnyDisk SameConnections x :=
  Moves.mono h (fun _ _ _ => trivial) fun _ _ => Trace.SameOutput.connections

/-- **Quiet work before printing is careful.** -/
theorem careful_bind {f : α → Action Failure β} (hx : Quiet x) (hf : ∀ a, Printing (f a)) :
    Careful (x >>= f) where
  moves := (moves_of_quiet hx).bind fun a => (hf a).moves
  unseen := by
    intro w e next hexec hreported
    rcases exec_bind_error hexec with hfirst | ⟨a, between, -, hrest⟩
    · have hmoved := hx w
      rw [hfirst] at hmoved
      exact unseen_of_moves hmoved
    · have herror := (hf a).errors.error between e (congrArg Prod.fst hrest)
      exact absurd herror hreported

theorem careful_ask_bind {f : α → Action Failure β} {q : Exchange α} (hq : Client.Discreet q)
    (hf : ∀ a, Printing (f a)) : Careful (ask q >>= f) :=
  careful_bind (Load.quiet_exchange hq).mapError hf

theorem careful_printTags (client : Client) : Careful (printTags client) := by
  unfold printTags
  refine careful_ask_bind client.discreet_listTags fun tags => ?_
  exact (printing_forM printing_print).bind fun _ => printing_tell _ _

theorem careful_printListing (client : Client) (tag filter : Option String)
    (limit : Option Nat) : Careful (printListing client tag filter limit) := by
  unfold printListing
  refine careful_ask_bind (client.discreet_listDatasets tag _) fun found => ?_
  refine (printing_print _).bind fun _ => ?_
  exact (printing_forM fun _ => printing_print _).bind fun _ => printing_tell _ _

theorem careful_printDescription (client : Client) (id : Int) (attributes : Bool) :
    Careful (printDescription client id attributes) := by
  unfold printDescription
  exact careful_ask_bind (client.discreet_describe id) fun d => printing_forM printing_print

theorem careful_loadAndPrint (libraries : FrameLibraries) (client : Client) (id : Int)
    (options : LoadOptions libraries.Frame) (output : Option (Path × OutputFormat)) :
    Careful (loadAndPrint libraries client id options output) := by
  unfold loadAndPrint
  refine careful_bind (quiet_load libraries client client.settings.cacheRoot 0 _ options).mapError
    fun container => ?_
  cases container with
  | frame => exact printing_pure _
  | table t =>
    refine (printing_forM fun _ => printing_print _).bind fun _ => ?_
    refine (printing_tell _ _).bind fun _ => ?_
    cases output with
    | none => exact printing_pure _
    | some named => exact printing_writeTable libraries named.1 named.2 t

theorem careful_printEntries (c : Cache) : Careful (printEntries c) := by
  unfold printEntries
  refine careful_bind (c.quiet_entries).mapError fun entries => ?_
  exact (printing_forM fun _ => printing_print _).bind fun _ => printing_print _

theorem careful_pruneCache (limit : Int) (c : Cache) : Careful (pruneCache limit c) := by
  unfold pruneCache
  exact careful_bind (c.quiet_prune limit).mapError fun evicted => printing_tell _ _

theorem careful_clearCache (c : Cache) : Careful (clearCache c) := by
  unfold clearCache
  exact careful_bind c.quiet_clear.mapError fun count => printing_tell _ _

/-! ### Exit codes -/

theorem exec_reporting (code : Nat) (say : Report → String) (body : Action Failure Nat)
    (w : World) : (reporting code say body).exec w = match body.exec w with
      | (none, next) => (none, next)
      | (some (.ok n), next) => (some (.ok n), next)
      | (some (.error e), next) => match e.report? with
        | some r =>
          (some (.ok code), { next with trace := next.trace.note (.told .error (say r)) })
        | none => (some (.error e), next) := by
  unfold reporting
  rw [exec_bind, exec_attempt]
  rcases body.exec w with ⟨_ | e | n, next⟩
  · rfl
  · dsimp only
    cases e.report? with
    | none => rfl
    | some r => rfl
  · rfl

/-- A notice is not to be seen. -/
theorem unseen_note (h : Unseen w next) (n : Notice) :
    Unseen w { next with trace := next.trace.note n } := ⟨h.lines, h.tables⟩

theorem clean_ok {n : Nat} (hcode : n = 0 ∨ n = 2 ∨ n = 3) (hthree : n = 3 ↔ failed)
    (htidy : Tidy w next) (hunseen : n ≠ 0 → Unseen w next) :
    Clean failed w (some (.ok n), next) where
  code := by
    intro m hm
    obtain rfl := Except.ok.inj (Option.some.inj hm)
    exact hcode
  three := by
    rw [← hthree]
    exact ⟨fun h => Except.ok.inj (Option.some.inj h), fun h => by rw [h]⟩
  tidy := fun _ => htidy
  unseen := by
    intro m hm
    obtain rfl := Except.ok.inj (Option.some.inj hm)
    exact hunseen

theorem clean_error {e : Failure} (hfailed : ¬failed) (htidy : Tidy w next) :
    Clean failed w (some (.error e), next) :=
  ⟨nofun, iff_of_false nofun hfailed, fun _ => htidy, nofun⟩

theorem clean_stopped (hfailed : ¬failed) : Clean failed w (none, next) :=
  ⟨nofun, iff_of_false nofun hfailed, fun hnone => absurd rfl hnone, nofun⟩

theorem clean_refuse (text : String) (w : World) : Clean False w ((refuse text).exec w) :=
  clean_ok (.inr (.inl rfl)) (iff_of_false (by decide) id) (tidy_of_same rfl)
    fun _ => ⟨rfl, Std.Refl.refl w.disk⟩

/-- **A careful body ends with code two where it fails with a report**, and nothing is to be
    seen. -/
theorem clean_reporting {body : Action Failure Unit} (h : Careful body) (w : World) :
    Clean False w ((reporting 2 Report.line do body; return 0).exec w) ∧
      ((reporting 2 Report.line do body; return 0).exec w).2.trace.connections =
        w.trace.connections := by
  have hsame := (h.moves w).2
  have hunseen := h.unseen w
  rw [exec_reporting, exec_bind]
  revert hsame hunseen
  rcases body.exec w with ⟨_ | e | u, next⟩
  · exact fun hsame _ => ⟨clean_stopped id, hsame⟩
  · intro hsame hunseen
    dsimp only
    cases hreport : e.report? with
    | none => exact ⟨clean_error id (tidy_of_same hsame), hsame⟩
    | some r =>
      have hseen := hunseen e next rfl fun hnone => absurd (hreport.symm.trans hnone) nofun
      exact ⟨clean_ok (.inr (.inl rfl)) (iff_of_false (by decide) id) (tidy_of_same hsame)
        fun _ => unseen_note hseen _, hsame⟩
  · intro hsame _
    exact ⟨clean_ok (.inl rfl) (iff_of_false (by decide) id) (tidy_of_same hsame)
      fun hne => absurd rfl hne, hsame⟩

/-! ### Connections -/

theorem exec_connected {ε : Type} (timeout : Number) (showProgress : Bool) (x : Action ε α)
    (w : World) : (connected timeout showProgress x).exec w =
      match x.exec { w with trace := w.trace.connect timeout showProgress } with
      | (none, next) => (none, next)
      | (some r, next) => (some r, { next with trace := next.trace.disconnect }) := by
  unfold connected
  rw [exec_bind, exec_change]
  dsimp only
  rw [exec_bind, exec_attempt]
  rcases x.exec { w with trace := w.trace.connect timeout showProgress } with ⟨_ | r, next⟩
  · rfl
  · rfl

/-- The connection that was opened is closed when the body has opened and closed no other. -/
theorem clean_connected {timeout : Number} {showProgress : Bool} {x : Action Failure Nat}
    (h : ∀ w, Clean False w (x.exec w) ∧ (x.exec w).2.trace.connections = w.trace.connections)
    (w : World) : Clean False w ((connected timeout showProgress x).exec w) := by
  have hx := h { w with trace := w.trace.connect timeout showProgress }
  rw [exec_connected]
  revert hx
  rcases x.exec { w with trace := w.trace.connect timeout showProgress } with ⟨_ | r, next⟩
  · exact fun _ => clean_stopped id
  · rintro ⟨hclean, hsame⟩
    have htidy : Tidy w { next with trace := next.trace.disconnect } := by
      refine ⟨[⟨timeout, showProgress, false⟩], ?_, by simp⟩
      unfold Trace.disconnect
      rw [hsame]
      simp [Trace.connect]
    refine ⟨hclean.code, hclean.three, fun _ => htidy, ?_⟩
    intro n hn hne
    have hunseen := hclean.unseen n hn hne
    exact ⟨hunseen.lines, hunseen.tables⟩

/-! ### Settings -/

/-- The settings file that is named. -/
def namedFile (s : Surroundings) (inv : Invocation) :
    Action Failure (Option (Path × SettingsFile)) :=
  match inv.settings with
  | some text => do
    let content ← readSettings s (Path.ofText text)
    return some (Path.ofText text, content)
  | none => return none

/-- The settings that the named file resolves to. -/
def resolved (s : Surroundings) (file : Option (Path × SettingsFile)) : Action Failure Settings :=
  match Settings.resolve s.homes file s.environment with
  | .ok settings => return settings
  | .error e => throw (.settings e)

theorem settingsOf_eq (s : Surroundings) (inv : Invocation) :
    settingsOf s inv = namedFile s inv >>= resolved s := by
  unfold settingsOf namedFile
  cases inv.settings with
  | none => rfl
  | some text => exact (bind_assoc _ _ _).symm

theorem quiet_settingsOf (s : Surroundings) (inv : Invocation) : Quiet (settingsOf s inv) := by
  have hread : ∀ path, Quiet (readSettings s path) := by
    intro path
    unfold readSettings
    refine (moves_inspect _).mapError.bind fun there => ?_
    split
    · refine (moves_inspect _).attempt.bind fun r => ?_
      split
      · exact moves_pure _
      · split
        · exact moves_pure _
        · exact moves_pure _
    · exact moves_pure _
  have hfile : Quiet (namedFile s inv) := by
    unfold namedFile
    split
    · exact (hread _).bind fun content => moves_pure _
    · exact moves_pure _
  rw [settingsOf_eq]
  refine hfile.bind fun file => ?_
  unfold resolved
  split
  · exact moves_pure _
  · exact moves_throw _

/-- A settings file that cannot be looked for is the one error of reading it. -/
theorem exec_readSettings_error {path : Path} {e : Failure}
    (h : (readSettings s path).exec w = (some (.error e), next)) : ∃ fault, e = .file fault := by
  unfold readSettings at h
  rcases exec_bind_error h with hfirst | ⟨there, between, -, hrest⟩
  · obtain ⟨fault, -, rfl⟩ := exec_mapError_error hfirst
    exact ⟨fault, rfl⟩
  · cases there with
    | false => exact absurd (congrArg Prod.fst hrest) exec_pure_ne_error
    | true =>
      rcases exec_bind_error hrest with hattempt | ⟨r, last, -, hlast⟩
      · exact absurd (congrArg Prod.fst hattempt) exec_attempt_ne_error
      · cases r with
        | error fault => exact absurd (congrArg Prod.fst hlast) exec_pure_ne_error
        | ok bytes =>
          dsimp only at hlast
          split at hlast
          · exact absurd (congrArg Prod.fst hlast) exec_pure_ne_error
          · exact absurd (congrArg Prod.fst hlast) exec_pure_ne_error

/-- The settings fail with errors of the settings, or with a file that cannot be looked for. -/
theorem exec_settingsOf_error {e : Failure}
    (h : (settingsOf s inv).exec w = (some (.error e), next)) :
    (∃ e', e = .settings e') ∨ ∃ fault, e = .file fault := by
  rw [settingsOf_eq] at h
  rcases exec_bind_error h with hfile | ⟨file, between, -, hrest⟩
  · right
    unfold namedFile at hfile
    split at hfile
    · rcases exec_bind_error hfile with hcontent | ⟨content, last, -, hlast⟩
      · exact exec_readSettings_error hcontent
      · exact absurd (congrArg Prod.fst hlast) exec_pure_ne_error
    · exact absurd (congrArg Prod.fst hfile) exec_pure_ne_error
  · left
    unfold resolved at hrest
    cases hresolve : Settings.resolve s.homes file s.environment with
    | ok settings =>
      rw [hresolve] at hrest
      exact absurd (congrArg Prod.fst hrest) exec_pure_ne_error
    | error e' =>
      rw [hresolve] at hrest
      have hfst := congrArg Prod.fst hrest
      exact ⟨e', (Except.error.inj (Option.some.inj hfst)).symm⟩

/-- What is clean behind quiet work is clean with it. -/
theorem Clean.after {r : Option (Except Failure Nat) × World} (h : Clean False next r)
    (hmoved : Disk.NoNewTable w.disk next.disk ∧ w.trace.SameOutput next.trace)
    (hfailed : ¬failed) : Clean failed w r where
  code := h.code
  three := h.three.trans (iff_of_false id hfailed)
  tidy := by
    intro hsome
    obtain ⟨opened, happend, hclosed⟩ := h.tidy hsome
    exact ⟨opened, by rw [happend, hmoved.2.connections], hclosed⟩
  unseen := by
    intro n hn hne
    have hunseen := h.unseen n hn hne
    exact ⟨hunseen.lines.trans hmoved.2.lines, IsTrans.trans _ _ _ hmoved.1 hunseen.tables⟩

theorem exec_withSettings (s : Surroundings) (inv : Invocation)
    (body : Settings → Action Failure Nat) (w : World) :
    (withSettings s inv body).exec w = match (settingsOf s inv).exec w with
      | (none, next) => (none, next)
      | (some (.ok settings), next) => (body settings).exec next
      | (some (.error e), next) => match e.report? with
        | some r => (some (.ok 3),
            { next with trace := next.trace.note (.told .error ("Invalid settings: " ++ r.text)) })
        | none => (some (.error e), next) := by
  unfold withSettings
  rw [exec_bind, exec_attempt]
  rcases (settingsOf s inv).exec w with ⟨_ | e | settings, next⟩
  · rfl
  · dsimp only
    rw [exec_reporting]
    rfl
  · rfl

/-- **Settings that are at fault are told with code three**, before anything else is done. -/
theorem clean_withSettings {body : Settings → Action Failure Nat}
    (hbody : ∀ settings w, Clean False w ((body settings).exec w)) (s : Surroundings)
    (inv : Invocation) (w : World) :
    Clean (∃ c, ((settingsOf s inv).exec w).1 = some (.error (.settings (.config c)))) w
      ((withSettings s inv body).exec w) := by
  have hmoved := quiet_settingsOf s inv w
  have herror : ∀ e next, (settingsOf s inv).exec w = (some (.error e), next) →
      (∃ e', e = .settings e') ∨ ∃ fault, e = .file fault := fun _ _ => exec_settingsOf_error
  rw [exec_withSettings]
  revert hmoved herror
  rcases (settingsOf s inv).exec w with ⟨_ | e | settings, next⟩
  · intro _ _
    refine clean_stopped ?_
    rintro ⟨c, hc⟩
    exact absurd hc nofun
  · intro hmoved herror
    have htidy := tidy_of_same hmoved.2.connections
    rcases herror e next rfl with ⟨e', rfl⟩ | ⟨fault, rfl⟩
    · cases e' with
      | config c =>
        refine clean_ok (.inr (.inr rfl)) (iff_of_true rfl ⟨c, rfl⟩) htidy fun _ => ?_
        exact unseen_note (unseen_of_moves hmoved) _
      | unknownUser | timeoutTooLarge | tooManyDigits | unreadable | foreign =>
        refine clean_error ?_ htidy
        rintro ⟨c, hc⟩
        exact absurd (Failure.settings.inj (Except.error.inj (Option.some.inj hc))) nofun
    · refine clean_error ?_ htidy
      rintro ⟨c, hc⟩
      exact absurd (Except.error.inj (Option.some.inj hc)) nofun
  · intro hmoved _
    refine (hbody settings next).after hmoved ?_
    rintro ⟨c, hc⟩
    exact absurd (Option.some.inj hc) nofun

/-! ### Runs -/

/-- The command is refused before the settings are looked at: its limit is negative, or its output
    is no path of a table. -/
def Refused : Command → Prop
  | .list _ _ limit => limit.getD 0 < 0
  | .load _ _ (some text) _ => OutputFormat.ofPath? (Path.ofText text) = none
  | _ => False

/-- The command gets as far as the settings, and they are at fault. -/
def SettingsFail (s : Surroundings) (inv : Invocation) (w : World) : Prop :=
  ¬Refused inv.command ∧
    ∃ c, ((settingsOf s inv).exec w).1 = some (.error (.settings (.config c)))

theorem clean_withClient {body : Client → Action Failure Unit}
    (hbody : ∀ client, Careful (body client)) (s : Surroundings) (inv : Invocation) (w : World) :
    Clean (∃ c, ((settingsOf s inv).exec w).1 = some (.error (.settings (.config c)))) w
      ((withClient s inv body).exec w) := by
  unfold withClient
  exact clean_withSettings (fun settings w => clean_connected (clean_reporting (hbody _)) w)
    s inv w

theorem clean_onCache {body : Cache → Action Failure Unit}
    (hbody : ∀ c, Careful (body c)) (s : Surroundings) (inv : Invocation) (w : World) :
    Clean (∃ c, ((settingsOf s inv).exec w).1 = some (.error (.settings (.config c)))) w
      ((onCache s inv body).exec w) := by
  unfold onCache
  exact clean_withSettings (fun settings w => (clean_reporting (hbody _) w).1) s inv w

theorem Clean.of_iff {r : Option (Except Failure Nat) × World} {failed' : Prop}
    (h : Clean failed w r) (hiff : failed ↔ failed') : Clean failed' w r :=
  ⟨h.code, h.three.trans hiff, h.tidy, h.unseen⟩

/-- **Every command is clean**, in whatever world it runs. -/
theorem clean_runCommand (s : Surroundings) (inv : Invocation) (w : World) :
    Clean (SettingsFail s inv w) w ((runCommand s inv).exec w) := by
  -- a command that is not refused fails with the settings exactly when they are at fault
  have hgoes : ∀ {r}, ¬Refused inv.command →
      Clean (∃ c, ((settingsOf s inv).exec w).1 = some (.error (.settings (.config c)))) w r →
      Clean (SettingsFail s inv w) w r :=
    fun hnot hclean => hclean.of_iff ⟨fun h => ⟨hnot, h⟩, fun h => h.2⟩
  have hrefuse : ∀ text, Refused inv.command →
      Clean (SettingsFail s inv w) w ((refuse text).exec w) :=
    fun text hrefused => (clean_refuse text w).of_iff (iff_of_false id fun h => h.1 hrefused)
  unfold runCommand
  cases hcommand : inv.command with
  | tags =>
    rw [hcommand] at hgoes
    exact hgoes id (clean_withClient careful_printTags s inv w)
  | list tag filter limit =>
    rw [hcommand] at hgoes hrefuse
    dsimp only
    by_cases hlimit : limit.getD 0 < 0
    · rw [if_pos hlimit]
      exact hrefuse _ hlimit
    · rw [if_neg hlimit]
      exact hgoes hlimit
        (clean_withClient (fun client => careful_printListing client _ _ _) s inv w)
  | describe id attributes =>
    rw [hcommand] at hgoes
    exact hgoes not_false
      (clean_withClient (fun client => careful_printDescription client id attributes) s inv w)
  | load id auto output lenient =>
    rw [hcommand] at hgoes hrefuse
    cases output with
    | none =>
      exact hgoes not_false
        (clean_withClient (fun client => careful_loadAndPrint s.libraries client id _ none) s inv w)
    | some text =>
      dsimp only
      cases hformat : OutputFormat.ofPath? (Path.ofText text) with
      | none => exact hrefuse _ hformat
      | some format =>
        have hnot : ¬Refused (.load id auto (some text) lenient) := by
          intro hrefused
          exact absurd (hformat.symm.trans hrefused) nofun
        exact hgoes hnot (clean_withClient (fun client =>
          careful_loadAndPrint s.libraries client id _ (some (Path.ofText text, format))) s inv w)
  | cacheInfo =>
    rw [hcommand] at hgoes
    exact hgoes not_false (clean_onCache careful_printEntries s inv w)
  | cachePrune limit =>
    rw [hcommand] at hgoes
    refine hgoes not_false (clean_withSettings (fun settings w => ?_) s inv w)
    split
    · exact clean_refuse _ w
    · exact (clean_reporting (careful_pruneCache limit _) w).1
  | cacheClear =>
    rw [hcommand] at hgoes
    exact hgoes not_false (clean_onCache careful_clearCache s inv w)

/-- **A command that fails prints no part of a result.** Every run of an argument list that names
    a command is clean. -/
theorem clean_of_run (s : Surroundings) {args : List String} {inv : Invocation}
    (h : Invocation.ofArguments args = .ok inv) (w : World) :
    Clean (SettingsFail s inv w) w ((run s args).exec w) := by
  unfold run
  rw [h]
  exact clean_runCommand s inv w

/-- A network that answers nothing, and plain substitutes for what is foreign. -/
def secluded : Surroundings where
  homes := fun name => if name = "~" then some ⟨1, ["home", "user"]⟩ else none
  environment := []
  transport := fun _ url => .error ⟨url, .failed "no network"⟩
  yaml := .plain
  libraries := .plain

/-- Without a network nothing is loaded into a file. -/
theorem clean_of_secluded_load :
    let args := ["load", "61", "--output", "t.csv"]
    let ending := (run secluded args).exec {}
    Invocation.ofArguments args = .ok ⟨false, false, none, .load 61 false (some "t.csv") false⟩ ∧
      ending.1 = some (.ok 2) ∧ Unseen {} ending.2 ∧ Tidy {} ending.2 := by
  intro args ending
  have hargs : Invocation.ofArguments args =
      .ok ⟨false, false, none, .load 61 false (some "t.csv") false⟩ := rfl
  have hcode : ending.1 = some (.ok 2) := rfl
  have hclean := clean_of_run secluded hargs {}
  have hends : ending.1 ≠ none := by
    rw [hcode]
    exact nofun
  exact ⟨hargs, hcode, hclean.unseen 2 hcode (by decide), hclean.tidy hends⟩

end DatasetCatalog.Cli
