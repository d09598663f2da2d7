import DatasetCatalog.Proofs.Cache.Alike
import DatasetCatalog.Proofs.Cache.Consistency
import DatasetCatalog.Proofs.Load.Bring
import DatasetCatalog.Proofs.Load.Outcome
import DatasetCatalog.Proofs.Local

/-! # Fetches

  A fetch looks for the entry of its data set first. It ends with what it finds there, or it brings
  the artifact from the catalog and stores it, or it fails and leaves no new entry. Loading makes a
  table of what a fetch gives.
-/

namespace DatasetCatalog.Load

open DatasetCatalog.Action DatasetCatalog.Cache DatasetCatalog.Catalog DatasetCatalog.Disk

variable {client : Client} {root : Path} {n : Nat} {name : DatasetName} {w : World}

/-- The artifact of a data set, with the seconds that the fetch of another caller is waited for. -/
def fetchWithin (client : Client) (c : Cache) (name : DatasetName) (timeout : Option Number) :
    Action (GetError SourceError) Artifact :=
  c.getOrFetch name.id none timeout (bring client name)

theorem fetchArtifact_eq (client : Client) (c : Cache) (name : DatasetName) :
    fetchArtifact client c name = fetchWithin client c name none := rfl

/-! ### What a fetch comes to -/

/-- What becomes of a fetch after it has looked for an entry. -/
inductive Fetch (client : Client) (root : Path) (id : Int) (begun : World) :
    Option (Except (GetError SourceError) Artifact) × World → Prop where
  /-- It ends without a request. -/
  | settled {r} (valid : ∀ a, r = some (.ok a) → Valid (opened root 0) begun.disk id a.data) :
      Fetch client root id begun (r, begun)
  /-- The artifact has been brought and stored. -/
  | stored {a d after} (lock : (opened root 0).lockFile id begun.disk = .ok ())
      (alike : Alike root (· = id) begun.disk after.disk)
      (stored : Stored root id a.data after.disk)
      (vouches : Vouches client begun.trace.requests id d a.data)
      (requests : after.trace.requests =
        begun.trace.requests ++ asked client id ++ [artifactAddress client d]) :
      Fetch client root id begun (some (.ok a), after)
  /-- It has not been brought, or not stored. -/
  | failed {r after} (failure : ∀ a, r ≠ some (.ok a))
      (alike : Alike root (· = id) begun.disk after.disk)
      (left : Left root id begun.disk after.disk)
      (asks : Asks client begun.trace.requests id after.trace.requests) :
      Fetch client root id begun (r, after)

/-- Under the lock the artifact is brought, and then stored or not. -/
theorem fetch_missing (hroot : root.WellFormed) (timeout : Option Number) {begun : World}
    (hlock : (opened root 0).lockFile name.id begun.disk = .ok ()) :
    Fetch client root name.id begun
      (((opened root n).fetchMissing ⟨name.id, none, timeout, bring client name⟩).exec begun) := by
  obtain ⟨fetched, trace, hbring, hasks, hbytes⟩ := exec_bring client name begun
  have hsame : Same root begun.disk begun.disk := alike_refl (grounded_of_lockFile hlock)
  have hcomplete := triple_complete_alike (n := n) hroot name.id none fetched
    { begun with trace } hsame
  have hrequests := (local_complete (opened root n) name.id none fetched { begun with trace }).1
  unfold fetchMissing
  rw [exec_bind, exec_mapError, hbring]
  dsimp only
  revert hcomplete hrequests
  rcases ((opened root n).complete name.id none fetched).exec { begun with trace } with
    ⟨_ | e | a, after⟩
  · exact fun hafter hrequests => .failed nofun hafter.1 hafter.2 (hrequests ▸ hasks)
  · exact fun hafter hrequests => .failed nofun hafter.1 hafter.2 (hrequests ▸ hasks)
  · rintro ⟨rfl, halike, hstored⟩ hrequests
    obtain ⟨d, hvouches, htrace⟩ := hbytes a.data rfl
    exact .stored hlock halike hstored hvouches (hrequests.trans htrace)

/-- **What a fetch comes to**, in any world and whatever becomes of its file operations. -/
theorem exec_fetchWithin (hroot : root.WellFormed) (client : Client) (n : Nat) (name : DatasetName)
    (timeout : Option Number) (w : World) :
    ∃ begun : World, (Grounded root w.disk → Same root w.disk begun.disk) ∧
      begun.trace.requests = w.trace.requests ∧
      Fetch client root name.id begun
        ((fetchWithin client (opened root n) name timeout).exec w) := by
  -- a disk with files outside of every directory is of no interest, but has its requests, too
  have hmake : Keeps (fun d => Grounded root w.disk → Same root w.disk d)
      (makeDirectories (locksOf root)) := by
    by_cases hgrounded : Grounded root w.disk
    · exact (keeps_makeDirectories_alike (wellFormed_locksOf hroot) fun _ h => h).consequence
        (fun _ h => h hgrounded) (fun _ _ h _ => h) fun _ h _ => h
    · exact (keeps_makeDirectories (wellFormed_locksOf hroot)
        fun _ _ _ _ _ _ h => absurd h hgrounded)
  have hbegin := triple_begin_valid (ε := SourceError) (n := n) hmake name.id timeout w alike_refl
  have hrequests := requests_begin (ε := SourceError) (opened root n) name.id timeout w
  unfold fetchWithin
  rw [exec_getOrFetch_eq (opened root n) ⟨name.id, none, timeout, bring client name⟩ w]
  revert hbegin hrequests
  -- it stops, it fails, there is no entry, or there is one
  rcases ((opened root n).begin name.id timeout : Action (GetError SourceError) _).exec w with
    ⟨_ | e | _ | a, begun⟩
  · exact fun hsame hrequests => ⟨begun, hsame, hrequests, .settled nofun⟩
  · exact fun hsame hrequests => ⟨begun, hsame, hrequests, .settled nofun⟩
  · exact fun hbegun hrequests =>
      ⟨begun, hbegun.1.1, hrequests, fetch_missing hroot timeout hbegun.1.2⟩
  · intro hbegun hrequests
    refine ⟨begun, hbegun.1.1, hrequests, .settled fun found hfound => ?_⟩
    obtain rfl := Except.ok.inj (Option.some.inj hfound)
    exact hbegun.2 a rfl

/-- A fetch ends, when nobody has to be waited for and the process is not stopped. -/
theorem ends_fetchWithin (client : Client) {c : Cache} {name : DatasetName}
    (timeout : Option Number) {w : World} (hflight : (c.number, name.id) ∉ w.flights)
    (hv : w.verdicts = []) : ((fetchWithin client c name timeout).exec w).1.isSome = true := by
  have hbegin := ends_begin (ε := SourceError) c timeout hflight hv
  unfold fetchWithin
  rw [exec_getOrFetch_eq c ⟨name.id, none, timeout, bring client name⟩ w]
  revert hbegin
  rcases (c.begin name.id timeout : Action (GetError SourceError) _).exec w with
    ⟨_ | e | _ | a, begun⟩
  · exact fun hbegin => hbegin.1
  · exact fun _ => rfl
  · intro hbegin
    obtain ⟨fetched, trace, hbring, -⟩ := exec_bring client name begun
    dsimp only
    unfold fetchMissing
    rw [exec_bind, exec_mapError, hbring]
    exact ((local_complete c name.id none fetched { begun with trace }).2 hbegin.2).1
  · exact fun _ => rfl

/-! ### Loading -/

variable {libraries : FrameLibraries}

theorem exec_notes {ε : Type} (notices : List Notice) (w : World) :
    (forIn notices PUnit.unit fun notice _ => do
        Action.note notice
        pure (ForInStep.yield PUnit.unit) : Action ε PUnit).exec w =
      (some (.ok PUnit.unit), { w with trace := notices.foldl Trace.note w.trace }) := by
  induction notices generalizing w with
  | nil => rfl
  | cons notice rest ih =>
    rw [List.forIn_cons, exec_bind]
    exact ih { w with trace := w.trace.note notice }

theorem requests_notes (notices : List Notice) (t : Trace) :
    (notices.foldl Trace.note t).requests = t.requests := by
  induction notices generalizing t with
  | nil => rfl
  | cons notice rest ih => exact ih (t.note notice)

/-- Loading fetches the artifact, gives notices about it and makes a table of its bytes. -/
theorem exec_load (client : Client) (c : Cache) (name : DatasetName)
    {options : LoadOptions libraries.Frame} {mode : Coercion.Mode}
    (hmode : modeOf? options.parser = some mode) (w : World) :
    (load libraries client c name options).exec w =
      match (fetchWithin client c name none).exec w with
      | (none, next) => (none, next)
      | (some (.error e), next) => (some (.error (.get e)), next)
      | (some (.ok a), next) => (some (outcome libraries options a.data),
          { next with trace := (notices options mode a.data).foldl Trace.note next.trace }) := by
  unfold load
  rw [hmode]
  dsimp only
  rw [exec_bind, exec_mapError, fetchArtifact_eq]
  rcases (fetchWithin client c name none).exec w with ⟨_ | e | a, next⟩
  · rfl
  · rfl
  · dsimp only
    rw [exec_bind, exec_notes, ofBytes_eq_outcome hmode]
    rfl

/-- Without a parser nothing happens. -/
theorem exec_load_of_none (client : Client) (c : Cache) (name : DatasetName)
    {options : LoadOptions libraries.Frame} (hmode : modeOf? options.parser = none) (w : World) :
    (load libraries client c name options).exec w =
      (some (.error (.parser options.parser)), w) := by
  unfold load
  rw [hmode]
  rfl

/-! ### Calls -/

/-- A call that may fetch an artifact. -/
inductive Call (libraries : FrameLibraries) where
  /-- The artifact is fetched; so many seconds it waits for the fetch of another caller. -/
  | fetch (timeout : Option Number)
  /-- The data set is loaded. -/
  | load (options : LoadOptions libraries.Frame)

namespace Call

/-- The world after a call. -/
def after (client : Client) (c : Cache) (name : DatasetName) (w : World) :
    Call libraries → World
  | fetch timeout => ((fetchWithin client c name timeout).exec w).2
  | load options => ((DatasetCatalog.load libraries client c name options).exec w).2

/-- The call ends with what becomes of the data of an artifact. -/
def Yields (client : Client) (c : Cache) (name : DatasetName) (w : World) (data : ByteArray) :
    Call libraries → Prop
  | fetch timeout =>
    ∃ a : Artifact, ((fetchWithin client c name timeout).exec w).1 = some (.ok a) ∧ a.data = data
  | load options =>
    ((DatasetCatalog.load libraries client c name options).exec w).1 =
      some (outcome libraries options data)

/-- The call ends in an error. -/
def Fails (client : Client) (c : Cache) (name : DatasetName) (w : World) :
    Call libraries → Prop
  | fetch timeout => ∃ e, ((fetchWithin client c name timeout).exec w).1 = some (.error e)
  | load options =>
    ∃ e, ((DatasetCatalog.load libraries client c name options).exec w).1 = some (.error e)

/-- The call does not end: the process stops in it, or it waits for another caller. -/
def Stops (client : Client) (c : Cache) (name : DatasetName) (w : World) :
    Call libraries → Prop
  | fetch timeout => ((fetchWithin client c name timeout).exec w).1 = none
  | load options => ((DatasetCatalog.load libraries client c name options).exec w).1 = none

/-- A call fetches, and what it ends with depends on how the fetch ends. -/
theorem exec_cases (hroot : root.WellFormed) (client : Client) (n : Nat) (name : DatasetName)
    (w : World) (call : Call libraries) :
    ∃ (begun next : World) (r : Option (Except (GetError SourceError) Artifact)),
      (Grounded root w.disk → Same root w.disk begun.disk) ∧
      begun.trace.requests = w.trace.requests ∧ Fetch client root name.id begun (r, next) ∧
      (call.after client (opened root n) name w).disk = next.disk ∧
      (call.after client (opened root n) name w).trace.requests = next.trace.requests ∧
      (∀ a, r = some (.ok a) → call.Yields client (opened root n) name w a.data) ∧
      ((∀ a, r ≠ some (.ok a)) → call.Fails client (opened root n) name w ∨
        call.Stops client (opened root n) name w) := by
  cases call with
  | fetch timeout =>
    obtain ⟨begun, hsame, hrequests, hfetch⟩ := exec_fetchWithin hroot client n name timeout w
    rcases hexec : (fetchWithin client (opened root n) name timeout).exec w with ⟨r, next⟩
    rw [hexec] at hfetch
    refine ⟨begun, next, r, hsame, hrequests, hfetch, congrArg (·.2.disk) hexec,
      congrArg (·.2.trace.requests) hexec, ?_, fun hno => ?_⟩
    · rintro a rfl
      exact ⟨a, congrArg Prod.fst hexec, rfl⟩
    · rcases r with _ | e | a
      · exact .inr (congrArg Prod.fst hexec)
      · exact .inl ⟨e, congrArg Prod.fst hexec⟩
      · exact absurd rfl (hno a)
  | load options =>
    cases hmode : modeOf? options.parser with
    | none =>
      have hload := exec_load_of_none client (opened root n) name hmode w
      exact ⟨w, w, none, alike_refl, rfl, .settled nofun, congrArg (·.2.disk) hload,
        congrArg (·.2.trace.requests) hload, nofun, fun _ => .inl ⟨_, congrArg Prod.fst hload⟩⟩
    | some mode =>
      obtain ⟨begun, hsame, hrequests, hfetch⟩ := exec_fetchWithin hroot client n name none w
      have hload := exec_load client (opened root n) name hmode w
      rcases hexec : (fetchWithin client (opened root n) name none).exec w with ⟨r, next⟩
      rw [hexec] at hfetch hload
      refine ⟨begun, next, r, hsame, hrequests, hfetch, ?_⟩
      rcases r with _ | e | a
      · exact ⟨congrArg (·.2.disk) hload, congrArg (·.2.trace.requests) hload, nofun,
          fun _ => .inr (congrArg Prod.fst hload)⟩
      · exact ⟨congrArg (·.2.disk) hload, congrArg (·.2.trace.requests) hload, nofun,
          fun _ => .inl ⟨_, congrArg Prod.fst hload⟩⟩
      · refine ⟨congrArg (·.2.disk) hload,
          (congrArg (·.2.trace.requests) hload).trans (requests_notes _ _), ?_,
          fun hno => absurd rfl (hno a)⟩
        intro found hfound
        obtain rfl := Except.ok.inj (Option.some.inj hfound)
        exact congrArg Prod.fst hload

/-- A call ends when nobody has to be waited for and the process is not stopped. -/
theorem not_stops (client : Client) {n : Nat} {name : DatasetName} {w : World}
    (call : Call libraries)
    (hflight : (n, name.id) ∉ w.flights) (hv : w.verdicts = []) :
    ¬ call.Stops client (opened root n) name w := by
  have hends := fun timeout => ends_fetchWithin client (c := opened root n) timeout hflight hv
  cases call with
  | fetch timeout =>
    intro hstops
    have hend := hends timeout
    unfold Stops at hstops
    dsimp only at hstops
    rw [hstops] at hend
    exact Bool.false_ne_true hend
  | load options =>
    have hend := hends none
    unfold Stops
    dsimp only
    cases hmode : modeOf? options.parser with
    | none =>
      rw [exec_load_of_none client _ name hmode]
      exact nofun
    | some mode =>
      rw [exec_load client _ name hmode]
      revert hend
      rcases (fetchWithin client (opened root n) name none).exec w with ⟨_ | e | a, next⟩
      · exact fun hend => absurd hend Bool.false_ne_true
      · exact fun _ => nofun
      · exact fun _ => nofun

end Call

/-! ### A small artifact -/

/-- The bytes of a table with one column. -/
def smallArtifact : ByteArray := "@attribute x numeric\n@data\n1\n".toUTF8

/-- A transport that describes a data set with a checksum, and then serves a small artifact. -/
def serving (checksum : String) : Transport := fun before _ =>
  match before with
  | [] => .ok ("\x7b\"data_set_description\":\x7b\"id\":1,\"name\":\"x\",\"version\":1," ++
      "\"format\":\"ARFF\",\"url\":\"x\",\"md5_checksum\":\"" ++ checksum ++ "\"\x7d\x7d").toUTF8
  | [_] => .ok "\x7b\"data_features\":\x7b\"feature\":[]\x7d\x7d".toUTF8
  | _ => .ok smallArtifact

/-- A client whose first load gets a small artifact. The digest is announced in capitals, with a
    blank before it. -/
def smallClient : Client := ⟨{}, serving " C90C5111CF78A04FC0A433EBF7E3DAE5"⟩

theorem size_smallArtifact : smallArtifact.size < 10 ^ Numeral.digitLimit :=
  Nat.lt_of_lt_of_le (by decide : smallArtifact.size < 10 ^ 2)
    (Nat.pow_le_pow_right (by decide) (by decide))

end DatasetCatalog.Load
