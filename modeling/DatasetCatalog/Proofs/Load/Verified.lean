import DatasetCatalog.Plain
import DatasetCatalog.Proofs.Load.Fetch

/-! # Only verified artifacts are stored

  A run begins with an empty directory. In each step a cache is opened there and an artifact is
  fetched or a data set is loaded, by any client and in any world that has the disk as it is.
  After every run each valid entry holds what the transport of one of the clients has vouched for:
  the bytes that it served for the address in a description that it served for the data set, in a
  supported format and with the announced digest. A call that finds no valid entry stores such an
  entry, or it gives no value and leaves all entries as they are.
-/

namespace DatasetCatalog.Load

open DatasetCatalog.Action DatasetCatalog.Cache DatasetCatalog.Catalog DatasetCatalog.Disk

variable {libraries : FrameLibraries} {client : Client} {root : Path} {n : Nat}
  {name : DatasetName} {w : World} {d : Disk} {id : Int} {data : ByteArray}

/-! ### Runs -/

/-- When a client was asked: after which requests, and for which data set. -/
structure Visit where
  client : Client
  before : List String
  dataset : Int

/-- The disks that runs over a directory lead to, with the calls, the latest first. -/
inductive Run (root : Path) : Disk → List Visit → Prop where
  | start {d : Disk} (empty : d.list root = []) : Run root d []
  /-- A cache is opened in a world with the disk, and called with a client. -/
  | step {libraries : FrameLibraries} {d : Disk} {visits : List Visit} (run : Run root d visits)
      (client : Client) (number : Nat) (name : DatasetName) (call : Call libraries) {w : World}
      (same : w.disk = d) :
      Run root (call.after client (opened root number) name w).disk
        (⟨client, w.trace.requests, name.id⟩ :: visits)

/-- In one of the visits the transport has vouched for the data. -/
def Vouched (visits : List Visit) (id : Int) (data : ByteArray) : Prop :=
  ∃ v ∈ visits, v.dataset = id ∧ ∃ description, Vouches v.client v.before id description data

variable {visits : List Visit}

/-- An empty directory has no entries. -/
theorem not_valid_of_empty (h : d.list root = []) : ¬ Valid (opened root n) d id data := by
  rintro ⟨bytes, m, hmarker, -⟩
  have hname := isEntryName_markerName id
  obtain ⟨-, -, hfile⟩ := (read_child_eq_ok_iff hname).1 hmarker
  rw [file?_of_empty h] at hfile
  exact absurd hfile nofun

/-- What a call leaves is vouched for in it, or was there before. -/
theorem vouched_after (hroot : root.WellFormed) (hgrounded : Grounded root w.disk)
    (h : ∀ id data, Valid (opened root 0) w.disk id data → Vouched visits id data)
    (client : Client) (n : Nat) (name : DatasetName) (call : Call libraries) :
    Grounded root (call.after client (opened root n) name w).disk ∧ ∀ id data,
      Valid (opened root 0) (call.after client (opened root n) name w).disk id data →
      Vouched (⟨client, w.trace.requests, name.id⟩ :: visits) id data := by
  obtain ⟨begun, next, r, hsame, hrequests, hfetch, hdisk, -⟩ :=
    call.exec_cases hroot client n name w
  have hbegun := hsame hgrounded
  -- what was there before stays vouched for
  have hold : ∀ id data, Valid (opened root 0) begun.disk id data →
      Vouched (⟨client, w.trace.requests, name.id⟩ :: visits) id data := by
    intro id data hvalid
    obtain ⟨v, hv, hvouches⟩ := h id data ((hbegun.valid_iff not_false).1 hvalid)
    exact ⟨v, List.mem_cons_of_mem _ hv, hvouches⟩
  rw [hdisk]
  cases hfetch with
  | settled => exact ⟨hbegun.grounded, hold⟩
  | @stored a d after lock alike stored vouches requests =>
    refine ⟨alike.grounded, fun id data hvalid => ?_⟩
    by_cases hid : id = name.id
    · subst hid
      obtain rfl := stored.eq_of_valid hvalid
      exact ⟨_, List.mem_cons_self, rfl, d, hrequests ▸ vouches⟩
    · exact hold id data ((alike.valid_iff hid).1 hvalid)
  | failed failure alike left asks =>
    refine ⟨alike.grounded, fun id data hvalid => ?_⟩
    by_cases hid : id = name.id
    · subst hid
      exact hold _ data (left.valid hvalid)
    · exact hold id data ((alike.valid_iff hid).1 hvalid)

/-- In every run the valid entries are vouched for. -/
theorem Run.vouched (h : Run root d visits) (hroot : root.WellFormed) :
    Grounded root d ∧ ∀ id data, Valid (opened root 0) d id data → Vouched visits id data := by
  induction h with
  | start empty => exact ⟨grounded_of_empty empty, fun _ _ h => absurd h (not_valid_of_empty empty)⟩
  | step run client number name call same ih =>
    subst same
    exact vouched_after hroot ih.1 ih.2 client number name call

/-! ### Calls that find no entry -/

/-- The entries after data was stored as the entry of a data set. -/
structure Joins (root : Path) (id : Int) (data : ByteArray) (d d' : Disk) : Prop where
  others : ∀ n other bytes, other ≠ id →
    (Valid (opened root n) d' other bytes ↔ Valid (opened root n) d other bytes)
  only : ∀ n bytes, Valid (opened root n) d' id bytes → bytes = data
  /-- Markers with sizes of too many digits cannot be read. -/
  there : ∀ n, data.size < 10 ^ Numeral.digitLimit → Valid (opened root n) d' id data

/-- **A call that finds no valid entry** stores what is vouched for, and ends with what becomes of
    it; or it gives no value, and the valid entries stay as they are. -/
theorem missing_cases (hroot : root.WellFormed) (hgrounded : Grounded root w.disk)
    (client : Client) (n : Nat) (name : DatasetName) (call : Call libraries)
    (hmissing : ∀ data, ¬ Valid (opened root n) w.disk name.id data) :
    (∃ data description, Vouches client w.trace.requests name.id description data ∧
      call.Yields client (opened root n) name w data ∧
      Joins root name.id data w.disk (call.after client (opened root n) name w).disk) ∨
    (call.Fails client (opened root n) name w ∨ call.Stops client (opened root n) name w) ∧
      ∀ m id data, Valid (opened root m) (call.after client (opened root n) name w).disk id data ↔
        Valid (opened root m) w.disk id data := by
  obtain ⟨begun, next, r, hsame, hrequests, hfetch, hdisk, -, hyields, hfails⟩ :=
    call.exec_cases hroot client n name w
  have hbegun := hsame hgrounded
  have hnone : ∀ m data, ¬ Valid (opened root m) begun.disk name.id data :=
    fun m data hvalid => hmissing data ((hbegun.valid_iff not_false).1 hvalid)
  rw [hdisk]
  cases hfetch with
  | settled valid =>
    -- without an entry there is nothing that it can have ended with
    refine .inr ⟨hfails fun a ha => hnone 0 a.data (valid a ha), fun m id data => ?_⟩
    exact hbegun.valid_iff not_false
  | @stored a d after lock alike stored vouches requests =>
    refine .inl ⟨a.data, d, hrequests ▸ vouches, hyields a rfl, ?_⟩
    exact {
      others := fun m id data hid => ((hbegun.mono fun _ => False.elim).trans alike).valid_iff hid
      only := fun m bytes hvalid => stored.eq_of_valid hvalid
      there := fun m hsize => stored.valid hsize }
  | failed failure alike left asks =>
    refine .inr ⟨hfails failure, fun m id data => ?_⟩
    by_cases hid : id = name.id
    · subst hid
      exact ⟨fun hvalid => absurd (left.valid hvalid) (hnone m data),
        fun hvalid => absurd ((hbegun.valid_iff not_false).2 hvalid) (hnone m data)⟩
    · exact ((hbegun.mono fun _ => False.elim).trans alike).valid_iff hid

/-- A call asks for the artifact only when its format is supported. -/
theorem asks_after (hroot : root.WellFormed) (client : Client) (n : Nat) (name : DatasetName)
    (call : Call libraries) (w : World) : Asks client w.trace.requests name.id
      (call.after client (opened root n) name w).trace.requests := by
  obtain ⟨begun, next, r, -, hrequests, hfetch, -, htrace, -⟩ :=
    call.exec_cases hroot client n name w
  rw [htrace, ← hrequests]
  cases hfetch with
  | settled => exact .nothing
  | stored lock alike stored vouches requests =>
    exact requests ▸ .artifact vouches.described vouches.supported
  | failed failure alike left asks => exact asks

/-! ### The promise -/

/-- **Only verified artifacts are stored**, as it stands after some visits. -/
structure Verified (root : Path) (visits : List Visit) (d : Disk) : Prop where
  /-- Every valid entry is vouched for. -/
  entries : ∀ n id data, Valid (opened root n) d id data → Vouched visits id data
  /-- A call that finds no valid entry stores one that is vouched for, or leaves all as it is. -/
  missing : ∀ (libraries : FrameLibraries) client n name (call : Call libraries) w, w.disk = d →
    (∀ data, ¬ Valid (opened root n) d name.id data) →
    (∃ data description, Vouches client w.trace.requests name.id description data ∧
      call.Yields client (opened root n) name w data ∧
      Joins root name.id data d (call.after client (opened root n) name w).disk) ∨
    (call.Fails client (opened root n) name w ∨ call.Stops client (opened root n) name w) ∧
      ∀ m id data, Valid (opened root m) (call.after client (opened root n) name w).disk id data ↔
        Valid (opened root m) d id data
  /-- A call ends, when nobody has to be waited for and the process is not stopped. -/
  ends : ∀ (libraries : FrameLibraries) client n name (call : Call libraries) w,
    (n, name.id) ∉ w.flights → w.verdicts = [] → ¬ call.Stops client (opened root n) name w
  /-- The artifact is only requested behind a description with a supported format. -/
  asks : ∀ (libraries : FrameLibraries) client n name (call : Call libraries) w,
    Asks client w.trace.requests name.id (call.after client (opened root n) name w).trace.requests

/-- **Only verified artifacts are stored**, in every run, whatever the transports answer and
    whatever becomes of file operations. -/
theorem verified_of_run (hroot : root.WellFormed) (h : Run root d visits) :
    Verified root visits d := by
  obtain ⟨hgrounded, hvouched⟩ := h.vouched hroot
  exact {
    entries := fun n id data hvalid => hvouched id data hvalid
    missing := by
      rintro libraries client n name call w rfl hmissing
      exact missing_cases hroot hgrounded client n name call hmissing
    ends := fun _ client n name call w hflight hv => call.not_stops client hflight hv
    asks := fun _ client n name call w => asks_after hroot client n name call w }

set_option maxRecDepth 20000 in
/-- An artifact with the announced digest is stored by the first load. -/
theorem verified_of_first_load : ∃ (d : Disk) (visits : List Visit),
    Run (.ofText "cache") d visits ∧ Valid (opened (.ofText "cache") 0) d 1 smallArtifact ∧
      Verified (.ofText "cache") visits d := by
  have hroot := Path.wellFormed_ofText "cache"
  have hempty : ({} : World).disk.list (.ofText "cache") = [] := by decide +kernel
  have hrun := (Run.start hempty).step smallClient 0 (.ofInt 1) (.load {} : Call .plain) rfl
  have hloads : ((load .plain smallClient (opened (.ofText "cache") 0) (.ofInt 1) {}).exec
      {}).1.any (·.isOk) = true := by decide +kernel
  obtain ⟨data, description, hvouches, -, hjoins⟩ | ⟨⟨e, hfails⟩ | hstops, -⟩ :=
    missing_cases hroot (grounded_of_empty hempty) smallClient 0 (.ofInt 1)
      (.load {} : Call .plain) fun _ => not_valid_of_empty hempty
  · obtain rfl : smallArtifact = data := Except.ok.inj hvouches.served
    exact ⟨_, _, hrun, hjoins.there 0 size_smallArtifact, verified_of_run hroot hrun⟩
  · rw [hfails] at hloads
    exact absurd hloads Bool.false_ne_true
  · unfold Call.Stops at hstops
    dsimp only at hstops
    rw [hstops] at hloads
    exact absurd hloads Bool.false_ne_true

end DatasetCatalog.Load
