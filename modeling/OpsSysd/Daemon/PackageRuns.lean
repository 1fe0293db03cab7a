import OpsSysd.Daemon.PackageOutcome
import OpsSysd.Daemon.Round
import OpsSysd.Idl.Ownership
import OpsSysd.Library.Attempts

/-! The Package_Info table over whole runs. The daemon may be cut short anywhere
and started again, its commits lost or applied, whatever their status says, and
its rows refused; the table holds some of the document's batches, in order. -/
namespace OpsSysd.Daemon

open CLib Interaction Interaction.Program Idl

/-- The packages of some of the batches, in order. -/
def InBatches (records : List Record) (table : List Package) : Prop :=
  ∃ choices, table = survivors choices records

section Batches

variable {records pending rest : List Record} {table : List Package}

/-- What survives depends on the batches there are. -/
theorem survivors_congr {choices choices' : Choices}
    (h : ∀ batch < batchesOf records.length, choices.applied batch = choices'.applied batch) :
    survivors choices records = survivors choices' records := by
  rw [forall_batch_iff] at h
  rw [survivors, survivors, List.filter_congr h]

/-- The empty table is made of no batches. -/
theorem inBatches_nil (records : List Record) : InBatches records [] :=
  ⟨⟨fun _ => false, fun _ => false⟩, (survivors_eq_nil_iff.mpr fun _ _ => rfl).symm⟩

/-- Another batch is applied. -/
theorem InBatches.add (h : InBatches records table)
    (hFull : records.length % pkgInfoEntriesPerCommit = 0)
    (hShort : pending.length ≤ pkgInfoEntriesPerCommit) :
    InBatches (records ++ pending) (table ++ pending.map Record.package) := by
  obtain ⟨choices, rfl⟩ := h
  let batch := records.length / pkgInfoEntriesPerCommit
  refine ⟨{ choices with applied := Function.update choices.applied batch true }, ?_⟩
  rw [survivors_append hFull hShort, if_pos (Function.update_self ..)]
  congr 1
  refine survivors_congr fun other hOther => ?_
  rw [batchesOf_full hFull] at hOther
  exact (Function.update_of_ne (Nat.ne_of_lt hOther) ..).symm

/-- After full batches, any more may be missing. -/
theorem InBatches.skip (h : InBatches records table)
    (hFull : records.length % pkgInfoEntriesPerCommit = 0) (rest : List Record) :
    InBatches (records ++ rest) table := by
  obtain ⟨choices, rfl⟩ := h
  let batches := records.length / pkgInfoEntriesPerCommit
  let kept : Choices := { choices with applied := fun batch => batch < batches && choices.applied batch }
  have hKept : survivors choices records = survivors kept records := by
    refine survivors_congr fun batch hBatch => ?_
    rw [batchesOf_full hFull] at hBatch
    simp [kept, batches, hBatch]
  have hRest : ∀ numbered ∈ rest.zipIdx records.length,
      ¬ kept.applied (numbered.2 / pkgInfoEntriesPerCommit) = true := by
    intro numbered hNumbered hApplied
    have hLower : batches ≤ numbered.2 / pkgInfoEntriesPerCommit :=
      Nat.div_le_div_right (List.le_snd_of_mem_zipIdx hNumbered)
    exact absurd (of_decide_eq_true (Bool.and_eq_true_iff.mp hApplied).1) (Nat.not_lt.mpr hLower)
  refine ⟨kept, ?_⟩
  rw [hKept, survivors, survivors, List.zipIdx_append, List.filter_append, Nat.zero_add,
    List.filter_eq_nil_iff.mpr hRest, List.append_nil]

/-- One batch is there as a whole or not at all. -/
theorem InBatches.allOrNothing (h : InBatches records table)
    (hShort : records.length ≤ pkgInfoEntriesPerCommit) : AllOrNothing records table := by
  obtain ⟨choices, rfl⟩ := h
  have hAppend := @survivors_append choices [] records (Nat.zero_mod _) hShort
  rw [List.nil_append] at hAppend
  rw [hAppend]
  split
  · exact .inl rfl
  · exact .inr rfl

end Batches

/-- A copy shows that the table is filled. -/
def ShowsPackages (table : List Package) (link : Link) : Prop :=
  table ≠ [] → link.replica.Has .packageInfo

/-- The server's table, which nobody else fills. Under the lock the copy shows
whether it is filled; after a commit it is up to date or as it was. The document
is read as a whole, or not at all. -/
def packageServer (records : List Record) : Environment (List Package) where
  run table _ table' link' := table' = table ∧ (link'.hasLock = true → ShowsPackages table link')
  commit table link ops status table' link' :=
    (table' = table ++ packagesOf ops ∨ status ≠ .success ∧ table' = table) ∧
      (ShowsPackages table' link' ∨
        (link.replica.Has .packageInfo → link'.replica.Has .packageInfo))
  insertFails _ _ := True
  discards _ _ _ _ := True
  symlinkFails _ _ := True
  osRelease _ _ := True
  versionDetail _ answer := ∀ events, answer = some events → DocumentOf events records

/-- The table is made of batches, and the copy shows whether it is filled. -/
structure TableKnown (records : List Record) (table : List Package) (link : Link) : Prop where
  inBatches : InBatches records table
  shows : ShowsPackages table link

section Packageless

variable {World Result : Type} {env : Environment World} {kept : World → Link → Prop}
  {state : State World} {config : Config} {txn : TxnId}

/-- Calls that add no package, and let nothing be delivered. -/
def Packageless : Request → Prop
  | .insert _ table => table ≠ .packageInfo
  | .idlRun => False
  | _ => True

/-- The open transaction adds no package. -/
structure Undisturbed (kept : World → Link → Prop) (state : State World) : Prop where
  ops : insertions .packageInfo state.ops = []
  kept : kept state.world state.link

/-- A transaction without packages keeps this. -/
def PackagelessKeeps (env : Environment World) (kept : World → Link → Prop) : Prop :=
  ∀ world link ops status world' link', insertions .packageInfo ops = [] → kept world link →
    env.commit world link ops status world' link' → kept world' link'

/-- An operation on another table does not disturb this one. -/
theorem Undisturbed.push (h : Undisturbed kept state) {current : Txn}
    (hOpen : state.txn = some current) {op : Op} (hOp : insertions .packageInfo [op] = []) :
    Undisturbed kept (state.push current op) := by
  refine ⟨?_, h.kept⟩
  rw [ops_push hOpen, insertions_append, h.ops, hOp]
  rfl

/-- Neither does any call that adds no package. -/
theorem Undisturbed.step (keeps : PackagelessKeeps env kept) (h : Undisturbed kept state)
    {request : Request} (hRequest : Packageless request) {answer : request.Response}
    {after : State World} (hStep : Idl.step env state request answer after) :
    Undisturbed kept after := by
  cases request with
  | idlRun => exact hRequest.elim
  | insert txn table =>
      obtain ⟨current, hOpen, -, ⟨-, -, rfl⟩ | ⟨row, -, -, rfl⟩⟩ := hStep
      · exact h
      · exact h.push hOpen (by simp [insertions, show table ≠ .packageInfo from hRequest])
  | write row column arg =>
      cases hTxn : state.txn with
      | none =>
          simp only [Idl.step, hTxn] at hStep
          exact hStep.2 ▸ h
      | some current =>
          simp only [Idl.step, hTxn] at hStep
          obtain ⟨value, -, rfl⟩ := hStep
          exact h.push hTxn rfl
  | txnCreate =>
      obtain ⟨-, rfl, rfl⟩ := hStep
      exact ⟨rfl, h.kept⟩
  | commitBlock txn =>
      obtain ⟨current, hOpen, -, world, link, hCommit, rfl⟩ := hStep
      have hOps : insertions .packageInfo current.ops = [] := by
        have hNone := h.ops
        rwa [State.ops, hOpen] at hNone
      exact ⟨rfl, keeps _ _ _ _ _ _ hOps h.kept hCommit⟩
  | txnDestroy txn =>
      obtain rfl := (show after = _ from hStep)
      refine ⟨?_, h.kept⟩
      have hOps := h.ops
      cases hTxn : state.txn with
      | none => rfl
      | some current =>
          rw [State.ops, hTxn] at hOps
          simp only [State.ops, Option.filter_some]
          split
          · exact hOps
          · rfl
  | isLockContended | hasLock | getSeqno | loadIdlSeqno | loadHwInitDoneSet | rows _ | read _ _
  | openOsRelease | openVersionDetail | symlink _ => exact hStep.2 ▸ h
  | fault kind => exact answer.elim
  | _ =>
      obtain rfl := (show after = _ from hStep)
      exact ⟨h.ops, h.kept⟩

/-- What adds no package keeps what its commits keep, at every call. -/
theorem Undisturbed.safe {program : Program Calls Result} (hIssues : program.Issues Packageless)
    (keeps : PackagelessKeeps env kept) (h : Undisturbed kept state) :
    Safe (Idl.step env) (fun state _ => kept state.world state.link) program
      (fun _ => Undisturbed kept) state :=
  Safe.of_issues hIssues (fun _ _ _ h => h.kept)
    (fun _ _ _ _ hRequest h hStep => h.step keeps hRequest hStep) h

theorem packageless_accepts : Accepts config txn Packageless where
  supplies request h := by
    cases request with
    | insert txn' table => exact h.2.1.2
    | write row column arg => trivial
    | rows _ | read _ _ | fault _ => trivial
    | _ => exact h.elim
  tableId _ := trivial
  calloc := trivial
  openOsRelease := trivial
  managementMac _ _ _ := trivial
  systemMac _ _ _ := trivial
  nextMacAddress _ _ _ := trivial
  macsRemaining _ _ _ := trivial

/-- The initial configuration adds no package. -/
theorem configureFirst_packageless : (configureFirst config).Issues Packageless := by
  have hConfigure : ∀ txn, (sysdInitialConfigure config txn).Issues Packageless := by
    intro txn
    rw [sysdInitialConfigure, issues_insertRow_bind]
    exact ⟨by simp [Packageless], trivial,
      fun system => configureSystem_accepted packageless_accepts system⟩
  refine ⟨trivial, fun txn => (hConfigure txn).bind fun _ => ?_⟩
  exact ⟨trivial, fun _ => ⟨trivial, fun _ => trivial⟩⟩

theorem sysdHandleTimezoneUpdate_packageless : sysdHandleTimezoneUpdate.Issues Packageless := by
  rw [sysdHandleTimezoneUpdate, first_bind]
  refine ⟨trivial, fun (ids : List RowId) => ?_⟩
  dsimp only
  cases ids.head? with
  | none => trivial
  | some cfg => simp [Packageless]

end Packageless

section Rounds

variable {records : List Record} {state : State (List Package)} {config : Config}

/-- The table is made of batches, or the next call may leave it as it is. -/
def Pausing (records : List Record) (state : State (List Package)) (request : Request) : Prop :=
  InBatches records state.world ∨ ∃ answer after,
    step (packageServer records) state request answer after ∧ after.world = state.world

theorem packageServer_total (records : List Record) : (packageServer records).Total where
  run table _ := ⟨table, .initial, rfl, nofun⟩
  commit table link _ := ⟨.error, table, link, .inr ⟨nofun, rfl⟩, .inr id⟩
  osRelease _ := ⟨none, trivial⟩
  versionDetail _ := ⟨none, nofun⟩

/-- A call inside the daemon can be answered at once. -/
theorem pausing_inward {request : Request} (hDisciplined : Disciplined state request)
    (hRun : request ≠ .idlRun) (hCommit : ∀ txn, request ≠ .commitBlock txn) :
    Pausing records state request := by
  obtain ⟨answer, after, hStep⟩ := step_total (packageServer_total records) state request hDisciplined
  exact .inr ⟨answer, after, hStep, (step_inward hStep hRun hCommit).1⟩

/-- A disciplined call may: the commit may be lost. -/
theorem pausing_disciplined {request : Request} (hDisciplined : Disciplined state request) :
    Pausing records state request := by
  cases request with
  | idlRun => exact .inr ⟨(), _, ⟨state.world, .initial, ⟨rfl, nofun⟩, rfl⟩, rfl⟩
  | commitBlock txn =>
      obtain ⟨current, hOpen, hId⟩ := hDisciplined
      refine .inr ⟨.error, _, ⟨current, hOpen, hId, state.world, state.link, ?_, rfl⟩, rfl⟩
      exact ⟨.inr ⟨nofun, rfl⟩, .inr id⟩
  | _ => exact pausing_inward hDisciplined nofun nofun

/-- A transaction can be destroyed at any time. -/
theorem pausing_destroy (txn : TxnId) : Pausing records state (.txnDestroy txn) :=
  .inr ⟨(), _, rfl, rfl⟩

theorem pausing_passCalls : PassCalls (Pausing records) := by
  intro state request hCall
  refine pausing_disciplined ?_
  cases request with
  | txnCreate | insert _ _ | write _ _ _ | commitBlock _ | txnDestroy _ | unixctlServerRun | fault _ =>
      exact hCall.elim
  | _ => trivial

/-- A batch is added whole, or not at all. -/
theorem packageServer_keeps (records : List Record) : Keeps (packageServer records) InBatches where
  commit {done pending table table' link link' ops status} hKept hFull _ hShort hOps hCommit := by
    rcases hCommit.1 with rfl | ⟨-, rfl⟩
    · exact hOps ▸ hKept.add hFull hShort
    · exact hKept.skip hFull pending

/-- What adds no package leaves the table as it is. -/
theorem packageServer_same {table table' : List Package} {link link' : Link} {ops : List Op}
    {status : TxnStatus} (hOps : insertions .packageInfo ops = [])
    (hCommit : (packageServer records).commit table link ops status table' link') : table' = table := by
  have hNone : packagesOf ops = [] := by
    rw [← List.length_eq_zero_iff, packagesOf_length, hOps]
    rfl
  rcases hCommit.1 with hApplied | ⟨-, hLost⟩
  · rw [hApplied, hNone, List.append_nil]
  · exact hLost

/-- And what the copy shows of it. -/
theorem packageServer_packageless (records : List Record) :
    PackagelessKeeps (packageServer records) (TableKnown records) := by
  intro table link ops status table' link' hOps known hCommit
  obtain rfl := packageServer_same hOps hCommit
  exact ⟨known.inBatches, hCommit.2.elim id fun hStays hFilled => hStays (known.shows hFilled)⟩

/-- The population, which begins on an empty table only. -/
theorem safe_pausing_populatePackages (plain : ∀ record ∈ records, record.Plain)
    (hClosed : state.txn = none) (known : TableKnown records state.world state.link) :
    Safe (step (packageServer records)) (Pausing records) populatePackages
      (fun _ after => after.txn = none ∧ InBatches records after.world) state := by
  rw [populatePackages_eq]
  refine safe_rows.mpr ⟨.inl known.inBatches, ?_⟩
  rw [State.view_closed hClosed]
  cases hPackages : (state.link.replica.ids .packageInfo).head? with
  | some _ => exact ⟨hClosed, known.inBatches⟩
  | none =>
      have hCopy : ¬ state.link.replica.Has .packageInfo :=
        Database.ids_eq_nil.mp (List.head?_eq_none_iff.mp hPackages)
      have hEmpty : state.world = [] := by_contra fun hFilled => hCopy (known.shows hFilled)
      have hKept : InBatches [] state.world := hEmpty ▸ inBatches_nil []
      refine safe_openVersionDetail.mpr ⟨.inl known.inBatches, fun answer hAnswer => ?_⟩
      cases answer with
      | none => exact ⟨hClosed, known.inBatches⟩
      | some events =>
          obtain ⟨before, after, rfl, hBefore, hScalars⟩ := hAnswer events rfl
          change Safe _ _ (parseEvents _ .initial >>= commitLastBatch) _ _
          rw [parseEvents_eq_parseScalars, delivered_append before after hBefore, hScalars,
            ← List.append_nil (records.flatMap _)]
          have permits : Permits (Pausing records) := fun _ _ => pausing_disciplined
          refine (betweenRecords_start hClosed hKept).safe_records (packageServer_keeps records) permits
            plain [] ?_ ?_
          · rintro before record later hRecords txn state
              ⟨⟨current, hOpen, rfl⟩, -, committed, pending, hDone, hFull, -, hCommitted⟩
            refine safe_txnDestroy.mpr ⟨pausing_destroy _, ?_, ?_⟩
            · simp [hOpen]
            · rw [hRecords, ← List.nil_append before, hDone, List.append_assoc]
              exact hCommitted.skip hFull _
          · exact fun parser state h => h.safe_commitLastBatch (packageServer_keeps records) permits

/-- The branch of the initial configuration leaves the table known. -/
theorem safe_pausing_configureFirst (hClosed : state.txn = none)
    (known : TableKnown records state.world state.link) :
    Safe (step (packageServer records)) (Pausing records) (configureFirst config)
      (fun _ after => after.txn = none ∧ TableKnown records after.world after.link) state := by
  have hClosing : Safe (step (packageServer records)) (BlocksOnly fun _ => True) (configureFirst config)
      (fun _ after => after.txn = none) state :=
    safe_configureFirst (block_grants _) hClosed (fun _ _ _ _ => trivial) fun _ _ _ _ _ _ _ => rfl
  have hUndisturbed : Undisturbed (TableKnown records) state :=
    ⟨by rw [State.ops, hClosed]; rfl, known⟩
  have hKept := hUndisturbed.safe (@configureFirst_packageless config) (packageServer_packageless records)
  refine ((hKept.and hClosing).permit fun _ _ h => .inl h.1.inBatches).mono ?_
  exact fun _ _ h => ⟨h.2, h.1.kept⟩

/-- So does the check of the hardware. -/
theorem safe_pausing_checkHardware (hClosed : state.txn = none)
    (known : TableKnown records state.world state.link) (cfg : RowId) :
    Safe (step (packageServer records)) (Pausing records) (checkHardware config cfg)
      (fun _ after => after.txn = none ∧ TableKnown records after.world after.link) state := by
  have hHere : ∀ request, Pausing records state request := fun _ => .inl known.inBatches
  refine pausing_passCalls.safe_checkHardware (safe_sysdUpdateSwInfo_closed hClosed cfg fun _ _ => hHere _)
    (fun _ => ⟨hClosed, known⟩) fun _ => ?_
  refine (safe_check (fun _ _ => hHere _) hClosed).mpr ⟨fun _ => ?_, fun _ => ⟨hClosed, known⟩⟩
  refine PublicationCalls.safe ?_ fun status world link hCommit => ⟨rfl, ?_⟩
  · refine ⟨hHere _, fun middle => pausing_disciplined trivial, ?_, .inl known.inBatches,
      fun middle _ => pausing_destroy _, fun middle => pausing_disciplined trivial⟩
    exact fun middle row column arg _ _ hOpen => pausing_disciplined hOpen
  · exact packageServer_packageless records _ _ _ _ _ _ (insertions_hwDoneOps _ _) known hCommit

/-- A round leaves the table made of batches. -/
theorem safe_pausing_mainRound (plain : ∀ record ∈ records, record.Plain) (hClosed : state.txn = none)
    (hBatches : InBatches records state.world) :
    Safe (step (packageServer records)) (Pausing records) (mainRound config)
      (fun _ after => after.txn = none ∧ InBatches records after.world) state := by
  have hEnd : ∀ after : State (List Package), after.txn = none → InBatches records after.world →
      PassEnd (Pausing records) (fun after => after.txn = none ∧ InBatches records after.world) after :=
    fun after hAfter hTable => ⟨.inl hTable, fun _ => .inl hTable, hAfter, hTable⟩
  refine pausing_passCalls.safe_mainRound (.inl hBatches) ?_ ?_
  · rintro table link ⟨rfl, -⟩ -
    exact hEnd _ hClosed hBatches
  rintro table link ⟨rfl, hShows⟩ hLock -
  have known : TableKnown records state.world link := ⟨hBatches, hShows hLock⟩
  let delivered : State (List Package) := { state with link }
  have hSampled : (sampled delivered).txn = none := hClosed
  refine pausing_passCalls.safe_processChange
    (fun after => after.txn = none ∧ TableKnown records after.world after.link) hClosed
    (fun _ => safe_pausing_configureFirst hSampled known)
    (fun cfg _ => safe_pausing_checkHardware hSampled known cfg) fun after hAfter => ?_
  refine (safe_pausing_populatePackages plain hAfter.1 hAfter.2).bind fun _ populated hPopulated => ?_
  have hUndisturbed : Undisturbed (fun table _ => InBatches records table) populated :=
    ⟨by rw [State.ops, hPopulated.1]; rfl, hPopulated.2⟩
  have hKeeps : PackagelessKeeps (packageServer records) fun table _ => InBatches records table := by
    intro table link ops status table' link' hOps hTable hCommit
    exact packageServer_same hOps hCommit ▸ hTable
  have hKept := hUndisturbed.safe sysdHandleTimezoneUpdate_packageless hKeeps
  refine ((hKept.and (safe_sysdHandleTimezoneUpdate_closed hPopulated.1)).permit
    fun _ _ h => .inl h.1).mono ?_
  exact fun _ last h => hEnd last h.2 h.1.kept

/-- However often the daemon is cut short and started again, the table holds some
of the document's batches, in order and each once; a document of one batch is
there as a whole or not at all. -/
theorem packages_in_batches (plain : ∀ record ∈ records, record.Plain) {request : Request}
    (reaches : LoopReaches (step (packageServer records)) (mainRound config)
      (CutShort (step (packageServer records)) (mainRound config) restart)
      (fun start => start = State.boot []) request state) :
    InBatches records state.world ∧
      (records.length ≤ pkgInfoEntriesPerCommit → AllOrNothing records state.world) := by
  have hRound : ∀ top : State (List Package), top.txn = none ∧ InBatches records top.world →
      Safe (step (packageServer records)) (fun state _ => InBatches records state.world)
        (mainRound config) (fun _ after => after.txn = none ∧ InBatches records after.world) top :=
    fun top hTop => Safe.foreseen (safe_pausing_mainRound plain hTop.1 hTop.2) (fun _ _ h => h.2)
      fun _ _ hPausing => hPausing
  have hBatches : InBatches records state.world := by
    refine reaches.allowed (fun top => top.txn = none ∧ InBatches records top.world) ?_ ?_ hRound
    · rintro _ rfl
      exact ⟨rfl, inBatches_nil records⟩
    · rintro before _ hBefore ⟨cut, last, hCut, rfl⟩
      exact ⟨rfl, (safe_iff.mp (hRound before hBefore)).1 cut last hCut⟩
  exact ⟨hBatches, hBatches.allOrNothing⟩

end Rounds

section Sample

/-- The same server, where every commit is applied and no row refused. -/
def applyingServer (records : List Record) : Environment (List Package) :=
  { packageServer records with
    commit := fun table link ops status table' link' =>
      status = .success ∧ table' = table ++ packagesOf ops ∧ link' = link
    insertFails := fun _ _ => False }

/-- What happens where every commit is applied may happen. -/
theorem step_applying {records : List Record} (before : State (List Package)) (request : Request)
    (answer : request.Response) (after : State (List Package))
    (hStep : step (applyingServer records) before request answer after) :
    step (packageServer records) before request answer after := by
  cases request with
  | insert txn table =>
      obtain ⟨current, hOpen, hId, ⟨-, hFails, -⟩ | hInserted⟩ := hStep
      · exact hFails.elim
      · exact ⟨current, hOpen, hId, .inr hInserted⟩
  | commitBlock txn =>
      obtain ⟨current, hOpen, hId, table, link, ⟨-, rfl, rfl⟩, hAfter⟩ := hStep
      exact ⟨current, hOpen, hId, _, _, ⟨.inl rfl, .inr id⟩, hAfter⟩
  | _ => exact hStep

/-- A document may be added as a whole. -/
theorem exec_population {records : List Record} (plain : ∀ record ∈ records, record.Plain)
    {events : List YamlEvent} (hDocument : DocumentOf events records) {state : State (List Package)}
    (hClosed : state.txn = none) (hEmpty : state.world = []) :
    ∃ after, Exec (step (packageServer records)) (parseEvents events .initial >>= commitLastBatch)
      state () after ∧ after.world = records.map Record.package := by
  have hKeeps : Keeps (applyingServer records) fun done table => table = done.map Record.package := by
    refine ⟨fun hKept _ _ _ hOps hCommit => ?_⟩
    rw [hCommit.2.1, hKept, hOps, List.map_append]
  have hSafe := safe_parseDocument hKeeps (fun _ => id) hDocument plain hClosed hEmpty
  have hTotal : (applyingServer records).Total := { packageServer_total records with
    commit := fun table link ops => ⟨.success, table ++ packagesOf ops, link, rfl, rfl, rfl⟩ }
  obtain ⟨_, after, hExec, -, hTable⟩ := hSafe.exec (step_total hTotal)
  exact ⟨after, hExec.widen step_applying, hTable⟩

/-- A copy with a System row, and no hardware daemon done. -/
def configuredLink : Link := delivering [Row.fresh 0 .system] (by decide)

def configured : State (List Package) := { State.boot [] with link := configuredLink }

/-- The check of the hardware daemons leaves such a daemon as it is. -/
theorem exec_configured : Exec (step (packageServer sampleRecords)) (checkHardware pmdConfig 0)
    (sampled configured) () (sampled configured) := by
  have hRelease : step (packageServer sampleRecords) (sampled configured) .openOsRelease none
      (sampled configured) := ⟨trivial, rfl⟩
  have hUnset : step (packageServer sampleRecords) (sampled configured) .loadHwInitDoneSet false
      (sampled configured) := ⟨rfl, rfl⟩
  have hUnready : ¬ Ready pmdConfig ((sampled configured).link.replica.rows .daemon) := by
    rintro (hNone | ⟨-, _, -, -, hFound⟩)
    · cases hNone
    · cases hFound
  have hCheck : Safe (step (packageServer sampleRecords)) Disciplined (sysdChkIfHwDaemonsDone pmdConfig)
      (fun _ after => after = sampled configured) (sampled configured) := by
    refine (safe_check ?_ rfl).mpr ⟨fun hReady => absurd hReady hUnready, fun _ => rfl⟩
    intro request hCall
    cases request with
    | rows _ | read _ _ => trivial
    | _ => exact hCall.elim
  obtain ⟨_, after, hExec, rfl⟩ := hCheck.exec (step_total (packageServer_total sampleRecords))
  exact .call hRelease (.call hUnset hExec)

/-- A first round comes to look for the time zone with both packages added. -/
theorem reaches_populated : ∃ state : State (List Package),
    Reaches (step (packageServer sampleRecords)) (mainRound pmdConfig) (State.boot []) (.rows .system)
      state ∧ state.world = sampleRecords.map Record.package := by
  obtain ⟨last, hExec, hTable⟩ := @exec_population _ sampleRecords_plain _ sampleDocument
    (sampled configured) rfl rfl
  refine ⟨last, ?_, hTable⟩
  have hRead : step (packageServer sampleRecords) (sampled configured) .openVersionDetail
      (some (sampleEvents ++ [.streamEnd])) (sampled configured) := by
    refine ⟨fun events hEvents => ?_, rfl⟩
    obtain rfl := Option.some.inj hEvents
    exact sampleDocument
  have hPopulate : Exec (step (packageServer sampleRecords)) populatePackages (sampled configured) ()
      last := by
    rw [populatePackages_eq]
    exact .call ⟨rfl, rfl⟩ (.call hRead hExec)
  have hRest : Reaches (step (packageServer sampleRecords)) restOfPass (sampled configured)
      (.rows .system) last := Reaches.bind_right hPopulate (.here _ _ _)
  have hStart : step (packageServer sampleRecords) configured .startPass ()
      { configured with examined := [1] } := rfl
  have hStore : step (packageServer sampleRecords) { configured with examined := [1] }
      (.storeIdlSeqno 1) () (sampled configured) := rfl
  have hChange : Reaches (step (packageServer sampleRecords)) (processChange pmdConfig) configured
      (.rows .system) last := by
    rw [processChange_eq]
    refine .later hStart (.later ⟨rfl, rfl⟩ (.later hStore (.later ⟨rfl, rfl⟩ ?_)))
    exact Reaches.bind_right exec_configured hRest
  have hRun : step (packageServer sampleRecords) (State.boot []) .idlRun () configured :=
    ⟨[], configuredLink, ⟨rfl, fun _ hFilled => absurd rfl hFilled⟩, rfl⟩
  refine Reaches.bind_left (.later hRun (.later ⟨rfl, rfl⟩ (.later ⟨rfl, rfl⟩ ?_)))
  exact .later ⟨rfl, rfl⟩ (.later ⟨rfl, rfl⟩ hChange.bind_left)

/-- A first round adds both packages. -/
theorem packages_in_batches_sample : ∃ state : State (List Package),
    state.world = sampleRecords.map Record.package ∧ InBatches sampleRecords state.world ∧
      (sampleRecords.length ≤ pkgInfoEntriesPerCommit → AllOrNothing sampleRecords state.world) := by
  obtain ⟨state, hReaches, hTable⟩ := reaches_populated
  exact ⟨state, hTable, packages_in_batches sampleRecords_plain ⟨_, .start rfl, hReaches⟩⟩

end Sample

end OpsSysd.Daemon
