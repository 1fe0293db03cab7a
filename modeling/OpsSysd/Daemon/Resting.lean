import OpsSysd.Daemon.Attribution
import OpsSysd.Daemon.CommitOutcome
import OpsSysd.Daemon.PackageTable
import OpsSysd.Daemon.SufficientDescription
import OpsSysd.Library.Attempts

/-! When the main loop blocks. A daemon without the lock blocks only before
anything has been delivered to it; one whose commits are applied blocks only when
there is nothing left to configure or to add. -/
namespace OpsSysd.Daemon

open CLib Interaction Interaction.Program Idl

section Standby

variable {World : Type} {env : Environment World} {config : Config} {state : State World}

/-- The calls of a daemon that stands by: it goes round and looks for the lock. -/
def Watching (state : State World) : Request → Prop
  | .idlRun | .isLockContended | .hasLock | .loadIdlSeqno | .getSeqno | .unixctlServerRun => True
  | .pollBlock => state.link.seqno = 0
  | _ => False

/-- The lock is never granted. -/
def WithholdsLock (env : Environment World) : Prop :=
  ∀ world link world' link', env.run world link world' link' → link'.hasLock = false

/-- Without the lock nothing is examined. -/
theorem safe_watching_mainRound (withholds : WithholdsLock env) (hUnexamined : state.idlSeqno = 0) :
    Safe (step env) Watching (mainRound config) (fun _ after => after.idlSeqno = 0) state := by
  have hPass : Safe (step env) Watching (sysdRun config)
      (fun _ after => after.idlSeqno = 0) state := by
    refine safe_idlRun.mpr ⟨trivial, fun world link hRun => ?_⟩
    refine safe_isLockContended.mpr ⟨trivial, ?_⟩
    change Safe _ _ (if link.isLockContended then _ else _) _ _
    split
    · exact hUnexamined
    · refine safe_hasLock.mpr ⟨trivial, ?_⟩
      change Safe _ _ (if !link.hasLock then _ else _) _ _
      rw [withholds _ _ _ _ hRun]
      exact hUnexamined
  refine hPass.bind fun _ after hAfter => ?_
  refine safe_unixctlServerRun.mpr ⟨trivial, fun exiting => ?_⟩
  refine safe_loadIdlSeqno.mpr ⟨trivial, safe_getSeqno.mpr ⟨trivial, ?_⟩⟩
  change Safe _ _ (if after.idlSeqno ≠ after.link.seqno then _ else _) _ _
  by_cases hSame : after.idlSeqno = after.link.seqno
  · rw [if_neg (not_not.mpr hSame)]
    split
    · exact hAfter
    · exact safe_pollBlock.mpr ⟨hSame.symm.trans hAfter, hAfter⟩
  · rw [if_pos hSame]
    exact hAfter

/-- A daemon that is not granted the lock changes nothing; and once something has
been delivered to it, it goes round without ever blocking. -/
theorem standby_watches (withholds : WithholdsLock env) {request : Request}
    (reaches : LoopReaches (step env) (mainRound config)
      (CutShort (step env) (mainRound config) restart) Booted request state) :
    Watching state request := by
  refine reaches.allowed (fun top => top.idlSeqno = 0) ?_ ?_ fun top hTop =>
    safe_watching_mainRound withholds hTop
  · rintro _ ⟨world, rfl⟩
    rfl
  · rintro before _ - ⟨cut, last, -, rfl⟩
    rfl

/-- A connection on which somebody else has the lock. -/
def contendedLink : Link :=
  { pmdLink with hasLock := false, isLockContended := true, exclusive := Eq.symm }

def contendedServer : Environment Unit where
  run _ _ _ link' := link' = contendedLink
  commit _ _ _ _ _ _ := False
  insertFails _ _ := False
  discards _ _ _ _ := True
  symlinkFails _ _ := True
  osRelease _ _ := True
  versionDetail _ _ := True

/-- A second round begins, for the first one has not blocked. -/
theorem standby_watches_contended : ∃ state : State Unit,
    state.link.seqno = 1 ∧ Watching state .idlRun := by
  have hRun : step contendedServer (State.boot ()) .idlRun ()
      { State.boot () with link := contendedLink } := ⟨(), contendedLink, rfl, rfl⟩
  have hServe : step contendedServer { State.boot () with link := contendedLink } .unixctlServerRun
      false { State.boot () with link := contendedLink } := rfl
  have hRound : Exec (step contendedServer) (mainRound pmdConfig) (State.boot ()) false
      { State.boot () with link := contendedLink } := by
    refine .call hRun (.call ⟨rfl, rfl⟩ (.call hServe ?_))
    exact .call ⟨rfl, rfl⟩ (.call ⟨rfl, rfl⟩ (.done _ _))
  have hTop : LoopReaches (step contendedServer) (mainRound pmdConfig)
      (CutShort (step contendedServer) (mainRound pmdConfig) restart) Booted .idlRun
      { State.boot () with link := contendedLink } :=
    ⟨_, .round (.start ⟨(), rfl⟩) hRound, .here _ _ _⟩
  refine ⟨_, rfl, standby_watches ?_ hTop⟩
  rintro _ _ _ _ rfl
  rfl

end Standby

section Diligence

/-- Nobody empties a table. -/
def Remains (db db' : Database) : Prop := ∀ table, db.Has table → db'.Has table

/-- Every commit is applied, and what is shown is there; anything may be
added to the tables at any time. The document can be read. -/
def diligentServer (records : List Record) : Environment Database where
  run db _ db' link' := Remains db db' ∧ Remains link'.replica db'
  commit db _ ops status db' link' := status = .success ∧
    (∃ others, Remains db others ∧ db' = applyOps others ops) ∧ Remains link'.replica db'
  insertFails _ _ := False
  discards _ _ _ _ := True
  symlinkFails _ _ := True
  osRelease _ _ := True
  versionDetail _ answer := ∃ events, answer = some events ∧ DocumentOf events records

/-- There is a System row, and there are packages if the document has any. -/
structure Provisioned (records : List Record) (db : Database) : Prop where
  system : db.Has .system
  packages : records ≠ [] → db.Has .packageInfo

variable {records : List Record} {config : Config} {state : State Database}
  {db db' : Database} {link link' : Link} {ops : List Op} {status : TxnStatus}

/-- What is there remains. -/
theorem Provisioned.remains (h : Provisioned records db) (remains : Remains db db') :
    Provisioned records db' :=
  ⟨remains _ h.system, fun hSome => remains _ (h.packages hSome)⟩

/-- A commit leaves what there was. -/
theorem remains_commit (hCommit : (diligentServer records).commit db link ops status db' link') :
    Remains db db' := by
  obtain ⟨-, ⟨others, hOthers, rfl⟩, -⟩ := hCommit
  exact fun table hHas => has_applyOps (hOthers table hHas)

/-- And what it has inserted is there. -/
theorem has_commit (hCommit : (diligentServer records).commit db link ops status db' link')
    {table : Table} (hSome : insertions table ops ≠ []) : db'.Has table := by
  obtain ⟨-, ⟨others, -, rfl⟩, -⟩ := hCommit
  intro hNone
  have hIds := ids_applyOps others ops table
  rw [Database.ids_eq_nil.mpr (not_not.mpr hNone)] at hIds
  exact hSome (List.append_eq_nil_iff.mp hIds.symm).2

/-- What holds between two rounds: what has been examined has been dealt with. -/
structure Attended (records : List Record) (state : State Database) : Prop where
  closed : state.txn = none
  shown : Remains state.link.replica state.world
  completed : state.idlSeqno ≠ 0 → Provisioned records state.world

/-- After the branch on the System row there is one. -/
structure Underway (state : State Database) : Prop where
  closed : state.txn = none
  shown : Remains state.link.replica state.world
  system : state.world.Has .system

/-- The main loop blocks only when it has nothing left to do. -/
abbrev BlocksAtRest (records : List Record) : State Database → Request → Prop :=
  BlocksOnly fun state => state.link.seqno ≠ 0 → Provisioned records state.world

/-- Between two rounds the loop may block. -/
theorem Attended.passEnd (h : Attended records state) :
    PassEnd (BlocksAtRest records) (Attended records) state where
  serves := nofun
  blocks hSame _ hSome := h.completed (hSame ▸ hSome)
  kept := h

/-- After the initial configuration there is a System row. -/
theorem safe_underway_configureFirst (hClosed : state.txn = none) :
    Safe (step (diligentServer records)) (BlocksAtRest records) (configureFirst config)
      (fun _ => Underway) state := by
  refine safe_configureFirst (block_grants _) hClosed (fun _ _ _ => nofun) ?_
  intro system more status world link _ hCommit
  exact ⟨rfl, hCommit.2.2, has_commit hCommit (by simp [insertions])⟩

/-- After the check there still is. -/
theorem safe_underway_checkHardware (h : Underway state) (cfg : RowId) :
    Safe (step (diligentServer records)) (BlocksAtRest records) (checkHardware config cfg)
      (fun _ => Underway) state := by
  refine safe_checkHardware (block_grants _) ?_ (fun _ => h) fun _ => ?_
  · refine safe_sysdUpdateSwInfo_closed h.closed cfg ?_
    rintro request hFilling rfl
    exact hFilling.elim
  refine (safe_sysdChkIfHwDaemonsDone (block_grants _) h.closed).mpr ⟨fun _ => ?_, fun _ => h⟩
  refine safe_sysdSetHwDone (block_grants _) h.closed (fun _ _ _ _ _ _ _ => nofun) ?_
  intro status world link hCommit
  exact ⟨rfl, hCommit.2.2, remains_commit hCommit _ h.system⟩

/-- The packages of the records read so far are there. -/
theorem diligentServer_keeps (records : List Record) :
    Keeps (diligentServer records) fun done db => done ≠ [] → db.Has .packageInfo where
  commit {done pending world world' link link' ops status} _ _ hNonempty _ hOps hCommit _ := by
    refine has_commit hCommit fun hNone => hNonempty ?_
    have hPackages : packagesOf ops = [] := by
      rw [← List.length_eq_zero_iff, packagesOf_length, hNone]
      rfl
    exact List.map_eq_nil_iff.mp (hOps.symm.trans hPackages)

/-- And after the packages the document's are there. -/
theorem safe_provisioned_populatePackages (plain : ∀ record ∈ records, record.Plain)
    (h : Underway state) :
    Safe (step (diligentServer records)) (BlocksAtRest records) populatePackages
      (fun _ after => Underway after ∧ Provisioned records after.world) state := by
  have hPackages : Safe (step (diligentServer records)) (fun _ _ => True) populatePackages
      (fun _ after => after.txn = none ∧ (records ≠ [] → after.world.Has .packageInfo)) state := by
    rw [populatePackages_eq]
    refine safe_rows.mpr ⟨trivial, ?_⟩
    rw [State.view_closed h.closed]
    cases hIds : (state.link.replica.ids .packageInfo).head? with
    | some package =>
        refine ⟨h.closed, fun _ => h.shown _ fun hNone => ?_⟩
        rw [Database.ids, hNone] at hIds
        cases hIds
    | none =>
        refine safe_openVersionDetail.mpr ⟨trivial, ?_⟩
        rintro _ ⟨events, rfl, hDocument⟩
        exact (safe_parseDocument (diligentServer_keeps records) (fun _ => id) hDocument plain
          h.closed fun hNone => absurd rfl hNone).permit fun _ _ _ => trivial
  have hCommit : CommitKeeps (diligentServer records) fun db link =>
      Remains link.replica db ∧ db.Has .system := by
    rintro db link ops status db' link' - ⟨-, hSystem⟩ hCommit
    exact ⟨hCommit.2.2, remains_commit hCommit _ hSystem⟩
  have hOrdinary : Safe (step (diligentServer records)) (fun _ _ => True) populatePackages _ state :=
    safe_ordinary populatePackages_ordinary hCommit (.of_closed h.closed) ⟨h.shown, h.system⟩
      fun _ _ _ _ => trivial
  refine ((hPackages.and hOrdinary).permit_issued populatePackages_calls ?_).mono ?_
  · rintro _ request hCall rfl
    exact hCall.elim
  · rintro - after ⟨⟨hClosed, hFilled⟩, hKept⟩
    exact ⟨⟨hClosed, hKept.kept.1, hKept.kept.2⟩, hKept.kept.2, hFilled⟩

/-- Looking for the time zone changes no table. -/
theorem Underway.safe_sysdHandleTimezoneUpdate (h : Underway state)
    (provisioned : Provisioned records state.world) :
    Safe (step (diligentServer records)) (BlocksAtRest records) sysdHandleTimezoneUpdate
      (fun _ => Attended records) state := by
  have hCommit : CommitKeeps (diligentServer records) fun db link =>
      Remains link.replica db ∧ Provisioned records db := by
    rintro db link ops status db' link' - ⟨-, hProvisioned⟩ hCommit
    exact ⟨hCommit.2.2, hProvisioned.remains (remains_commit hCommit)⟩
  have hPermitted : ∀ middle request, Ordinary request →
      OrdinaryFrom (fun db link => Remains link.replica db ∧ Provisioned records db) state middle →
      BlocksAtRest records middle request := by
    rintro middle _ hRequest - rfl
    exact hRequest.elim
  have hOrdinary := safe_ordinary sysdHandleTimezoneUpdate_ordinary hCommit (.of_closed h.closed)
    ⟨h.shown, provisioned⟩ hPermitted
  refine ((hOrdinary.and (safe_sysdHandleTimezoneUpdate_closed h.closed)).permit
    fun _ _ hBoth => hBoth.1).mono ?_
  exact fun _ after hAfter => ⟨hAfter.2, hAfter.1.kept.1, fun _ => hAfter.1.kept.2⟩

/-- Every round attends to what it examines. -/
theorem Attended.safe_mainRound (plain : ∀ record ∈ records, record.Plain)
    (h : Attended records state) :
    Safe (step (diligentServer records)) (BlocksAtRest records) (mainRound config)
      (fun _ => Attended records) state := by
  refine Daemon.safe_mainRound (block_grants _) ?_ ?_
  · rintro world link ⟨hRemains, hShown⟩ -
    have hHere : Attended records { state with world, link } :=
      ⟨h.closed, hShown, fun hSome => (h.completed hSome).remains hRemains⟩
    exact hHere.passEnd
  rintro world link ⟨-, hShown⟩ - -
  have hSampled : (sampled { state with world, link }).txn = none := h.closed
  refine safe_processChange Underway (block_grants _) h.closed ?_ ?_ ?_
  · exact fun _ => safe_underway_configureFirst hSampled
  · intro cfg hSystem
    exact safe_underway_checkHardware ⟨hSampled, hShown, hShown _ hSystem⟩ cfg
  · intro after hAfter
    refine (safe_provisioned_populatePackages plain hAfter).bind ?_
    rintro - populated ⟨hUnderway, hProvisioned⟩
    exact (hUnderway.safe_sysdHandleTimezoneUpdate hProvisioned).mono
      fun _ _ hEnd => hEnd.passEnd

/-- Whenever the main loop blocks, either nothing has been delivered yet or the
switch is configured and its packages have been added; however often the daemon
has been cut short and started again. -/
theorem rests_when_provisioned (plain : ∀ record ∈ records, record.Plain)
    (hBlocks : LoopReaches (step (diligentServer records)) (mainRound config)
      (CutShort (step (diligentServer records)) (mainRound config) restart) Booted .pollBlock state)
    (hSome : state.link.seqno ≠ 0) : Provisioned records state.world := by
  refine hBlocks.allowed (Attended records) ?_ ?_ (fun top hTop => hTop.safe_mainRound plain) rfl hSome
  · rintro _ ⟨db, rfl⟩
    exact ⟨rfl, fun _ hHas => absurd rfl hHas, fun hZero => absurd rfl hZero⟩
  · rintro before _ - ⟨request, last, -, rfl⟩
    exact ⟨rfl, fun _ hHas => absurd rfl hHas, fun hZero => absurd rfl hZero⟩

end Diligence

section FirstBoot

/-- Here nobody else writes, and what is committed is not delivered yet. -/
def quietServer : Environment Database :=
  { diligentServer sampleRecords with
    run := fun db _ db' link' => db' = db ∧ link' = emptyLink
    commit := fun db _ ops status db' link' =>
      status = .success ∧ db' = applyOps db ops ∧ link' = emptyLink }

theorem emptyLink_remains {db : Database} : Remains emptyLink.replica db :=
  fun _ hHas => absurd rfl hHas

/-- What happens here may happen with the diligent server. -/
theorem step_quiet (before : State Database) (request : Request) (answer : request.Response)
    (after : State Database) (hStep : step quietServer before request answer after) :
    step (diligentServer sampleRecords) before request answer after := by
  cases request with
  | idlRun =>
      obtain ⟨db, link, ⟨rfl, rfl⟩, hAfter⟩ := hStep
      exact ⟨_, _, ⟨fun _ => id, emptyLink_remains⟩, hAfter⟩
  | commitBlock txn =>
      obtain ⟨current, hOpen, hId, db, link, ⟨hStatus, rfl, rfl⟩, hAfter⟩ := hStep
      exact ⟨current, hOpen, hId, _, _, ⟨hStatus, ⟨_, fun _ => id, rfl⟩, emptyLink_remains⟩, hAfter⟩
  | _ => exact hStep

theorem quietServer_total : quietServer.Total where
  run db _ := ⟨db, emptyLink, rfl, rfl⟩
  commit db _ ops := ⟨.success, applyOps db ops, emptyLink, rfl, rfl, rfl⟩
  osRelease _ := ⟨none, trivial⟩
  versionDetail _ := ⟨_, _, rfl, sampleDocument⟩

/-- A pass that has received the empty database. -/
structure Quiet (state : State Database) : Prop where
  closed : state.txn = none
  link : state.link = emptyLink
  idlSeqno : state.idlSeqno = 1

/-- The daemon sees empty tables. -/
theorem Quiet.ids {state : State Database} (h : Quiet state) (table : Table) :
    state.view.ids table = [] := by
  rw [State.view_closed h.closed, h.link]
  rfl

theorem pmdConfig_sufficient : Sufficient pmdConfig := by
  refine ⟨⟨Option.some_ne_none _, .inl rfl, .inl rfl, profilesSuffice_of_none rfl⟩,
    Option.some_ne_none _, List.cons_ne_nil _ _, fun subsys hSubsys => ?_⟩
  obtain rfl := List.mem_singleton.mp hSubsys
  exact ⟨by decide, by decide⟩

/-- It configures the switch, whatever allocations fail. -/
theorem Quiet.safe_configureFirst {state : State Database} (h : Quiet state) :
    Safe (step quietServer) Disciplined (configureFirst pmdConfig) (fun _ => Quiet) state := by
  have hQuiet : Safe (step quietServer) (BlocksOnly fun _ => True) (configureFirst pmdConfig)
      (fun _ => Quiet) state := by
    refine Daemon.safe_configureFirst (block_grants _) h.closed (fun _ _ _ _ => trivial) ?_
    exact fun _ _ _ _ _ _ hCommit => ⟨rfl, hCommit.2.2, h.idlSeqno⟩
  have hRuns : Safe (step quietServer) Disciplined (configureFirst pmdConfig) (fun _ _ => True)
      state := by
    refine safe_txnCreate.mpr ⟨h.closed, fun _ => ?_⟩
    have hAdmits : Admits quietServer Disciplined := ⟨fun _ _ h => h, fun _ _ h => h.elim⟩
    have hInitial : Runs quietServer Disciplined state.nextTxn
        (sysdInitialConfigure pmdConfig state.nextTxn) :=
      sysdInitialConfigure_runs hAdmits pmdConfig_sufficient
    have hOpened : State.Opened { state with
        txn := some ⟨state.nextTxn, []⟩, nextTxn := state.nextTxn + 1 } state.nextTxn := ⟨_, rfl, rfl⟩
    refine (hInitial _ _ hOpened rfl).bind ?_
    rintro - after ⟨⟨current, hOpen, hId⟩, -⟩
    refine safe_commitBlock.mpr ⟨⟨current, hOpen, hId⟩, fun _ _ _ status world link _ => ?_⟩
    refine safe_txnDestroy.mpr ⟨?_, trivial⟩
    rintro ⟨_, hCurrent, -⟩
    cases hCurrent
  exact ((hRuns.and hQuiet).permit fun _ _ h => h.1).mono fun _ _ h => h.2

/-- It adds the packages of the sample document. -/
theorem Quiet.safe_populatePackages {state : State Database} (h : Quiet state) :
    Safe (step quietServer) Disciplined populatePackages (fun _ => Quiet) state := by
  have hCommit : CommitKeeps quietServer fun _ link => link = emptyLink := by
    rintro db link ops status db' link' - - hCommit
    exact hCommit.2.2
  have hOrdinary : Safe (step quietServer) (fun _ _ => True) populatePackages _ state :=
    safe_ordinary populatePackages_ordinary hCommit (.of_closed h.closed) h.link
      fun _ _ _ _ => trivial
  have hRuns : Safe (step quietServer) Disciplined populatePackages
      (fun _ after => after.txn = none ∧ True) state := by
    have hKeeps : Keeps quietServer fun _ _ => True := ⟨fun _ _ _ _ _ _ => trivial⟩
    rw [populatePackages_eq]
    refine safe_rows.mpr ⟨trivial, ?_⟩
    rw [h.ids]
    refine safe_openVersionDetail.mpr ⟨trivial, ?_⟩
    rintro _ ⟨events, rfl, hDocument⟩
    exact safe_parseDocument hKeeps (fun _ => id) hDocument sampleRecords_plain h.closed trivial
  refine ((hRuns.and hOrdinary).permit fun _ _ h => h.1).mono ?_
  exact fun _ _ hAfter => ⟨hAfter.1.1, hAfter.2.kept, hAfter.2.loop.idlSeqno.trans h.idlSeqno⟩

/-- A first pass on the empty database runs to its end. -/
theorem safe_quiet_sysdRun :
    Safe (step quietServer) Disciplined (sysdRun pmdConfig) (fun _ => Quiet) (State.boot []) := by
  have hCalls : PassCalls (Disciplined : State Database → Request → Prop) := by
    intro state request hCall
    cases request <;> first | exact hCall.elim | trivial
  refine hCalls.safe_sysdRun trivial ?_ ?_
  · rintro db link ⟨rfl, rfl⟩ hSame
    exact absurd (hSame rfl) Nat.one_ne_zero
  rintro db link ⟨rfl, rfl⟩ - -
  have hSampled : Quiet (sampled { State.boot [] with link := emptyLink }) := ⟨rfl, rfl, rfl⟩
  refine hCalls.safe_processChange Quiet rfl (fun _ => hSampled.safe_configureFirst) ?_ ?_
  · exact fun _ hSystem => absurd rfl hSystem
  · intro after hAfter
    refine hAfter.safe_populatePackages.bind fun _ populated hPopulated => ?_
    rw [sysdHandleTimezoneUpdate, first_bind]
    refine safe_rows.mpr ⟨trivial, ?_⟩
    rw [hPopulated.ids]
    exact hPopulated

/-- A first boot configures the switch, adds both packages and rests. -/
theorem rests_when_provisioned_firstBoot : ∃ state : State Database,
    Reaches (step (diligentServer sampleRecords)) (mainRound pmdConfig) (State.boot []) .pollBlock
      state ∧ state.link.seqno = 1 ∧ Provisioned sampleRecords state.world := by
  obtain ⟨_, last, hExec, hQuiet⟩ := safe_quiet_sysdRun.exec (step_total quietServer_total)
  have hSeqno : last.link.seqno = 1 := congrArg Link.seqno hQuiet.link
  have hRest : Reaches (step (diligentServer sampleRecords)) (do
      let exiting ← unixctlServerRun
      sysdWait exiting) last .pollBlock last := by
    have hServed : step (diligentServer sampleRecords) last .unixctlServerRun false last := rfl
    have hLoaded : step (diligentServer sampleRecords) last .loadIdlSeqno (1 : Nat) last :=
      ⟨hQuiet.idlSeqno.symm, rfl⟩
    have hRead : step (diligentServer sampleRecords) last .getSeqno (1 : Nat) last :=
      ⟨hSeqno.symm, rfl⟩
    exact .later hServed (.later hLoaded (.later hRead (.here _ _ _)))
  have hReaches : Reaches (step (diligentServer sampleRecords)) (mainRound pmdConfig) (State.boot [])
      .pollBlock last := Reaches.bind_right (hExec.widen step_quiet) hRest
  have hBlocks : LoopReaches (step (diligentServer sampleRecords)) (mainRound pmdConfig)
      (CutShort (step (diligentServer sampleRecords)) (mainRound pmdConfig) restart) Booted .pollBlock
      last := ⟨_, .start ⟨[], rfl⟩, hReaches⟩
  refine ⟨last, hReaches, hSeqno, rests_when_provisioned sampleRecords_plain hBlocks ?_⟩
  rw [hSeqno]
  exact Nat.one_ne_zero

end FirstBoot
end OpsSysd.Daemon
