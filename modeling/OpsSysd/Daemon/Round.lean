import OpsSysd.Daemon.HardwareCheck

/-! Rules for a round of the main loop: what is left to show once the calls
that only read have been made. -/
namespace OpsSysd.Daemon

open CLib Interaction Interaction.Program Idl

section Rules

variable {World : Type} {env : Environment World} {permitted : State World → Request → Prop}
  {invariant : State World → Prop} {post : Unit → State World → Prop} {state : State World}
  {config : Config}

/-- Calls on the variables of the main loop, and the look at the System row. -/
def PassCall : Request → Prop
  | .isLockContended | .hasLock | .getSeqno | .loadIdlSeqno | .storeIdlSeqno _
  | .loadHwInitDoneSet | .storeHwInitDoneSet _ | .rows .system | .daemonizeComplete
  | .startPass => True
  | _ => False

/-- These are permitted anywhere. -/
def PassCalls (permitted : State World → Request → Prop) : Prop :=
  ∀ state request, PassCall request → permitted state request

theorem Grants.passCalls (grants : Grants permitted) : PassCalls permitted := by
  intro state request hCall
  cases request with
  | rows table => exact grants.loop trivial
  | isLockContended | hasLock | getSeqno | loadIdlSeqno | loadHwInitDoneSet | daemonizeComplete =>
      exact grants.loop trivial
  | storeIdlSeqno _ | storeHwInitDoneSet _ | startPass => exact grants.loop trivial
  | _ => exact hCall.elim

/-- What is to be shown where a pass has ended. -/
structure PassEnd (permitted : State World → Request → Prop) (invariant : State World → Prop)
    (state : State World) : Prop where
  serves : permitted state .unixctlServerRun
  blocks : state.idlSeqno = state.link.seqno → permitted state .pollBlock
  kept : invariant state

/-- After a pass that ends well the round does. -/
theorem PassCalls.safe_rest (calls : PassCalls permitted) (h : PassEnd permitted invariant state) :
    Safe (step env) permitted (do
      let exiting ← unixctlServerRun
      sysdWait exiting) (fun _ => invariant) state := by
  refine safe_unixctlServerRun.mpr ⟨h.serves, fun exiting => ?_⟩
  refine safe_loadIdlSeqno.mpr ⟨calls _ _ trivial, safe_getSeqno.mpr ⟨calls _ _ trivial, ?_⟩⟩
  change Safe _ _ (if state.idlSeqno ≠ state.link.seqno then _ else _) _ _
  by_cases hSame : state.idlSeqno = state.link.seqno
  · rw [if_neg (not_not.mpr hSame)]
    split
    · exact h.kept
    · exact safe_pollBlock.mpr ⟨h.blocks hSame, h.kept⟩
  · rw [if_pos hSame]
    exact h.kept

/-- A pass, up to what it does with a change. -/
theorem PassCalls.safe_sysdRun (calls : PassCalls permitted) (hPermitted : permitted state .idlRun)
    (hIdle : ∀ world link, env.run state.world state.link world link →
      (link.hasLock = true → link.seqno = state.idlSeqno) → post () { state with world, link })
    (hChange : ∀ world link, env.run state.world state.link world link → link.hasLock = true →
      link.seqno ≠ state.idlSeqno →
      Safe (step env) permitted (processChange config) post { state with world, link }) :
    Safe (step env) permitted (sysdRun config) post state := by
  refine safe_idlRun.mpr ⟨hPermitted, fun world link hRun => ?_⟩
  refine safe_isLockContended.mpr ⟨calls _ _ trivial, ?_⟩
  change Safe _ _ (if link.isLockContended then _ else _) _ _
  by_cases hContended : link.isLockContended = true
  · rw [if_pos hContended]
    refine hIdle world link hRun fun hLock => ?_
    exact absurd hContended (by simp [link.exclusive hLock])
  rw [if_neg hContended]
  refine safe_hasLock.mpr ⟨calls _ _ trivial, ?_⟩
  change Safe _ _ (if !link.hasLock then _ else _) _ _
  cases hLock : link.hasLock with
  | false => exact hIdle world link hRun (by simp [hLock])
  | true =>
      refine safe_getSeqno.mpr ⟨calls _ _ trivial, safe_loadIdlSeqno.mpr ⟨calls _ _ trivial, ?_⟩⟩
      have hComplete : ∀ after, post () after →
          Safe (step env) permitted daemonizeComplete post after :=
        fun after hPost => safe_daemonizeComplete.mpr ⟨calls _ _ trivial, hPost⟩
      change Safe _ _ (if link.seqno ≠ state.idlSeqno
        then processChange config >>= fun _ => daemonizeComplete else daemonizeComplete) _ _
      by_cases hSame : link.seqno = state.idlSeqno
      · rw [if_neg (not_not.mpr hSame)]
        exact hComplete _ (hIdle world link hRun fun _ => hSame)
      · rw [if_pos hSame]
        exact (hChange world link hRun hLock hSame).bind fun _ after hPost => hComplete after hPost

/-- A round, up to what its pass does with a change. -/
theorem PassCalls.safe_mainRound (calls : PassCalls permitted) (hPermitted : permitted state .idlRun)
    (hIdle : ∀ world link, env.run state.world state.link world link →
      (link.hasLock = true → link.seqno = state.idlSeqno) →
      PassEnd permitted invariant { state with world, link })
    (hChange : ∀ world link, env.run state.world state.link world link → link.hasLock = true →
      link.seqno ≠ state.idlSeqno →
      Safe (step env) permitted (processChange config) (fun _ => PassEnd permitted invariant)
        { state with world, link }) :
    Safe (step env) permitted (mainRound config) (fun _ => invariant) state :=
  (calls.safe_sysdRun hPermitted hIdle hChange).bind fun _ _ hEnd => calls.safe_rest hEnd

/-- What every pass with a change ends with. -/
def restOfPass : Program Calls Unit := do
  populatePackages
  sysdHandleTimezoneUpdate

/-- A pass begins by noting its number, and goes by the first System row. -/
theorem processChange_eq (config : Config) : processChange config =
    .call .startPass fun _ => .call .getSeqno fun seqno => .call (.storeIdlSeqno seqno) fun _ =>
      .call (.rows .system) fun ids =>
        ids.head?.elim (configureFirst config) (checkHardware config) >>= fun _ => restOfPass := by
  simp only [processChange, first_bind, call_bind, done_bind]
  congr 1; funext _; congr 1; funext seqno; congr 1; funext _; congr 1; funext ids
  cases ids.head? <;> rfl

/-- The snapshot a pass works on, and the note that a pass has started on it. -/
def sampled (state : State World) : State World :=
  { state with idlSeqno := state.link.seqno, examined := state.link.seqno :: state.examined }

/-- What a pass does with a change, up to its two branches and its end. -/
theorem PassCalls.safe_processChange (calls : PassCalls permitted) (middle : State World → Prop)
    (hClosed : state.txn = none)
    (hFirst : ¬ state.link.replica.Has .system →
      Safe (step env) permitted (configureFirst config) (fun _ => middle) (sampled state))
    (hCheck : ∀ cfg, state.link.replica.Has .system →
      Safe (step env) permitted (checkHardware config cfg) (fun _ => middle) (sampled state))
    (hRest : ∀ after, middle after →
      Safe (step env) permitted restOfPass post after) :
    Safe (step env) permitted (processChange config) post state := by
  rw [processChange_eq]
  refine safe_startPass.mpr ⟨calls _ _ trivial, ?_⟩
  refine safe_getSeqno.mpr ⟨calls _ _ trivial, safe_storeIdlSeqno.mpr ⟨calls _ _ trivial, ?_⟩⟩
  refine safe_rows.mpr ⟨calls _ _ trivial, ?_⟩
  have hIds : (sampled state).view.ids .system = state.link.replica.ids .system :=
    congrArg (·.ids .system) (@State.view_closed _ (sampled state) hClosed)
  change Safe _ _ (((sampled state).view.ids .system).head?.elim _ _ >>= _) _ (sampled state)
  rw [hIds]
  cases hSystem : (state.link.replica.ids .system).head? with
  | none =>
      refine (hFirst ?_).bind fun _ after h => hRest after h
      exact Database.ids_eq_nil.mp (List.head?_eq_none_iff.mp hSystem)
  | some cfg =>
      refine (hCheck cfg fun hNone => ?_).bind fun _ after h => hRest after h
      rw [Database.ids, hNone] at hSystem
      cases hSystem

/-- The check of the hardware, once the software information has changed nothing. -/
theorem PassCalls.safe_checkHardware (calls : PassCalls permitted) {cfg : RowId}
    (hSoftware : Safe (step env) permitted (sysdUpdateSwInfo config cfg)
      (fun _ after => after = state) state)
    (hDone : state.hwInitDoneSet = true → post () state)
    (hCheck : state.hwInitDoneSet = false →
      Safe (step env) permitted (sysdChkIfHwDaemonsDone config) post state) :
    Safe (step env) permitted (checkHardware config cfg) post state := by
  refine hSoftware.bind ?_
  rintro - _ rfl
  refine safe_loadHwInitDoneSet.mpr ⟨calls _ _ trivial, ?_⟩
  change Safe _ _ (if _ then _ else _) _ _
  split
  case isTrue hSet => exact hDone hSet
  case isFalse hUnset => exact hCheck (Bool.eq_false_iff.mpr hUnset)

/-- The same where everything is permitted that neither changes rows nor commits. -/
theorem safe_mainRound (grants : Grants permitted)
    (hIdle : ∀ world link, env.run state.world state.link world link →
      (link.hasLock = true → link.seqno = state.idlSeqno) →
      PassEnd permitted invariant { state with world, link })
    (hChange : ∀ world link, env.run state.world state.link world link → link.hasLock = true →
      link.seqno ≠ state.idlSeqno →
      Safe (step env) permitted (processChange config) (fun _ => PassEnd permitted invariant)
        { state with world, link }) :
    Safe (step env) permitted (mainRound config) (fun _ => invariant) state :=
  grants.passCalls.safe_mainRound (grants.loop trivial) hIdle hChange

theorem safe_processChange (middle : State World → Prop) (grants : Grants permitted)
    (hClosed : state.txn = none)
    (hFirst : ¬ state.link.replica.Has .system →
      Safe (step env) permitted (configureFirst config) (fun _ => middle) (sampled state))
    (hCheck : ∀ cfg, state.link.replica.Has .system →
      Safe (step env) permitted (checkHardware config cfg) (fun _ => middle) (sampled state))
    (hRest : ∀ after, middle after →
      Safe (step env) permitted restOfPass post after) :
    Safe (step env) permitted (processChange config) post state :=
  grants.passCalls.safe_processChange middle hClosed hFirst hCheck hRest

theorem safe_checkHardware {cfg : RowId} (grants : Grants permitted)
    (hSoftware : Safe (step env) permitted (sysdUpdateSwInfo config cfg)
      (fun _ after => after = state) state)
    (hDone : state.hwInitDoneSet = true → post () state)
    (hCheck : state.hwInitDoneSet = false →
      Safe (step env) permitted (sysdChkIfHwDaemonsDone config) post state) :
    Safe (step env) permitted (checkHardware config cfg) post state :=
  grants.passCalls.safe_checkHardware hSoftware hDone hCheck

/-- The timezone opens no transaction. -/
theorem safe_sysdHandleTimezoneUpdate_closed (hClosed : state.txn = none) :
    Safe (step env) anyCall sysdHandleTimezoneUpdate (fun _ after => after.txn = none) state := by
  rw [sysdHandleTimezoneUpdate, first_bind]
  refine safe_rows.mpr ⟨trivial, ?_⟩
  cases (state.view.ids .system).head? with
  | none => exact hClosed
  | some cfg =>
      refine safe_read.mpr ⟨trivial, ?_⟩
      cases state.view.get cfg .systemTimezone with
      | none => exact safe_fault.mpr trivial
      | some timezone =>
          change Safe _ _ (if _ then _ else _) _ _
          split
          · exact safe_fault.mpr trivial
          · exact safe_unlink.mpr ⟨trivial, fun _ => safe_symlink.mpr ⟨trivial, fun _ _ => hClosed⟩⟩

/-- The end of a pass keeps what ordinary commits keep, and leaves no
transaction open. -/
theorem safe_restOfPass (kept : World → Link → Prop) (hCommit : CommitKeeps env kept)
    (hClosed : state.txn = none) (hKept : kept state.world state.link)
    (hPermitted : ∀ middle request, Ordinary request → OrdinaryTxn middle → permitted middle request) :
    Safe (step env) permitted restOfPass
      (fun _ after => after.txn = none ∧ SameLoop state after ∧ kept after.world after.link)
      state := by
  have hIssues : restOfPass.Issues Ordinary :=
    populatePackages_ordinary.bind fun _ => sysdHandleTimezoneUpdate_ordinary
  have hOrdinary := safe_ordinary hIssues hCommit (.of_closed hClosed) hKept
    fun middle request hRequest h => hPermitted middle request hRequest h.txn
  have hClosing : Safe (step env) anyCall restOfPass (fun _ after => after.txn = none) state :=
    (safe_populatePackages_closed hClosed).bind fun _ after hAfter =>
      safe_sysdHandleTimezoneUpdate_closed hAfter
  refine ((hOrdinary.and hClosing).permit fun _ _ h => h.1).mono ?_
  exact fun _ after h => ⟨h.2, h.1.loop, h.1.kept⟩

/-- The main loop blocks only in such states. -/
def BlocksOnly (good : State World → Prop) (state : State World) (request : Request) : Prop :=
  request = .pollBlock → good state

theorem block_grants (good : State World → Prop) : Grants (BlocksOnly good) where
  loop {state request} hLoop hBlock := by
    subst hBlock
    exact hLoop.elim
  create _ := nofun
  insert _ _ := nofun
  fill {state txn request} hFilling _ hBlock := by
    subst hBlock
    exact hFilling.elim
  commit _ _ := nofun
  destroy _ _ := nofun

end Rules

section Runs

variable {World Result : Type} {env : Environment World} {permitted : State World → Request → Prop}
  {post : Result → State World → Prop} {state : State World} {config : Config}

/-- What a safe round says of a pass with a change. -/
theorem change_of_safe {post : Bool → State World → Prop}
    (hSafe : Safe (step env) permitted (mainRound config) post state) {world : World} {link : Link}
    (hRun : env.run state.world state.link world link) (hLock : link.hasLock = true)
    (hSeqno : link.seqno ≠ state.idlSeqno) :
    Safe (step env) permitted (processChange config)
      (fun _ => PassEnd permitted fun _ => True) { state with world, link } := by
  have hEnd : ∀ after, Safe (step env) permitted (do
      let exiting ← unixctlServerRun
      sysdWait exiting) post after → PassEnd permitted (fun _ => True) after := by
    intro after hRest
    refine ⟨(safe_unixctlServerRun.mp hRest).1, fun hSame => ?_, trivial⟩
    have hWait := (safe_unixctlServerRun.mp hRest).2 false
    simp [sysdWait, hSame] at hWait
    exact hWait.2.2.1
  have hPass := (safe_idlRun.mp (safe_bind.mp hSafe)).2 world link hRun
  simp only [bind_eq, done_bind, hLock, link.exclusive hLock, safe_isLockContended, safe_hasLock,
    safe_getSeqno, safe_loadIdlSeqno, Bool.false_eq_true, if_false, Bool.not_true, ne_eq, hSeqno,
    not_false_eq_true, if_true, call_bind, safe_bind] at hPass
  exact hPass.2.2.2.2.mono fun _ after h => hEnd after (safe_daemonizeComplete.mp h).2

/-- What a safe pass says of its branch on a configured database. -/
theorem branch_of_safe {post : Unit → State World → Prop}
    (hSafe : Safe (step env) permitted (processChange config) post state)
    (hClosed : state.txn = none) {cfg : RowId} {others : List RowId}
    (hIds : state.link.replica.ids .system = cfg :: others) :
    Safe (step env) permitted (checkHardware config cfg)
      (fun _ => Safe (step env) permitted restOfPass post) (sampled state) := by
  rw [processChange_eq] at hSafe
  have hStarted := (safe_startPass.mp hSafe).2
  have hBranch := (safe_rows.mp (safe_storeIdlSeqno.mp (safe_getSeqno.mp hStarted).2).2).2
  have hView : (sampled state).view.ids .system = state.link.replica.ids .system :=
    congrArg (·.ids .system) (@State.view_closed _ (sampled state) hClosed)
  change Safe _ _ (((sampled state).view.ids .system).head?.elim _ _ >>= _) _ (sampled state)
    at hBranch
  rw [hView, hIds] at hBranch
  exact safe_bind.mp hBranch

/-- What it says of the check of the hardware daemons. -/
theorem check_of_safe {post : Unit → State World → Prop} {cfg : RowId}
    (hSafe : Safe (step env) permitted (checkHardware config cfg) post state)
    (hUnset : state.hwInitDoneSet = false) (hRelease : env.osRelease state.world none) :
    Safe (step env) permitted (sysdChkIfHwDaemonsDone config) post state := by
  have hCheck := (safe_openOsRelease.mp hSafe).2 none hRelease
  have hHardware := (safe_loadHwInitDoneSet.mp hCheck).2
  change Safe _ _ (if state.hwInitDoneSet = true then _ else _) _ _ at hHardware
  rw [hUnset] at hHardware
  exact hHardware

/-- What a safe publication says where it has written. -/
theorem written_of_safe {post : Unit → State World → Prop}
    (hSafe : Safe (step env) permitted sysdSetHwDone post state) (hClosed : state.txn = none) :
    Safe (step env) permitted (do
      let _ ← commitBlock state.nextTxn
      txnDestroy state.nextTxn
      storeHwInitDoneSet true) post { state with
        txn := some ⟨state.nextTxn, hwDoneOps (state.link.replica.ids .system)⟩,
        nextTxn := state.nextTxn + 1 } := by
  have hLoop : ∀ (systems : List RowId) (ops : List Op) {after : Unit → Program Calls Unit},
      Safe (step env) permitted ((forM systems fun system => do
        write system .systemCurHw (1 : Int)
        write system .systemNextHw (1 : Int)) >>= after) post
        { state with txn := some ⟨state.nextTxn, ops⟩, nextTxn := state.nextTxn + 1 } →
      Safe (step env) permitted (after ()) post { state with
        txn := some ⟨state.nextTxn, ops ++ hwDoneOps systems⟩, nextTxn := state.nextTxn + 1 } := by
    intro systems
    induction systems with
    | nil => exact fun ops after h => (List.append_nil ops).symm ▸ h
    | cons system systems ih =>
        intro ops after h
        rw [List.forM_cons, bind_assoc] at h
        have hFirst := (safe_write.mp h).2.2 _ rfl (1 : Int) rfl
        have hSecond := (safe_write.mp hFirst).2.2 _ rfl (1 : Int) rfl
        simpa [hwDoneOps] using ih _ hSecond
  have hRows := (safe_rows.mp ((safe_txnCreate.mp hSafe).2 hClosed)).2
  exact hLoop _ [] hRows

/-- What a safe publication says of its outcome. -/
theorem set_of_safe {post : Unit → State World → Prop}
    (hSafe : Safe (step env) permitted sysdSetHwDone post state) (hClosed : state.txn = none)
    {status : TxnStatus} {world : World} {link : Link}
    (hCommit : env.commit state.world state.link (hwDoneOps (state.link.replica.ids .system)) status
      world link) :
    post () { state with
      world, link, txn := none, nextTxn := state.nextTxn + 1, hwInitDoneSet := true } := by
  have hWritten := written_of_safe hSafe hClosed
  have hDone := (safe_commitBlock.mp hWritten).2 _ rfl rfl status world link hCommit
  exact (safe_storeHwInitDoneSet.mp (safe_txnDestroy.mp hDone).2).2

/-- What the end of a pass says where the packages are there and the timezone is
the default. -/
theorem rest_of_safe {post : Unit → State World → Prop}
    (hSafe : Safe (step env) permitted restOfPass post state)
    {system package : RowId} {systems packages : List RowId}
    (hPackages : state.view.ids .packageInfo = package :: packages)
    (hSystem : state.view.ids .system = system :: systems)
    (hTimezone : state.view.get system .systemTimezone = some dfltTimezone) : post () state := by
  have hPath : ¬ timezoneCmdSize ≤ (timezoneBasePath ++ dfltTimezone).length := by decide
  simp only [restOfPass, populatePackages, sysdHandleTimezoneUpdate, first, call_bind, done_bind,
    pure_eq, safe_rows, hPackages, hSystem, List.head?_cons, safe_read, hTimezone, orFault, hPath,
    if_false, safe_unlink, safe_symlink, safe_done] at hSafe
  exact (hSafe.2.2.2.2 true).2 true fun hFails => absurd hFails.symm Bool.false_ne_true

/-- A connection that has just delivered this snapshot, with the lock. -/
def delivering (db : Database) (distinct : (db.map Row.id).Nodup) : Link where
  replica := db
  seqno := 1
  hasLock := true
  isLockContended := false
  distinct := distinct
  exclusive := fun _ => rfl

/-- A connection to the empty database. -/
def emptyLink : Link := delivering [] List.nodup_nil

/-- A switch with one hardware daemon. -/
def pmdConfig : Config := .onePort [⟨.lit "ops-pmd", true, 0⟩]

/-- A System row with the default timezone. -/
def defaultSystem : Row := (Row.fresh 0 .system).set .systemTimezone (some dfltTimezone)

/-- Its database when it has been configured and the daemon is done. -/
def pmdDone : Database :=
  [defaultSystem, daemonRow 1 (.lit "ops-pmd", true) 1, Row.fresh 2 .packageInfo]

def pmdLink : Link := delivering pmdDone (by decide)

/-- The check finds the daemon done. -/
theorem pmdDone_ready : Ready pmdConfig (pmdLink.replica.rows .daemon) := by
  have hVerdict : verdict (.lit "ops-pmd") (pmdLink.replica.rows .daemon) = .found := rfl
  refine .inr ⟨fun daemon hDaemon _ => ?_, ⟨.lit "ops-pmd", true, 0⟩, List.mem_cons_self, rfl, hVerdict⟩
  obtain rfl := List.mem_singleton.mp hDaemon
  rw [hVerdict]
  exact nofun

/-- Whatever happened, a daemon that is started again starts afresh. -/
def restart (before after : State World) : Prop := after = State.boot before.world

/-- Where the check is ready, a first pass reports the hardware, and the main
loop blocks, however the commit has ended. -/
theorem exists_block_after_report {start before after : World} {link : Link} {status : TxnStatus}
    {system package : RowId} {systems packages : List RowId}
    (between : State World → State World → Prop) (starts : State World → Prop)
    (hStart : starts (State.boot start)) (hRun : env.run start .initial before link)
    (hLock : link.hasLock = true) (hSeqno : link.seqno ≠ 0)
    (hSystem : link.replica.ids .system = system :: systems)
    (hPackages : link.replica.ids .packageInfo = package :: packages)
    (hTimezone : link.replica.get system .systemTimezone = some dfltTimezone)
    (hRelease : env.osRelease before none) (hReady : Ready config (link.replica.rows .daemon))
    (hCommit : env.commit before link (hwDoneOps (link.replica.ids .system)) status after link) :
    ∃ state, LoopReaches (step env) (mainRound config) between starts .pollBlock state ∧
      state.world = after ∧ state.link = link ∧ state.hwInitDoneSet = true := by
  by_contra hNone
  have hSafe : Safe (step env) (BlocksOnly fun state => ¬ (state.world = after ∧ state.link = link ∧
      state.hwInitDoneSet = true)) (mainRound config) (fun _ _ => True) (State.boot start) := by
    refine safe_iff.mpr ⟨?_, fun _ _ _ => trivial⟩
    rintro request state hReaches rfl hState
    exact hNone ⟨state, ⟨_, .start hStart, hReaches⟩, hState⟩
  have hChange := change_of_safe hSafe hRun hLock hSeqno
  have hCheck := check_of_safe (branch_of_safe hChange rfl hSystem) rfl hRelease
  have hSet := ((safe_sysdChkIfHwDaemonsDone (block_grants _) rfl).mp hCheck).1 hReady
  have hRest := set_of_safe hSet rfl hCommit
  have hEnd := rest_of_safe hRest hPackages hSystem hTimezone
  exact hEnd.blocks rfl rfl ⟨rfl, rfl, rfl⟩

end Runs
end OpsSysd.Daemon
