import OpsSysd.Daemon.WholeConfiguration
import OpsSysd.Daemon.NotedRound

/-! The transaction with which the daemon configures a database. It is committed
also where an allocation has failed, and then it is not whole; the daemon never
configures again a database that has a System row. -/
namespace OpsSysd.Daemon

open CLib Interaction Interaction.Program Idl

section Commits

variable {World : Type} {env : Environment World} {config : Config} {state : State World}
  {note : Bool}

/-- No configuration is committed. -/
def NotConfiguring (state : State World) (request : Request) : Prop :=
  ∀ txn current, request = .commitBlock txn → state.txn = some current →
    ¬ Configuration current.ops

theorem notConfiguring_grants : Grants (@NotConfiguring World) where
  loop hLoop := by
    rintro txn current rfl
    exact hLoop.elim
  create _ := nofun
  insert _ _ := nofun
  fill hFilling _ := by
    rintro txn current rfl
    exact hFilling.elim
  commit hOpen hOps := by
    rintro _ current - hCurrent
    obtain rfl := Option.some.inj (hOpen.symm.trans hCurrent)
    exact hOps
  destroy _ _ := nofun

/-- A configuration that is committed is the whole one, or an allocation has failed
and it lacks a part. -/
def Accountable (env : Environment World) (config : Config) (noted : State World × Bool)
    (request : Request) : Prop :=
  ∀ txn current, request = .commitBlock txn → noted.1.txn = some current →
    Configuration current.ops → ∃ system, noted.1.view.ids .system = [system] ∧
      AllocationOutcome false noted.2
        (WholeConfiguration env config noted.1.world system noted.1.link.replica noted.1.view)
        (LacksPart system noted.1.view)

/-- Only commits of configurations have to be accounted for. -/
theorem NotConfiguring.accountable {noted : State World × Bool} {request : Request}
    (h : NotConfiguring noted.1 request) : Accountable env config noted request :=
  fun txn current hRequest hOpen hConfiguration => absurd hConfiguration (h txn current hRequest hOpen)

/-- What is safe and configures nothing is safe with notes. -/
theorem accountable_of_safe {Result : Type} {program : Program Calls Result}
    {post : Result → State World → Prop}
    (safe : Safe (step env) NotConfiguring program post state) (note : Bool) :
    Safe (allocating env) (Accountable env config) program (fun result after => post result after.1)
      (state, note) :=
  (Safe.noted safe note).permit fun _ _ => NotConfiguring.accountable

theorem sysdInitialConfigure_issues (txn : TxnId) :
    (sysdInitialConfigure config txn).Issues fun request : Request =>
      ∀ txn, request ≠ .commitBlock txn := by
  rw [sysdInitialConfigure, issues_insertRow_bind]
  refine ⟨nofun, nofun, fun system => (fills_of_lists (configureSystem_lists system)).mono ?_⟩
  rintro _ hFilling txn rfl
  exact hFilling.elim

/-- The branch of `sysd_run` that configures. -/
theorem safe_accountable_configureFirst (hNone : state.link.replica.ids .system = []) :
    Safe (allocating env) (Accountable env config) (configureFirst config)
      (fun _ after => after.1.txn = none) (state, note) := by
  refine safe_noted_call.mpr ⟨nofun, ?_⟩
  rintro _ _ ⟨-, rfl, rfl⟩
  let opened : State World :=
    { state with txn := some ⟨state.nextTxn, []⟩, nextTxn := state.nextTxn + 1 }
  have hOpened : opened.Opened state.nextTxn := ⟨_, rfl, rfl⟩
  have hAssembles := @sysdInitialConfigure_assembles World env config state.nextTxn state.world
    opened.view opened hOpened rfl rfl
  refine (hAssembles.permit_issued (sysdInitialConfigure_issues _) ?_).bind ?_
  · exact fun _ _ hOther txn _ hCommit => absurd hCommit (hOther txn)
  rintro _ ⟨built, failed⟩ ⟨-, ⟨hWorld, hLink⟩, system, hIds, hOutcome⟩
  have hBefore : opened.view = built.link.replica := (congrArg Link.replica hLink).symm
  refine safe_noted_call.mpr ⟨?_, ?_⟩
  · intro _ _ _ _ _
    refine ⟨system, ?_, hOutcome.imp (fun hWhole => hWorld ▸ hBefore ▸ hWhole) id⟩
    rw [hIds]
    exact congrArg (· ++ [system]) hNone
  · rintro status _ ⟨current, -, -, world, link, -, rfl⟩
    refine safe_noted_call.mpr ⟨nofun, ?_⟩
    rintro _ _ rfl
    rfl

/-- The other branch, and the end of every pass, configure nothing. -/
theorem safe_notConfiguring_checkHardware (hClosed : state.txn = none) (cfg : RowId) :
    Safe (step env) NotConfiguring (checkHardware config cfg) (fun _ after => after.txn = none)
      state := by
  have hFilling : ∀ request, Filling 0 request → NotConfiguring state request := by
    rintro _ h txn current rfl
    exact h.elim
  refine safe_checkHardware notConfiguring_grants (safe_sysdUpdateSwInfo_closed hClosed cfg hFilling)
    (fun _ => hClosed) fun _ => ?_
  refine (safe_sysdChkIfHwDaemonsDone notConfiguring_grants hClosed).mpr ⟨fun _ => ?_, fun _ => hClosed⟩
  exact safe_sysdSetHwDone notConfiguring_grants hClosed (fun _ _ _ _ _ _ _ => nofun)
    fun _ _ _ _ => rfl

/-- The end of a pass configures nothing. -/
theorem safe_notConfiguring_restOfPass (hClosed : state.txn = none) :
    Safe (step env) NotConfiguring restOfPass (fun _ after => after.txn = none) state := by
  have hCommit : CommitKeeps env fun _ _ => True := fun _ _ _ _ _ _ _ _ _ => trivial
  refine (safe_restOfPass _ hCommit hClosed trivial ?_).mono fun _ _ h => h.1
  intro middle request _ hTxn txn current _ hOpen
  exact not_configuration_ordinary (hTxn current hOpen)

/-- A pass accounts for its configuration. -/
theorem safe_accountable_processChange (hClosed : state.txn = none) :
    Safe (allocating env) (Accountable env config) (processChange config)
      (fun _ after => after.1.txn = none) (state, note) := by
  rw [processChange_eq]
  refine safe_noted_call.mpr ⟨by simp [Accountable], ?_⟩
  rintro _ _ rfl
  refine safe_noted_call.mpr ⟨by simp [Accountable], ?_⟩
  rintro _ after ⟨rfl, hAfter⟩
  obtain rfl := Eq.symm hAfter
  refine safe_noted_call.mpr ⟨by simp [Accountable], ?_⟩
  rintro _ _ rfl
  refine safe_noted_call.mpr ⟨by simp [Accountable], ?_⟩
  rintro _ _ ⟨rfl, rfl⟩
  have hSampled : (sampled state).txn = none := hClosed
  have hIds : (sampled state).view.ids .system = state.link.replica.ids .system :=
    congrArg (·.ids .system) (State.view_closed hSampled)
  have hRest : ∀ after : State World × Bool, after.1.txn = none →
      Safe (allocating env) (Accountable env config) restOfPass (fun _ after => after.1.txn = none)
        after := fun after hAfter =>
      accountable_of_safe (safe_notConfiguring_restOfPass hAfter) after.2
  change Safe _ _ (((sampled state).view.ids .system).head?.elim _ _ >>= _) _ (sampled state, note)
  rw [hIds]
  cases hSystem : (state.link.replica.ids .system).head? with
  | none =>
      have hNone : state.link.replica.ids .system = [] := List.head?_eq_none_iff.mp hSystem
      have hFirst : Safe (allocating env) (Accountable env config) (configureFirst config) _
        (sampled state, note) := safe_accountable_configureFirst hNone
      exact hFirst.bind fun _ => hRest
  | some cfg =>
      have hCheck : Safe (step env) NotConfiguring (checkHardware config cfg) _ (sampled state) :=
        safe_notConfiguring_checkHardware hSampled cfg
      exact (accountable_of_safe hCheck note).bind fun _ => hRest

/-- The round itself allocates nothing. -/
theorem allocationFailed_overlooks : Overlooks allocationFailed := by
  rintro request (hCall | rfl | rfl | rfl) answer failed
  · cases request <;> first | rfl | exact hCall.elim
  all_goals rfl

/-- And so does a round. -/
theorem safe_accountable_mainRound (hClosed : state.txn = none) :
    Safe (allocating env) (Accountable env config) (mainRound config)
      (fun _ after => after.1.txn = none) (state, note) := by
  have hCalls : ∀ (current : State World × Bool) request, RoundCall request →
      Accountable env config current request := by
    rintro current _ (hPass | hOther | hOther | hOther) txn _ rfl
    · exact hPass.elim
    · exact nomatch hOther
    · exact nomatch hOther
    · exact nomatch hOther
  have hEnd : ∀ current : State World × Bool, current.1.txn = none →
      NotedEnd (Accountable env config) (fun after => after.1.txn = none) current :=
    fun current hKept => ⟨hCalls _ _ (.inr (.inr (.inl rfl))),
      fun _ => hCalls _ _ (.inr (.inr (.inr rfl))), hKept⟩
  refine safe_noted_mainRound allocationFailed_overlooks (fun current request h => hCalls _ _ (.inl h))
    (hCalls _ _ (.inr (.inl rfl))) (fun world link _ => hEnd _ hClosed) fun world link _ => ?_
  have hChange := @safe_accountable_processChange World env config { state with world, link } note
    hClosed
  exact hChange.mono fun _ after => hEnd after

/-- In every run, a configuration that is committed is the whole one, or lacks a
part for want of memory. -/
theorem committed_configured {start : World} {txn : TxnId} {failed : Bool} {current : Txn}
    (hReaches : LoopReaches (allocating env) (mainRound config)
      (fun before after => restart before.1 after.1) (fun top => top.1 = State.boot start)
      (.commitBlock txn) (state, failed))
    (hOpen : state.txn = some current) (hConfiguration : Configuration current.ops) :
    ∃ system, state.view.ids .system = [system] ∧ AllocationOutcome false failed
      (WholeConfiguration env config state.world system state.link.replica state.view)
      (LacksPart system state.view) := by
  have hAccountable : Accountable env config (state, failed) (.commitBlock txn) := by
    refine hReaches.allowed (fun noted => noted.1.txn = none) ?_ ?_ fun noted hClosed =>
      safe_accountable_mainRound hClosed
    · intro noted hStart
      rw [hStart]
      rfl
    · intro _ noted _ hRestart
      rw [show noted.1 = _ from hRestart]
      rfl
  exact hAccountable txn current rfl hOpen hConfiguration

/-- It is the whole one exactly if no allocation has failed since its transaction
was created. -/
theorem committed_whole_iff (env : Environment World) (config : Config)
    (hFormats : FormatsAddresses config) {start : World} {txn : TxnId} {failed : Bool}
    {current : Txn}
    (hReaches : LoopReaches (allocating env) (mainRound config)
      (fun before after => restart before.1 after.1) (fun top => top.1 = State.boot start)
      (.commitBlock txn) (state, failed))
    (hOpen : state.txn = some current) (hConfiguration : Configuration current.ops) :
    (∃ system, state.view.ids .system = [system] ∧
      WholeConfiguration env config state.world system state.link.replica state.view) ↔
        failed = false := by
  obtain ⟨system, hSystem, hOutcome⟩ := committed_configured hReaches hOpen hConfiguration
  constructor
  · rintro ⟨other, hOther, hWhole⟩
    obtain rfl := List.singleton_inj.mp (hOther.symm.trans hSystem)
    rcases hOutcome with ⟨hFailed, -⟩ | ⟨-, hLacks⟩
    · exact hFailed
    · exact absurd hLacks (not_lacksPart hFormats hWhole)
  · rintro rfl
    rcases hOutcome with ⟨-, hWhole⟩ | ⟨hFailed, -⟩
    · exact ⟨system, hSystem, hWhole⟩
    · exact absurd hFailed Bool.false_ne_true

end Commits

section Partial

/-- A daemon that has the lock on an empty database, in its first pass, with the
transaction of the initial configuration open. -/
def creating : State Unit :=
  { sampled { State.boot () with link := emptyLink } with txn := some ⟨0, []⟩, nextTxn := 1 }

/-- And with the System row in it. -/
def inserting : State Unit := creating.push ⟨0, []⟩ (.insert 0 .system)

/-- The bridge and the VRF are added, unless a row is refused. -/
theorem defaultBridge_transforms {World : Type} {env : Environment World}
    {permitted : State World → Request → Prop} (admits : Admits env permitted) {config : Config}
    {txn : TxnId} {system : RowId} {db : Database} :
    Transforms env permitted txn (sysdConfigureDefaultBridge config txn system) db
      fun _ _ => True := by
  rw [sysdConfigureDefaultBridge]
  refine transforms_insertRow admits fun bridge _ => ?_
  refine transforms_write admits fun _ _ => transforms_write admits fun _ _ => ?_
  refine transforms_insertRow admits fun iface _ => ?_
  refine transforms_write admits fun _ _ => transforms_write admits fun _ _ => ?_
  refine transforms_write admits fun _ _ => transforms_write admits fun _ _ => ?_
  refine transforms_insertRow admits fun port _ => ?_
  refine transforms_write admits fun _ _ => transforms_write admits fun _ _ => ?_
  exact transforms_write admits fun _ _ => transforms_done trivial

theorem defaultVrf_transforms {World : Type} {env : Environment World}
    {permitted : State World → Request → Prop} (admits : Admits env permitted) {config : Config}
    {txn : TxnId} {system : RowId} {db : Database} :
    Transforms env permitted txn (sysdConfigureDefaultVrf config txn system) db
      fun _ _ => True := by
  rw [sysdConfigureDefaultVrf]
  refine transforms_insertRow admits fun vrf _ => ?_
  refine transforms_write admits fun _ _ => transforms_write admits fun _ _ => ?_
  refine transforms_write admits fun _ _ => transforms_read admits ?_
  exact transforms_write admits fun _ _ => transforms_done trivial

theorem preliminaries_transforms {db : Database} :
    Transforms anyEnv.accepting Disciplined 0 (preliminaries (.onePort []) 0 0) db fun _ _ => True := by
  rw [preliminaries]
  refine transforms_write admits_accepting fun _ _ => ?_
  refine (defaultBridge_transforms admits_accepting).bind fun _ _ _ => ?_
  refine (defaultVrf_transforms admits_accepting).bind fun _ _ _ => ?_
  refine transforms_write admits_accepting fun _ _ => transforms_write admits_accepting fun _ _ => ?_
  exact transforms_done trivial

/-- The configuration ends where the array of the subsystems is not allocated. -/
theorem exec_partial : ∃ (state : State Unit) (ops : List Op),
    Exec (allocating anyEnv) (sysdInitialConfigure (.onePort []) 0) (creating, false) () (state, true) ∧
      state.txn = some ⟨0, ops⟩ ∧ Configuration ops ∧
      state.view.get 0 .systemTimezone = none ∧ state.view.ids .system = [0] := by
  have hOpen : inserting.Opened 0 := ⟨_, rfl, rfl⟩
  obtain ⟨_, state, hExec, -, -⟩ :=
    (@preliminaries_transforms inserting.view).exists_exec anyEnv_total hOpen
  have hBuilds := @preliminaries_builds (.onePort []) 0 0
  have hBuilt := (safe_iff.mp (safe_building hBuilds hOpen)).2 _ _ hExec
  have hFilling : Safe (step anyEnv) (fun _ _ => True) _ (fun _ => FilledFrom inserting _) inserting :=
    safe_filling (fills_of_builds hBuilds id id) (State.push_txn _ _ _) fun _ _ _ _ => trivial
  obtain ⟨more, -, hState⟩ := (safe_iff.mp hFilling).2 _ _ hExec
  have hTxn : state.txn = some ⟨0, .insert 0 .system :: more⟩ := congrArg State.txn hState
  have hSystem : inserting.view.Exists 0 := ⟨Row.fresh 0 .system, List.mem_singleton_self _, rfl⟩
  obtain ⟨note, hNoted⟩ := @Exec.exists_noted Calls _ _ Bool allocationFailed _ _ _ _ _ hExec false
  have hCalloc : allocating anyEnv (state, note) .calloc false (state, true) :=
    ⟨rfl, (Bool.or_true note).symm⟩
  have hConfigure : Exec (allocating anyEnv) (configureSystem (.onePort []) 0 0) (inserting, false) ()
      (state, true) := by
    rw [configureSystem_eq]
    exact hNoted.bind (.call hCalloc (.done () _))
  have hInsert : allocating anyEnv (creating, false) (.insert 0 .system) (some 0)
      (inserting, false) := ⟨⟨⟨0, []⟩, rfl, rfl, .inr ⟨0, nofun, rfl, rfl⟩⟩, rfl⟩
  exact ⟨state, _, .call hInsert hConfigure, hTxn, nofun, hBuilt.built.get_eq hSystem id,
    hBuilt.built.systems⟩

/-- The daemon, once it has received the empty database. -/
def received : State Unit := { State.boot () with link := emptyLink }

/-- A first pass on the empty database comes to the configuration. -/
theorem reaches_configureFirst {config : Config} {request : Request} {last : State Unit × Bool}
    (hFirst : Reaches (allocating anyEnv) (configureFirst config) (sampled received, false) request
      last) :
    Reaches (allocating anyEnv) (mainRound config) (State.boot (), false) request last := by
  have hSame : ∀ (state : State Unit) (request : Request) (answer : request.Response),
      step anyEnv state request answer state → allocationFailed request answer false = false →
      allocating anyEnv (state, false) request answer (state, false) :=
    fun _ _ _ hStep hNote => ⟨hStep, hNote.symm⟩
  let started : State Unit := { received with examined := [1] }
  have hStart : allocating anyEnv (received, false) .startPass () (started, false) := ⟨rfl, rfl⟩
  have hStore : allocating anyEnv (started, false) (.storeIdlSeqno 1) ()
      (sampled received, false) := ⟨rfl, rfl⟩
  have hChange : Reaches (allocating anyEnv) (processChange config) (received, false) request last := by
    refine .later hStart (.later (hSame _ .getSeqno (1 : Nat) ⟨rfl, rfl⟩ rfl) (.later hStore ?_))
    exact .later (hSame _ (.rows .system) ([] : List RowId) ⟨rfl, rfl⟩ rfl) hFirst.bind_left
  have hRun : allocating anyEnv (State.boot (), false) .idlRun () (received, false) :=
    ⟨⟨(), emptyLink, trivial, rfl⟩, rfl⟩
  refine Reaches.bind_left (.later hRun ?_)
  refine .later (hSame _ .isLockContended false ⟨rfl, rfl⟩ rfl) ?_
  refine .later (hSame _ .hasLock true ⟨rfl, rfl⟩ rfl) ?_
  refine .later (hSame _ .getSeqno (1 : Nat) ⟨rfl, rfl⟩ rfl) ?_
  exact .later (hSame _ .loadIdlSeqno (0 : Nat) ⟨rfl, rfl⟩ rfl) hChange.bind_left

theorem creates : allocating anyEnv (sampled received, false) .txnCreate (0 : TxnId)
    (creating, false) := ⟨⟨rfl, rfl, rfl⟩, rfl⟩

/-- What a first pass builds is committed. -/
theorem reaches_commit {config : Config} {state : State Unit} {failed : Bool}
    (hInitial : Exec (allocating anyEnv) (sysdInitialConfigure config 0) (creating, false) ()
      (state, failed)) :
    Reaches (allocating anyEnv) (mainRound config) (State.boot (), false) (.commitBlock 0)
      (state, failed) := by
  have hCommit : Reaches (allocating anyEnv) (sysdInitialConfigure config 0 >>= fun _ =>
      commitBlock 0 >>= fun _ => txnDestroy 0) (creating, false) (.commitBlock 0) (state, failed) :=
    Reaches.bind_right hInitial (.here _ _ _)
  exact reaches_configureFirst (.later creates hCommit)

/-- The first allocation fails. -/
theorem committed_whole_iff_partial : ∃ (state : State Unit) (current : Txn),
    LoopReaches (allocating anyEnv) (mainRound (.onePort []))
      (fun before after => restart before.1 after.1) (fun top => top.1 = State.boot ())
      (.commitBlock 0) (state, true) ∧ state.txn = some current ∧ Configuration current.ops ∧
      ((∃ system, state.view.ids .system = [system] ∧
        WholeConfiguration anyEnv (.onePort []) state.world system state.link.replica state.view) ↔
          true = false) := by
  obtain ⟨state, ops, hExec, hOpen, hConfiguration, -⟩ := exec_partial
  have hAddress : CString.lit "00:00:00:00:00:01" ≠ .lit "" := by decide
  have hReaches : LoopReaches (allocating anyEnv) (mainRound (.onePort []))
      (fun before after => restart before.1 after.1) (fun top => top.1 = State.boot ())
      (.commitBlock 0) (state, true) := ⟨_, .start rfl, reaches_commit hExec⟩
  exact ⟨state, ⟨0, ops⟩, hReaches, hOpen, hConfiguration,
    committed_whole_iff anyEnv (.onePort []) (fun _ => hAddress) hReaches hOpen hConfiguration⟩

/-- A configuration without subsystems, daemons or timezone is committed. -/
theorem partial_configuration_committed : ¬ ∀ (state : State Unit) (failed : Bool) (txn : TxnId)
    (current : Txn), LoopReaches (allocating anyEnv) (mainRound (.onePort []))
      (fun before after => restart before.1 after.1) (fun top => top.1 = State.boot ())
      (.commitBlock txn) (state, failed) → state.txn = some current → Configuration current.ops →
      ∃ system, state.view.ids .system = [system] ∧
        WholeConfiguration anyEnv (.onePort []) state.world system state.link.replica state.view := by
  intro hWhole
  obtain ⟨state, ops, hExec, hOpen, hConfiguration, hTimezone, hIds⟩ := exec_partial
  obtain ⟨system, hSystem, whole⟩ := hWhole state true 0 ⟨0, ops⟩
    ⟨(State.boot (), false), .start rfl, reaches_commit hExec⟩ hOpen hConfiguration
  obtain rfl := List.singleton_inj.mp (hIds.symm.trans hSystem)
  exact Option.some_ne_none dfltTimezone (whole.timezone.symm.trans hTimezone)

end Partial
end OpsSysd.Daemon
