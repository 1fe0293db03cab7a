import OpsSysd.Daemon.MissingDescriptions
import OpsSysd.Daemon.PartialConfiguration

/-! When the initial configuration is carried out to its end: what it needs of
the manifest and of the hardware description, whatever allocation fails. -/
namespace OpsSysd.Daemon

open CLib Interaction Interaction.Program Idl

/-- The interfaces of a subsystem fit the buffer for their speeds and the array
for their subports. -/
structure InterfacesFit (subsys : Subsystem) : Prop where
  speeds : ∀ intf ∈ subsys.interfaces, intf.speedsText.length < speedsBufferSize
  subports : ∀ intf ∈ subsys.interfaces,
    intf.subports.dropLast.countP (resolvable subsys.interfaces) < sysdMaxSplitPorts

/-- What the initial configuration needs of the descriptions. -/
structure Sufficient (config : Config) : Prop extends DescriptionsSuffice config where
  mgmtIntf : config.mgmtIntf ≠ none
  base : config.subsystems ≠ []
  interfaces : ∀ subsys ∈ config.subsystems, InterfacesFit subsys

/-- Where rows can be inserted, the initial configuration uses no missing result
and nothing past an array, and completes. -/
structure CompletesConfiguration {World : Type} (env : Environment World) (config : Config)
    (txn : TxnId) : Prop where
  noFault : ∀ state, state.Opened txn → ∀ kind last,
    ¬ Reaches (step env.accepting) (sysdInitialConfigure config txn) state (.fault kind) last
  completes : ∀ state, state.Opened txn →
    ∃ last, Exec (step env.accepting) (sysdInitialConfigure config txn) state () last

section Runs

variable {World : Type} {env : Environment World} {permitted : State World → Request → Prop}
  {config : Config} {txn : TxnId} {system row : RowId} {subsys : Subsystem}

/-- Interfaces whose speeds fit are added. -/
theorem interfaces_run (admits : Admits env permitted) (hSpeeds : ∀ intf ∈ subsys.interfaces,
    intf.speedsText.length < speedsBufferSize) (db : Database) :
    Transforms env permitted txn
      (subsys.interfaces.mapM (sysdInitialInterfaceAdd config txn subsys)) db fun rows after =>
        rows.length = subsys.interfaces.length ∧ PortsAdded (rows.zip subsys.interfaces) after :=
  interfaces_transforms admits config fun intf hIntf hLong =>
    absurd (hSpeeds intf hIntf) (Nat.not_lt.mpr hLong)

/-- The rest of a subsystem, once its interfaces are there. -/
theorem fillSubsystem_runs (admits : Admits env permitted) (fit : InterfacesFit subsys) :
    Runs env permitted txn (fillSubsystem config txn subsys row) := by
  intro db
  rw [fillSubsystem_eq]
  refine (interfaces_run admits fit.speeds db).bind fun rows after ⟨hLength, added⟩ => ?_
  refine (sysdSetSplittablePortInfo_inside admits hLength added fit.subports).bind ?_
  intro _ after _
  refine transforms_write admits fun _ _ => transforms_write admits fun _ _ => ?_
  exact transforms_write admits fun _ _ => transforms_done trivial

/-- So is a subsystem whose interfaces fit. -/
theorem sysdInitialSubsystemAdd_runs (admits : Admits env permitted) (fit : InterfacesFit subsys) :
    Runs env permitted txn (sysdInitialSubsystemAdd config txn subsys) := by
  rw [sysdInitialSubsystemAdd]
  refine (runs_insertRow admits .subsystem).bind fun row db => ?_
  refine transforms_write admits fun _ _ => transforms_write admits fun _ _ => ?_
  refine transforms_write admits fun _ _ => transforms_write admits fun _ _ => ?_
  refine transforms_calloc admits fun allocated => ?_
  cases allocated with
  | true => exact fillSubsystem_runs admits fit _
  | false => exact transforms_done trivial

theorem sysdInitialDaemonAdd_runs (admits : Admits env permitted) (daemon : Manifest.DaemonInfo) :
    Runs env permitted txn (sysdInitialDaemonAdd txn daemon) := by
  rw [sysdInitialDaemonAdd]
  refine (runs_insertRow admits .daemon).bind fun row db => ?_
  refine transforms_write admits fun _ _ => transforms_write admits fun _ _ => ?_
  exact transforms_write admits fun _ _ => transforms_done trivial

/-- With a transaction open, the update of the software information runs. -/
theorem sysdUpdateSwInfo_runs (admits : Admits env permitted) :
    Runs env permitted txn (sysdUpdateSwInfo config system) := by
  rw [sysdUpdateSwInfo]
  refine (runs_openOsRelease admits).bind fun release => ?_
  cases release with
  | none => exact runs_done _
  | some lines =>
      dsimp only
      have hVersion : ∀ info : ReleaseInfo, Runs env permitted txn
          (if info.HasVersion then write system .systemSwitchVersion (switchVersion info)
            else pure ()) := by
        intro info
        split
        · exact runs_write admits _ _ _
        · exact runs_done _
      split
      · exact (runs_write admits _ _ _).bind fun _ => hVersion _
      · exact hVersion _

/-- What comes before the subsystems needs the management interface and a subsystem. -/
theorem preliminaries_runs (admits : Admits env permitted) (hManagement : config.mgmtIntf ≠ none)
    (hSubsystems : config.subsystems ≠ []) :
    Runs env permitted txn (preliminaries config txn system) := by
  obtain ⟨mgmtIntf, hMgmt⟩ := Option.ne_none_iff_exists'.mp hManagement
  obtain ⟨base, rest, hBase⟩ := List.exists_cons_of_ne_nil hSubsystems
  intro db
  rw [preliminaries, hMgmt, hBase]
  refine transforms_write admits fun _ _ => ?_
  refine (defaultBridge_transforms admits).bind fun _ _ _ => ?_
  refine (defaultVrf_transforms admits).bind fun _ _ _ => ?_
  refine transforms_write admits fun _ _ => transforms_write admits fun _ _ => ?_
  exact transforms_done trivial

/-- What comes after the daemons needs the descriptions. -/
theorem finishConfiguration_runs (admits : Admits env permitted) (sufficient : Sufficient config) :
    Runs env permitted txn (finishConfiguration config txn system) :=
  (sysdUpdateSwInfo_runs admits).bind fun _ => (runs_write admits _ _ _).bind fun _ =>
    (configureQosAcl_runsIf system).runs admits sufficient.toDescriptionsSuffice

theorem configureDaemons_runs (admits : Admits env permitted) (sufficient : Sufficient config) :
    Runs env permitted txn (configureDaemons config txn system) := by
  rw [configureDaemons_eq]
  refine fun db => transforms_calloc admits fun allocated => ?_
  cases allocated with
  | false => exact transforms_done trivial
  | true =>
      rw [if_pos rfl]
      have hDaemons : Runs env permitted txn (config.daemons.mapM (sysdInitialDaemonAdd txn)) :=
        runs_mapM fun daemon _ => sysdInitialDaemonAdd_runs admits daemon
      split
      · exact (hDaemons.bind fun rows => (runs_write admits _ _ _).bind fun _ =>
          finishConfiguration_runs admits sufficient) db
      · exact finishConfiguration_runs admits sufficient db

/-- Where the descriptions suffice, the configuration runs. -/
theorem sysdInitialConfigure_runs (admits : Admits env permitted) (sufficient : Sufficient config) :
    Runs env permitted txn (sysdInitialConfigure config txn) := by
  refine (runs_insertRow admits .system).bind fun system => ?_
  rw [configureSystem_eq]
  refine (preliminaries_runs admits sufficient.mgmtIntf sufficient.base).bind fun _ => ?_
  refine (runs_calloc admits).bind fun allocated => ?_
  cases allocated with
  | false => exact runs_done _
  | true =>
      have hSubsystems : Runs env permitted txn
          (config.subsystems.mapM (sysdInitialSubsystemAdd config txn)) :=
        runs_mapM fun subsys hSubsys =>
          sysdInitialSubsystemAdd_runs admits (sufficient.interfaces subsys hSubsys)
      exact hSubsystems.bind fun rows => (runs_write admits _ _ _).bind fun _ =>
        configureDaemons_runs admits sufficient

end Runs

section Faults

variable {World : Type} {env : Environment World} {config : Config} {txn : TxnId} {system row : RowId}
  {subsys : Subsystem} {intf : Port} {state : State World}

/-- An allocation may succeed. -/
theorem Faults.calloc {Result : Type} {next : Bool → Program Calls Result}
    (h : Faults env (next true) state) : Faults env (.call .calloc next) state :=
  MayIssue.call (show step env state .calloc true state from rfl) h

/-- Speeds that do not fit are written past the buffer. -/
theorem sysdInitialInterfaceAdd_faults (total : env.Total) (hOpen : state.Opened txn)
    (hLong : ¬ intf.speedsText.length < speedsBufferSize) :
    Faults env (sysdInitialInterfaceAdd config txn subsys intf) state := by
  rw [sysdInitialInterfaceAdd]
  refine MayIssue.after (runs_insertRow admits_accepting .interface) total hOpen fun row _ hRow => ?_
  refine MayIssue.after (runs_write admits_accepting row .interfaceName _) total hRow fun _ _ hName => ?_
  refine MayIssue.after (runs_write admits_accepting row .interfaceType _) total hName fun _ _ hType => ?_
  refine MayIssue.after (runs_write admits_accepting row .interfaceAdminState _) total hType
    fun _ last _ => ?_
  have hBuffer := Nat.not_lt.mp hLong
  split
  · simp only [hBuffer, if_true]
    exact ⟨_, last, ⟨.outOfBounds, rfl⟩, .here _ _ _⟩
  · simp only [hBuffer, if_true]
    exact ⟨_, last, ⟨.outOfBounds, rfl⟩, .here _ _ _⟩

/-- A subsystem that does not fit overruns a buffer in some run. -/
theorem fillSubsystem_faults (total : env.Total) (hOpen : state.Opened txn)
    (hFit : ¬ InterfacesFit subsys) :
    Faults env (fillSubsystem config txn subsys row) state := by
  rw [fillSubsystem_eq]
  by_cases hSpeeds : ∀ intf ∈ subsys.interfaces,
      intf.speedsText.length < speedsBufferSize
  case neg =>
    refine (MayIssue.mapM total hOpen (fun intf hIntf db => ?_)
      (fun intf hLong middle hMiddle => sysdInitialInterfaceAdd_faults total hMiddle hLong) hSpeeds).first
    refine (sysdInitialInterfaceAdd_transforms admits_accepting config intf fun hLong => ?_).mono
      fun _ _ _ => trivial
    exact absurd hIntf (Nat.not_lt.mpr hLong)
  have hInterfaces := @interfaces_run World env.accepting _ config txn subsys admits_accepting hSpeeds
  obtain ⟨rows, middle, hExec, hMiddle, hLength, added⟩ :=
    (hInterfaces state.view).exists_exec total hOpen
  have hSplit : ¬ NoOverrun env (sysdSetSplittablePortInfo rows subsys) middle := by
    rw [sysdSetSplittablePortInfo_noOverrun_iff total hLength hMiddle added]
    exact fun hSubports => hFit ⟨hSpeeds, hSubports⟩
  obtain ⟨last, hReaches⟩ := not_noOverrun.mp hSplit
  exact ⟨_, last, ⟨.outOfBounds, rfl⟩, hReaches.bind_left.bind_right hExec⟩

theorem sysdInitialSubsystemAdd_faults (total : env.Total) (hOpen : state.Opened txn)
    (hFit : ¬ InterfacesFit subsys) :
    Faults env (sysdInitialSubsystemAdd config txn subsys) state := by
  rw [sysdInitialSubsystemAdd]
  refine MayIssue.after (runs_insertRow admits_accepting .subsystem) total hOpen fun row _ hRow => ?_
  refine MayIssue.after (runs_write admits_accepting row .subsystemName _) total hRow fun _ _ hName => ?_
  refine MayIssue.after (runs_write admits_accepting row .subsystemAssetTagNumber _) total hName
    fun _ _ hTag => ?_
  refine MayIssue.after (runs_write admits_accepting row .subsystemHwDescDir _) total hTag
    fun _ _ hDir => ?_
  refine MayIssue.after (runs_write admits_accepting row .subsystemOtherInfo _) total hDir
    fun _ _ hInfo => ?_
  exact Faults.calloc (fillSubsystem_faults total hInfo hFit)

/-- Descriptions that do not suffice are run into. -/
theorem finishConfiguration_faults (total : env.Total) (hOpen : state.Opened txn)
    (hShort : ¬ DescriptionsSuffice config) :
    Faults env (finishConfiguration config txn system) state := by
  refine MayIssue.after (sysdUpdateSwInfo_runs admits_accepting) total hOpen fun _ _ hFirst => ?_
  refine MayIssue.after (runs_write admits_accepting system .systemTimezone _) total hFirst
    fun _ _ hSecond => ?_
  exact (configureQosAcl_runsIf system).faults total hSecond hShort

theorem configureDaemons_faults (total : env.Total) (hOpen : state.Opened txn)
    (hShort : ¬ DescriptionsSuffice config) :
    Faults env (configureDaemons config txn system) state := by
  rw [configureDaemons_eq]
  refine Faults.calloc ?_
  rw [if_pos rfl]
  split
  · refine MayIssue.after (runs_mapM fun daemon _ => sysdInitialDaemonAdd_runs admits_accepting daemon)
      total hOpen fun rows _ hRows => ?_
    refine MayIssue.after (runs_write admits_accepting system .systemDaemons _) total hRows
      fun _ _ hDaemons => ?_
    exact finishConfiguration_faults total hDaemons hShort
  · exact finishConfiguration_faults total hOpen hShort

/-- The parts that come before the subsystems fault on a missing management
interface, and on a missing base subsystem. -/
theorem preliminaries_faults (total : env.Total) (hOpen : state.Opened txn)
    (hMissing : ¬ (config.mgmtIntf ≠ none ∧ config.subsystems ≠ [])) :
    Faults env (preliminaries config txn system) state := by
  rw [preliminaries]
  cases hMgmt : config.mgmtIntf with
  | none => exact ⟨_, state, ⟨.nullPointer, rfl⟩, .here _ _ _⟩
  | some mgmtIntf =>
      have hBase : config.subsystems = [] := by_contra fun hSome =>
        hMissing ⟨Option.ne_none_iff_exists'.mpr ⟨mgmtIntf, hMgmt⟩, hSome⟩
      rw [hBase]
      refine MayIssue.after (runs_done mgmtIntf) total hOpen fun _ _ hStart => ?_
      refine MayIssue.after (runs_write admits_accepting system .systemMgmtIntf _) total hStart
        fun _ _ hFirst => ?_
      refine MayIssue.after (fun _ => defaultBridge_transforms admits_accepting) total hFirst
        fun _ _ hSecond => ?_
      refine MayIssue.after (fun _ => defaultVrf_transforms admits_accepting) total hSecond
        fun _ last _ => ?_
      exact ⟨_, last, ⟨.nullPointer, rfl⟩, .here _ _ _⟩

/-- Where the descriptions do not suffice, some run of the configuration faults:
the one in which every allocation succeeds. -/
theorem sysdInitialConfigure_faults (total : env.Total) (hOpen : state.Opened txn)
    (hInsufficient : ¬ Sufficient config) :
    Faults env (sysdInitialConfigure config txn) state := by
  refine MayIssue.after (runs_insertRow admits_accepting .system) total hOpen fun system _ hSystem => ?_
  rw [configureSystem_eq]
  by_cases hThere : config.mgmtIntf ≠ none ∧ config.subsystems ≠ []
  case neg => exact (preliminaries_faults total hSystem hThere).first
  refine MayIssue.after (preliminaries_runs admits_accepting hThere.1 hThere.2) total hSystem
    fun _ _ hFirst => ?_
  refine Faults.calloc ?_
  rw [if_pos rfl]
  by_cases hFit : ∀ subsys ∈ config.subsystems, InterfacesFit subsys
  case neg =>
    exact (MayIssue.mapM total hFirst (fun subsys fit => sysdInitialSubsystemAdd_runs admits_accepting fit)
      (fun subsys hLong middle hMiddle => sysdInitialSubsystemAdd_faults total hMiddle hLong) hFit).first
  have hSubsystemsRun : Runs env.accepting Disciplined txn
      (config.subsystems.mapM (sysdInitialSubsystemAdd config txn)) :=
    runs_mapM fun subsys hSubsys => sysdInitialSubsystemAdd_runs admits_accepting (hFit subsys hSubsys)
  refine MayIssue.after hSubsystemsRun total hFirst fun rows _ hRows => ?_
  refine MayIssue.after (runs_write admits_accepting system .systemSubsystems _) total hRows
    fun _ _ hSubsystems => ?_
  refine configureDaemons_faults total hSubsystems fun hSuffices => hInsufficient ?_
  exact ⟨hSuffices, hThere.1, hThere.2, hFit⟩

end Faults

section Completes

variable {World : Type} {env : Environment World} {config : Config} {txn : TxnId} {state : State World}

/-- The initial configuration completes, whatever allocations fail, exactly where
the descriptions suffice. -/
theorem completesConfiguration_iff (total : env.Total) (hOpen : state.Opened txn) :
    CompletesConfiguration env config txn ↔ Sufficient config := by
  constructor
  · refine fun hCompletes => by_contra fun hShort => ?_
    obtain ⟨_, last, ⟨kind, rfl⟩, hReaches⟩ :=
      @sysdInitialConfigure_faults World env.accepting config txn state total.accepting hOpen hShort
    exact hCompletes.noFault state hOpen kind last hReaches
  · intro sufficient
    have hSafe : ∀ state : State World, state.Opened txn → Safe (step env.accepting) Disciplined
        (sysdInitialConfigure config txn) (fun _ after => after.Opened txn ∧ True) state :=
      fun state hOpen => sysdInitialConfigure_runs admits_accepting sufficient state.view state hOpen rfl
    refine ⟨fun state hOpen kind last hReaches => ?_, fun state hOpen => ?_⟩
    · exact (safe_iff.mp (hSafe state hOpen)).1 _ _ hReaches
    · obtain ⟨⟨⟩, last, hExec, -⟩ := (hSafe state hOpen).exec (step_total total.accepting)
      exact ⟨last, hExec⟩

/-- A configuration is being made once its System row is there. -/
theorem safe_configuring (hOpen : state.Opened txn) :
    Safe (step env) anyCall (sysdInitialConfigure config txn)
      (fun _ after => ∃ current, after.txn = some current ∧ Configuration current.ops) state := by
  obtain ⟨current, hCurrent, rfl⟩ := hOpen
  refine safe_insert_open hCurrent trivial (fun _ => safe_fault.mpr trivial) fun system _ => ?_
  refine (safe_filling (fills_of_lists (configureSystem_lists system)) (State.push_txn _ _ _) ?_).mono ?_
  · exact fun _ _ _ _ => trivial
  · exact fun _ _ h => h.configuration

/-- The switch with one port has all that is needed. -/
theorem onePort_sufficient (daemons : List Manifest.DaemonInfo) : Sufficient (.onePort daemons) where
  aclInfo := Option.some_ne_none _
  cosMap := .inl rfl
  dscpMap := .inl rfl
  profiles := profilesSuffice_of_none rfl
  mgmtIntf := Option.some_ne_none _
  base := List.cons_ne_nil _ _
  interfaces subsys hSubsys := by
    obtain rfl := List.mem_singleton.mp hSubsys
    exact ⟨by decide, by decide⟩

/-- The switch with one port is configured. -/
theorem onePort_completesConfiguration : CompletesConfiguration anyEnv (.onePort []) 0 :=
  (completesConfiguration_iff anyEnv_total configuring_opened).mpr (onePort_sufficient [])

end Completes
end OpsSysd.Daemon
