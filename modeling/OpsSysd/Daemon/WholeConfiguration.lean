import OpsSysd.Daemon.DescribedRows
import OpsSysd.Daemon.PublishedQos

/-! What the initial configuration has to contain, and what a transaction shows
where every allocation has succeeded and where one has failed. -/
namespace OpsSysd.Daemon

open CLib Interaction Interaction.Program Idl

/-- A Daemon row. -/
structure WholeDaemon (daemon : Manifest.DaemonInfo) (row : RowId) (db : Database) : Prop where
  present : db.Exists row
  name : db.get row .daemonName = daemon.name
  curHw : db.get row .daemonCurHw = daemon.curHw
  isHwHandler : db.get row .daemonIsHwHandler = daemon.isHwHandler

/-- What the release file gives is in the System row. -/
def SoftwarePublished (config : Config) (release : Option (List (List UInt8))) (system : RowId)
    (db : Database) : Prop :=
  match release with
  | none => True
  | some lines =>
      let info := scanRelease (config.header .systemSoftwareInfoOsName) lines
      (info.smap ≠ [] → db.get system .systemSoftwareInfo = info.smap) ∧
        (info.HasVersion → db.get system .systemSwitchVersion = switchVersion info)

/-- The limits of the ACLs, as `acl_init_limits` writes them. -/
structure AclLimitsPublished (aclInfo : AclInfo) (system : RowId) (db : Database) : Prop where
  maxAcls : (db.get system .systemOtherInfo).lookup (.lit "max_acls") =
    some (snprintf aclLimitBufferSize (decimal aclInfo.maxAcls))
  maxAces : (db.get system .systemOtherInfo).lookup (.lit "max_aces") =
    some (snprintf aclLimitBufferSize (decimal aclInfo.maxAces))
  maxAcesPerAcl : (db.get system .systemOtherInfo).lookup (.lit "max_aces_per_acl") =
    some (snprintf aclLimitBufferSize (decimal aclInfo.maxAcesPerAcl))

/-- What is there once everything after the daemons has been done. -/
structure Finished {World : Type} (env : Environment World) (config : Config) (world : World)
    (system : RowId) (before db : Database) : Prop where
  software : ∃ release, env.osRelease world release ∧ SoftwarePublished config release system db
  timezone : db.get system .systemTimezone = some dfltTimezone
  qos : WholeQos config system before db
  acl : ∃ aclInfo, config.aclInfo = some aclInfo ∧ AclLimitsPublished aclInfo system db

/-- And with the daemons. -/
structure Completed {World : Type} (env : Environment World) (config : Config) (world : World)
    (system : RowId) (before db : Database) : Prop extends Finished env config world system before db where
  daemons : List.Forall₂ (fun row daemon => WholeDaemon daemon row db)
    (db.get system .systemDaemons) config.daemons

/-- The whole initial configuration is in the database, made where it was like this
before. -/
structure WholeConfiguration {World : Type} (env : Environment World) (config : Config)
    (world : World) (system : RowId) (before db : Database) : Prop
    extends DescribedSystem config system db, Completed env config world system before db

/-- No timezone, or a subsystem without its next MAC address. -/
def LacksPart (system : RowId) (db : Database) : Prop :=
  db.get system .systemTimezone = none ∨
    ∃ row ∈ db.get system .systemSubsystems, db.get row .subsystemNextMacAddress = .lit ""

/-- An address is never formatted as the empty string. -/
def FormatsAddresses (config : Config) : Prop := ∀ address, config.etherToString address ≠ .lit ""

section Whole

variable {World : Type} {env : Environment World} {config : Config} {world : World}
  {system row : RowId} {before after db : Database} {columns : Column → Prop}

/-- What is whole lacks nothing. -/
theorem not_lacksPart (hFormats : FormatsAddresses config)
    (whole : WholeConfiguration env config world system before db) : ¬ LacksPart system db := by
  rintro (hTimezone | ⟨row, hRow, hAddress⟩)
  · exact Option.some_ne_none dfltTimezone (whole.timezone.symm.trans hTimezone)
  · have hAddresses := whole.subsystems.imp fun row subsys (h : DescribedSubsystem config subsys row db) =>
      And.intro (h.nextMacAddress.trans_ne (hFormats subsys.nxtMacAddr)) h
    exact ((List.forall₂_and_left _ _).mp hAddresses).1 row hRow hAddress

/-- A daemon stays whole when other columns are written. -/
theorem WholeDaemon.later {daemon : Manifest.DaemonInfo} (h : WholeDaemon daemon row before)
    (hBuilt : Built columns before after)
    (hColumns : ∀ column ∈ [Column.daemonName, .daemonCurHw, .daemonIsHwHandler], ¬ columns column) :
    WholeDaemon daemon row after where
  present := hBuilt.frame.exists_of row h.present
  name := (hBuilt.get_eq h.present (hColumns _ (by simp))).trans h.name
  curHw := (hBuilt.get_eq h.present (hColumns _ (by simp))).trans h.curHw
  isHwHandler := (hBuilt.get_eq h.present (hColumns _ (by simp))).trans h.isHwHandler

end Whole

section Rows

variable {World : Type} {env : Environment World} {txn : TxnId} {db : Database}

/-- A daemon is added whole. -/
theorem sysdInitialDaemonAdd_transforms (daemon : Manifest.DaemonInfo) :
    Transforms env (fun _ _ => True) txn (sysdInitialDaemonAdd txn daemon) db fun row after =>
      AddedRow (WholeDaemon daemon) db row after := by
  rw [sysdInitialDaemonAdd]
  refine transforms_insertRow (admits_any env) fun row hFresh => ?_
  refine transforms_assign (admits_any env) (fun _ hStored => hStored) ?_
  refine transforms_assign (admits_any env) (fun _ hStored => hStored) ?_
  refine transforms_assign (admits_any env) (fun _ hStored => hStored) ?_
  have hRow : Adding (fun _ => False) db row ((Op.insert row .daemon).apply db) :=
    .of_insert hFresh (by decide) (name_of_unnamed rfl)
  refine transforms_done ((((hRow.write _).write _).write _).addedRow ⟨?_, ?_, ?_, ?_⟩)
  · simp [hRow.present]
  · simp [get_write_other, hRow.present]
  · simp [get_write_other, hRow.present]
  · simp [hRow.present]

/-- The Daemon rows of the manifest are added, each whole. -/
theorem daemons_transforms (daemons : List Manifest.DaemonInfo) :
    Transforms env (fun _ _ => True) txn (daemons.mapM (sysdInitialDaemonAdd txn)) db
      fun rows after => Inserted db rows after ∧
        List.Forall₂ (fun row daemon => WholeDaemon daemon row after) rows daemons := by
  refine transforms_mapM (fun daemon _ middle => sysdInitialDaemonAdd_transforms daemon) ?_
  intro daemon row before after h hRow hLater
  exact ⟨hLater.exists_of row hRow, (hLater.get_eq _ _ hRow id).trans h.name,
    (hLater.get_eq _ _ hRow id).trans h.curHw, (hLater.get_eq _ _ hRow id).trans h.isHwHandler⟩

end Rows

section Parts

variable {World : Type} {env : Environment World} {config : Config} {txn : TxnId} {world : World}
  {system : RowId} {db : Database} {failed : Bool}

/-- Columns that the release file fills. -/
def SoftwareColumn (column : Column) : Prop :=
  column = .systemSoftwareInfo ∨ column = .systemSwitchVersion

/-- What `sysd_update_sw_info` does with the lines of the file. -/
theorem software_transforms (lines : List (List UInt8)) (hSystem : db.Exists system) :
    Transforms env (fun _ _ => True) txn (do
        let info := scanRelease (config.header .systemSoftwareInfoOsName) lines
        if info.smap ≠ [] then write system .systemSoftwareInfo info.smap
        if info.HasVersion then write system .systemSwitchVersion (switchVersion info)) db
      fun _ after => Built SoftwareColumn db after ∧
        SoftwarePublished config (some lines) system after := by
  let info := scanRelease (config.header .systemSoftwareInfoOsName) lines
  have hIssues : Program.Issues (Building SoftwareColumn txn) (do
      if info.smap ≠ [] then write system .systemSoftwareInfo info.smap
      if info.HasVersion then write system .systemSwitchVersion (switchVersion info)) := by
    simp [Building, SoftwareColumn]
  have hVersion : ∀ middle : Database, middle.Exists system →
      (info.smap ≠ [] → middle.get system .systemSoftwareInfo = info.smap) →
      Transforms env (fun _ _ => True) txn (if info.HasVersion then
        write system .systemSwitchVersion (switchVersion info) else pure ()) middle fun _ after =>
          SoftwarePublished config (some lines) system after := by
    intro middle hMiddle hName
    by_cases hHas : info.HasVersion
    · rw [if_pos hHas]
      refine transforms_assign (admits_any env) (fun _ hStored => hStored) ?_
      refine transforms_done ⟨fun hSmap => ?_, fun _ => get_write_same hMiddle _⟩
      refine (get_write_other _ ?_).trans (hName hSmap)
      intro _ hSame
      cases hSame
    · rw [if_neg hHas]
      exact transforms_done ⟨hName, fun h => absurd h hHas⟩
  refine (transforms_building hIssues).and ?_
  by_cases hSmap : info.smap ≠ []
  · rw [if_pos hSmap]
    refine transforms_assign (admits_any env) (fun _ hStored => hStored) ?_
    exact hVersion _ (exists_write.mpr hSystem) fun _ => get_write_same hSystem _
  · rw [if_neg hSmap]
    exact hVersion db hSystem fun h => absurd h hSmap

/-- The software information of the release file is published. -/
theorem sysdUpdateSwInfo_assembles (hSystem : db.Exists system) :
    Assembles env txn world (sysdUpdateSwInfo config system) db failed fun _ after failed' =>
      failed' = failed ∧ Built SoftwareColumn db after ∧
        ∃ release, env.osRelease world release ∧ SoftwarePublished config release system after := by
  refine assembles_openOsRelease fun release hRelease => ?_
  cases release with
  | none => exact assembles_done ⟨rfl, .refl _ _, none, hRelease, trivial⟩
  | some lines =>
      have hQuiet : Program.Issues Quiet (do
          let info := scanRelease (config.header .systemSoftwareInfoOsName) lines
          if info.smap ≠ [] then write system .systemSoftwareInfo info.smap
          if info.HasVersion then write system .systemSwitchVersion (switchVersion info)) := by
        simp [Quiet]
      refine ((software_transforms lines hSystem).assembles hQuiet).mono ?_
      exact fun _ _ _ ⟨hNote, hBuilt, hPublished⟩ => ⟨hNote, hBuilt, some lines, hRelease, hPublished⟩

/-- So are the limits of the ACLs. -/
theorem aclInitLimits_transforms (hSystem : db.Exists system) :
    Transforms env (fun _ _ => True) txn (aclInitLimits config system) db fun _ after =>
      ∃ aclInfo, config.aclInfo = some aclInfo ∧ AclLimitsPublished aclInfo system after := by
  rw [aclInitLimits]
  cases hAcl : config.aclInfo with
  | none => exact fun state _ _ => safe_fault.mpr trivial
  | some aclInfo =>
      apply transforms_read (admits_any env)
      refine transforms_assign (admits_any env) (fun _ hStored => hStored) ?_
      refine transforms_done ⟨aclInfo, rfl, ?_, ?_, ?_⟩
      · rw [get_write_same hSystem, lookup_replace_other _ _ (by decide),
          lookup_replace_other _ _ (by decide), lookup_replace_same]
      · rw [get_write_same hSystem, lookup_replace_other _ _ (by decide), lookup_replace_same]
      · rw [get_write_same hSystem, lookup_replace_same]

/-- The columns that `finishConfiguration` fills. -/
def FinishColumn (column : Column) : Prop :=
  SoftwareColumn column ∨ column = .systemTimezone ∨ QosColumn column ∨ column = .systemOtherInfo

/-- It stays so when other columns are written. -/
theorem SoftwarePublished.later {release : Option (List (List UInt8))} {columns : Column → Prop}
    {after : Database} (h : SoftwarePublished config release system db) (hSystem : db.Exists system)
    (hBuilt : Built columns db after)
    (hColumns : ∀ column, SoftwareColumn column → ¬ columns column) :
    SoftwarePublished config release system after := by
  cases release with
  | none => trivial
  | some lines =>
      refine ⟨fun hSmap => ?_, fun hVersion => ?_⟩
      · exact (hBuilt.get_eq hSystem (hColumns _ (.inl rfl))).trans (h.1 hSmap)
      · exact (hBuilt.get_eq hSystem (hColumns _ (.inr rfl))).trans (h.2 hVersion)

/-- What comes after the daemons is finished, as no allocation is made there. -/
theorem finishConfiguration_assembles (hSystem : db.Exists system) :
    Assembles env txn world (finishConfiguration config txn system) db failed fun _ after failed' =>
      failed' = failed ∧ Built FinishColumn db after ∧ Finished env config world system db after := by
  refine (sysdUpdateSwInfo_assembles hSystem).bind ?_
  rintro _ software _ ⟨rfl, hSoftware, release, hRelease, hPublished⟩
  have hSystem := hSoftware.frame.exists_of system hSystem
  refine assembles_write ?_
  rintro _ rfl
  have hWrite : Built (· = .systemTimezone) software
      ((Op.write system .systemTimezone (some dfltTimezone)).apply software) :=
    @built_write software system .systemTimezone (some dfltTimezone)
  have hWritten := hWrite.frame.exists_of system hSystem
  have hQos : (configureQos config txn system).Issues (Building QosColumn txn) :=
    builds_of_supplies (configureQos_supplies system)
  refine (((configureQos_publishes hWritten).and (transforms_building hQos)).assembles
    (hQos.mono fun _ => Building.quiet)).bind ?_
  rintro _ qos _ ⟨rfl, hWhole, hBuilt⟩
  have hKept := hBuilt.frame.exists_of system hWritten
  have hAcl := builds_of_supplies (@aclInitLimits_supplies txn config system)
  refine (((aclInitLimits_transforms hKept).and (transforms_building hAcl)).assembles
    (hAcl.mono fun _ => Building.quiet)).mono ?_
  rintro _ after _ ⟨rfl, hLimits, hAfter⟩
  refine ⟨rfl, ?_, ⟨release, hRelease, ?_⟩, ?_, ?_, hLimits⟩
  · exact (((hSoftware.mono fun _ => .inl).trans (hWrite.mono fun _ h => .inr (.inl h))).trans
      (hBuilt.mono fun _ h => .inr (.inr (.inl h)))).trans (hAfter.mono fun _ h => .inr (.inr (.inr h)))
  · refine ((hPublished.later hSystem hWrite ?_).later hWritten hBuilt ?_).later hKept hAfter ?_
    all_goals rintro _ (rfl | rfl)
    all_goals exact nofun
  · have hTimezone : Column.systemTimezone ≠ .systemOtherInfo := nofun
    rw [hAfter.get_eq hKept hTimezone, hBuilt.get_eq hWritten id]
    exact get_write_same hSystem _
  · have hOther : ∀ column, QosColumn column → column ≠ .systemOtherInfo := by
      rintro _ hColumn rfl
      exact hColumn
    refine (hWhole.later hKept hAfter hOther).earlier ?_
    exact (keepsProfiles_of_built hSoftware (by simp [SoftwareColumn]) (by simp [SoftwareColumn])
      (by simp [SoftwareColumn])).trans (keepsProfiles_of_built hWrite nofun nofun nofun)

/-- The columns filled after the subsystems. -/
def LaterColumn (column : Column) : Prop := column = .systemDaemons ∨ FinishColumn column

theorem completed_of_finished {middle after : Database}
    (hDaemons : List.Forall₂ (fun row daemon => WholeDaemon daemon row middle)
      (middle.get system .systemDaemons) config.daemons) (hSystem : middle.Exists system)
    (hBuilt : Built FinishColumn middle after) (hKeeps : KeepsProfiles db middle)
    (hFinished : Finished env config world system middle after) :
    Completed env config world system db after where
  toFinished := { hFinished with qos := hFinished.qos.earlier hKeeps }
  daemons := by
    have hColumn : ¬ FinishColumn .systemDaemons := by
      simp [FinishColumn, SoftwareColumn, QosColumn]
    rw [hBuilt.get_eq hSystem hColumn]
    refine hDaemons.imp fun row daemon h => h.later hBuilt ?_
    simp [FinishColumn, SoftwareColumn, QosColumn]

/-- Without its allocation, `configureDaemons` does nothing. -/
theorem configureDaemons_assembles (hSystem : db.Exists system)
    (hDaemons : db.get system .systemDaemons = []) (hTimezone : db.get system .systemTimezone = none) :
    Assembles env txn world (configureDaemons config txn system) db failed fun _ after failed' =>
      Built LaterColumn db after ∧ AllocationOutcome failed failed'
        (Completed env config world system db after) (after.get system .systemTimezone = none) := by
  have hFinish : ∀ middle failed', Built LaterColumn db middle → KeepsProfiles db middle → List.Forall₂
      (fun row daemon => WholeDaemon daemon row middle) (middle.get system .systemDaemons)
        config.daemons →
      failed' = failed →
      Assembles env txn world (finishConfiguration config txn system) middle failed'
        fun _ after failed' => Built LaterColumn db after ∧ AllocationOutcome failed failed'
          (Completed env config world system db after) (after.get system .systemTimezone = none) := by
    rintro middle _ hMiddle hKeeps hRows rfl
    have hPresent := hMiddle.frame.exists_of system hSystem
    refine (finishConfiguration_assembles hPresent).mono ?_
    rintro _ after _ ⟨rfl, hBuilt, hFinished⟩
    exact ⟨hMiddle.trans (hBuilt.mono fun _ => .inr), .inl ⟨rfl,
      completed_of_finished hRows hPresent hBuilt hKeeps hFinished⟩⟩
  rw [configureDaemons_eq]
  refine assembles_calloc ?_ (assembles_done ⟨.refl _ _, .inr ⟨rfl, hTimezone⟩⟩)
  rw [if_pos rfl]
  by_cases hNone : config.daemons = []
  · rw [if_neg (not_not.mpr hNone)]
    have hKeeps : KeepsProfiles db db := keepsProfiles_of_built (.refl (fun _ => False) db) id id id
    exact hFinish db failed (.refl _ _) hKeeps (by simp [hDaemons, hNone]) rfl
  · rw [if_pos hNone]
    have hBuilds : (config.daemons.mapM (sysdInitialDaemonAdd txn)).Issues
        (Building DaemonColumn txn) :=
      Issues.mapM fun daemon _ => builds_of_supplies (sysdInitialDaemonAdd_supplies daemon)
    refine (((daemons_transforms config.daemons).and (transforms_building hBuilds)).assembles
      (hBuilds.mono fun _ => Building.quiet)).bind ?_
    rintro rows middle _ ⟨rfl, ⟨hInserted, hRows⟩, hBuilt⟩
    have hMiddle : Built LaterColumn db middle :=
      hBuilt.narrow id id (hInserted.frame.mono fun _ _ _ => False.elim)
    have hPresent := hMiddle.frame.exists_of system hSystem
    refine assembles_write fun value hValue => ?_
    obtain rfl := Slice.Stored.eq_array hValue hRows.length_eq
    have hWrite : Built (· = .systemDaemons) middle
        ((Op.write system .systemDaemons value).apply middle) := built_write value
    have hKeeps := (keepsProfiles_of_built hBuilt id id id).trans
      (keepsProfiles_of_built hWrite nofun nofun nofun)
    refine hFinish _ _ (hMiddle.trans (hWrite.mono fun _ => .inl)) hKeeps ?_ rfl
    rw [get_write_same hPresent]
    exact hRows.imp fun row daemon h => h.later hWrite (by simp)

end Parts

section Assembly

variable {World : Type} {env : Environment World} {config : Config} {txn : TxnId} {world : World}
  {system : RowId} {start db : Database}

theorem configureSystem_eq (config : Config) (txn : TxnId) (system : RowId) :
    configureSystem config txn system = preliminaries config txn system >>= fun _ =>
      .call .calloc fun allocated =>
        if allocated then
          config.subsystems.mapM (sysdInitialSubsystemAdd config txn) >>= fun subsystems =>
            .call (.write system .systemSubsystems ⟨subsystems, config.numSubsystems⟩) fun _ =>
              configureDaemons config txn system
        else .done () := by
  simp only [configureSystem, preliminaries, bind_assoc]
  rfl

/-- Everything after the insertion of the System row. -/
theorem configureSystem_assembles (hFresh : ¬ start.Exists system) :
    Assembles env txn world (configureSystem config txn system)
      ((Op.insert system .system).apply start) false fun _ after failed' =>
        after.ids .system = start.ids .system ++ [system] ∧
          AllocationOutcome false failed' (WholeConfiguration env config world system start after)
            (LacksPart system after) := by
  have hSystem : ((Op.insert system .system).apply start).Exists system := exists_insert.mpr (.inr rfl)
  have hUnset := fun column => @get_insert_same start system .system column hFresh
  have hInsert : KeepsProfiles start ((Op.insert system .system).apply start) :=
    keepsProfiles_insert hFresh (by decide) (by decide)
  rw [configureSystem_eq]
  have hPreliminaries := @preliminaries_builds config txn system
  refine (((preliminaries_addresses hSystem).and (transforms_building hPreliminaries)).assembles
    (hPreliminaries.mono fun _ => Building.quiet)).bind ?_
  rintro _ first _ ⟨rfl, hAddresses, hFirst⟩
  have hIds : first.ids .system = start.ids .system ++ [system] :=
    hFirst.systems.trans (ids_insert.trans (by simp))
  have hPresent := hFirst.frame.exists_of system hSystem
  have hTimezone : first.get system .systemTimezone = none := (hFirst.get_eq hSystem id).trans (hUnset _)
  have hDaemons : first.get system .systemDaemons = [] := (hFirst.get_eq hSystem id).trans (hUnset _)
  refine assembles_calloc ?_ (assembles_done ⟨hIds, .inr ⟨rfl, .inl hTimezone⟩⟩)
  rw [if_pos rfl]
  refine subsystems_describe.bind ?_
  intro rows second failed ⟨hCount, hSecond, hRows, hOutcome⟩
  refine assembles_write fun value hValue => ?_
  obtain rfl := Slice.Stored.eq_array hValue hCount
  have hPresent' := hSecond.frame.exists_of system hPresent
  have hWrite : Built (· = .systemSubsystems) second
      ((Op.write system .systemSubsystems value).apply second) := built_write value
  have hWritten := hWrite.frame.exists_of system hPresent'
  have hKeeps := (hInsert.trans (keepsProfiles_of_built hFirst id id id)).trans
    ((keepsProfiles_of_built hSecond id id id).trans (keepsProfiles_of_built hWrite (by simp) (by simp)
      (by simp)))
  have hKept : ∀ column, column ≠ .systemSubsystems → ¬ SplitColumn column →
      ((Op.write system .systemSubsystems value).apply second).get system column =
        first.get system column := fun column hOther hSplit =>
    (hWrite.get_eq hPresent' hOther).trans (hSecond.get_eq hPresent hSplit)
  refine (configureDaemons_assembles hWritten ?_ ?_).mono ?_
  · rw [hKept .systemDaemons (by decide) id, hDaemons]
  · rw [hKept .systemTimezone (by decide) id, hTimezone]
  intro _ after failed' ⟨hAfter, hDone⟩
  have hColumn : ¬ LaterColumn .systemSubsystems := by
    simp [LaterColumn, FinishColumn, SoftwareColumn, QosColumn]
  have hValue : after.get system .systemSubsystems = value := by
    rw [hAfter.get_eq hWritten hColumn, get_write_same hPresent']
  refine ⟨hAfter.systems.trans (hWrite.systems.trans (hSecond.systems.trans hIds)), ?_⟩
  rcases hOutcome with ⟨rfl, hDescribed⟩ | ⟨rfl, row, hRow, hLacks⟩
  · refine hDone.imp (fun h => ⟨⟨⟨fun base hBase => ?_, fun base hBase => ?_⟩, ?_⟩, ?_⟩) .inl
    · have hMac : ¬ LaterColumn .systemManagementMac := by
        simp [LaterColumn, FinishColumn, SoftwareColumn, QosColumn]
      rw [hAfter.get_eq hWritten hMac, hKept .systemManagementMac (by decide) id]
      exact hAddresses.managementMac base hBase
    · have hMac : ¬ LaterColumn .systemSystemMac := by
        simp [LaterColumn, FinishColumn, SoftwareColumn, QosColumn]
      rw [hAfter.get_eq hWritten hMac, hKept .systemSystemMac (by decide) id]
      exact hAddresses.systemMac base hBase
    · rw [hValue]
      refine hDescribed.imp fun row subsys hRow => (hRow.later hWrite ?_).later hAfter ?_
      · simp [describedSubsystemColumns, describedInterfaceColumns]
      · simp [describedSubsystemColumns, describedInterfaceColumns, LaterColumn, FinishColumn,
          SoftwareColumn, QosColumn]
    · exact { h with qos := h.qos.earlier hKeeps }
  · have hAddress : ¬ LaterColumn .subsystemNextMacAddress := by
      simp [LaterColumn, FinishColumn, SoftwareColumn, QosColumn]
    have hExists := hWrite.frame.exists_of row (hRows row hRow)
    have hFailed : failed' = true := hDone.elim And.left And.left
    refine .inr ⟨hFailed, .inr ⟨row, hValue.symm ▸ hRow, ?_⟩⟩
    have hOther : Column.subsystemNextMacAddress ≠ .systemSubsystems := by simp
    rw [hAfter.get_eq hExists hAddress, hWrite.get_eq (hRows row hRow) hOther, hLacks]

/-- The initial configuration is whole, or an allocation has failed and it lacks
a part. -/
theorem sysdInitialConfigure_assembles :
    Assembles env txn world (sysdInitialConfigure config txn) db false fun _ after failed =>
      ∃ system, after.ids .system = db.ids .system ++ [system] ∧
        AllocationOutcome false failed (WholeConfiguration env config world system db after)
          (LacksPart system after) :=
  assembles_insertRow fun system hFresh => (configureSystem_assembles hFresh).mono
    fun _ _ _ h => ⟨system, h⟩

end Assembly
end OpsSysd.Daemon
