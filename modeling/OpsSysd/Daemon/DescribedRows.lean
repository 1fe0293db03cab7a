import OpsSysd.Idl.Allocations
import OpsSysd.Daemon.SplitPorts
import OpsSysd.Daemon.Footprint

/-! What the initial configuration says about the base system, its subsystems
and their interfaces, column by column. -/
namespace OpsSysd.Daemon

open CLib Interaction Interaction.Program Idl

/-- The `hw_intf_info` of an interface. -/
def interfaceInfo (config : Config) (subsys : Subsystem) (intf : Port) : Smap :=
  let pluggable :=
    if intf.pluggable then config.header .hwIntfInfoPluggableTrue
    else config.header .hwIntfInfoPluggableFalse
  let smap : Smap :=
    [(config.header .hwIntfInfoPluggable, pluggable),
      (config.header .hwIntfInfoConnector, intf.connector),
      (config.header .hwIntfInfoMaxSpeed, decimal intf.maxSpeed),
      (config.header .hwIntfInfoSpeeds, intf.speedsText),
      (config.header .hwIntfInfoSwitchUnit, decimal intf.device),
      (config.header .hwIntfInfoSwitchIntfId, decimal intf.devicePort)]
  let smap := intf.capabilities.foldl (fun smap capability => smap.add capability (.lit "true")) smap
  if subsys.systemMacAddr ≠ 0 then
    smap.add (config.header .hwIntfInfoMacAddr) (config.etherToString subsys.systemMacAddr)
  else smap

/-- An Interface row says what the description says. -/
structure DescribedInterface (config : Config) (subsys : Subsystem) (intf : Port) (row : RowId)
    (db : Database) : Prop where
  present : db.Exists row
  name : db.get row .interfaceName = intf.name
  type : db.get row .interfaceType = config.header .interfaceTypeSystem
  adminState : db.get row .interfaceAdminState = config.header .interfaceAdminStateDown
  hwIntfInfo : db.get row .interfaceHwIntfInfo = interfaceInfo config subsys intf

/-- A Subsystem row says what the FRU record and the description say, and its
interfaces are those of the description in their order. -/
structure DescribedSubsystem (config : Config) (subsys : Subsystem) (row : RowId) (db : Database) :
    Prop where
  present : db.Exists row
  name : db.get row .subsystemName = subsys.name
  assetTag : db.get row .subsystemAssetTagNumber = dfltAssetTag
  hwDescDir : db.get row .subsystemHwDescDir = config.hwDescDir
  otherInfo : db.get row .subsystemOtherInfo = subsystemInfo subsys.fruEeprom subsys.intfCmnInfo
  interfaces : List.Forall₂ (fun iface intf => DescribedInterface config subsys intf iface db)
    (db.get row .subsystemInterfaces) subsys.interfaces
  nextMacAddress : db.get row .subsystemNextMacAddress = config.etherToString subsys.nxtMacAddr
  macsRemaining : db.get row .subsystemMacsRemaining = subsys.numFreeMacs

/-- The System row has the addresses of the first subsystem. -/
structure AddressedSystem (config : Config) (system : RowId) (db : Database) : Prop where
  managementMac : ∀ base, config.subsystems.head? = some base →
    db.get system .systemManagementMac = config.etherToString base.mgmtMacAddr
  systemMac : ∀ base, config.subsystems.head? = some base →
    db.get system .systemSystemMac = config.etherToString base.systemMacAddr

/-- And refers to the subsystems. -/
structure DescribedSystem (config : Config) (system : RowId) (db : Database) : Prop
    extends AddressedSystem config system db where
  subsystems : List.Forall₂ (fun row subsys => DescribedSubsystem config subsys row db)
    (db.get system .systemSubsystems) config.subsystems

/-- Columns of an Interface row that the description fills. -/
def describedInterfaceColumns : List Column :=
  [.interfaceName, .interfaceType, .interfaceAdminState, .interfaceHwIntfInfo]

/-- And of a Subsystem row. -/
def describedSubsystemColumns : List Column :=
  [.subsystemName, .subsystemAssetTagNumber, .subsystemHwDescDir, .subsystemOtherInfo,
    .subsystemInterfaces, .subsystemNextMacAddress, .subsystemMacsRemaining]

section Later

variable {config : Config} {subsys : Subsystem} {intf : Port} {row : RowId} {columns : Column → Prop}
  {before after : Database}

/-- What fills other columns leaves the rows as described. -/
theorem DescribedInterface.later (h : DescribedInterface config subsys intf row before)
    (hBuilt : Built columns before after)
    (hColumns : ∀ column ∈ describedInterfaceColumns, ¬ columns column) :
    DescribedInterface config subsys intf row after where
  present := hBuilt.frame.exists_of row h.present
  name := (hBuilt.get_eq h.present (hColumns _ (by simp [describedInterfaceColumns]))).trans h.name
  type := (hBuilt.get_eq h.present (hColumns _ (by simp [describedInterfaceColumns]))).trans h.type
  adminState :=
    (hBuilt.get_eq h.present (hColumns _ (by simp [describedInterfaceColumns]))).trans h.adminState
  hwIntfInfo :=
    (hBuilt.get_eq h.present (hColumns _ (by simp [describedInterfaceColumns]))).trans h.hwIntfInfo

theorem DescribedSubsystem.later (h : DescribedSubsystem config subsys row before)
    (hBuilt : Built columns before after)
    (hColumns : ∀ column ∈ describedSubsystemColumns ++ describedInterfaceColumns, ¬ columns column) :
    DescribedSubsystem config subsys row after := by
  have hSame : ∀ column ∈ describedSubsystemColumns, after.get row column = before.get row column :=
    fun column hColumn => hBuilt.get_eq h.present (hColumns column (List.mem_append_left _ hColumn))
  refine ⟨hBuilt.frame.exists_of row h.present, ?_, ?_, ?_, ?_, ?_, ?_, ?_⟩
  · exact (hSame .subsystemName (by simp [describedSubsystemColumns])).trans h.name
  · exact (hSame .subsystemAssetTagNumber (by simp [describedSubsystemColumns])).trans h.assetTag
  · exact (hSame .subsystemHwDescDir (by simp [describedSubsystemColumns])).trans h.hwDescDir
  · exact (hSame .subsystemOtherInfo (by simp [describedSubsystemColumns])).trans h.otherInfo
  · rw [hSame .subsystemInterfaces (by simp [describedSubsystemColumns])]
    refine h.interfaces.imp fun iface intf hIface => hIface.later hBuilt fun column hColumn => ?_
    exact hColumns column (List.mem_append_right _ hColumn)
  · exact (hSame .subsystemNextMacAddress (by simp [describedSubsystemColumns])).trans h.nextMacAddress
  · exact (hSame .subsystemMacsRemaining (by simp [describedSubsystemColumns])).trans h.macsRemaining

end Later

section Rows

variable {World : Type} {env : Environment World} {config : Config} {txn : TxnId} {world : World}
  {row : RowId} {start db : Database} {failed : Bool} {subsys : Subsystem}

/-- An interface is added as described. -/
theorem sysdInitialInterfaceAdd_describes (config : Config) (subsys : Subsystem) (intf : Port) :
    Transforms env (fun _ _ => True) txn (sysdInitialInterfaceAdd config txn subsys intf) db
      fun row after => AddedRow (DescribedInterface config subsys intf) db row after := by
  rw [sysdInitialInterfaceAdd]
  refine transforms_insertRow (admits_any env) fun row hFresh => ?_
  refine transforms_assign (admits_any env) (fun _ hStored => hStored) ?_
  refine transforms_assign (admits_any env) (fun _ hStored => hStored) ?_
  refine transforms_assign (admits_any env) (fun _ hStored => hStored) ?_
  have hRow : Adding (fun _ => False) db row ((Op.insert row .interface).apply db) :=
    .of_insert hFresh (by decide) (name_of_unnamed rfl)
  have hInfo : Transforms env (fun _ _ => True) txn
      (.call (.write row .interfaceHwIntfInfo (interfaceInfo config subsys intf)) fun _ => .done row)
      (Op.apply (Op.apply (Op.apply (Op.apply db (.insert row .interface))
        (.write row .interfaceName intf.name))
        (.write row .interfaceType (config.header .interfaceTypeSystem)))
        (.write row .interfaceAdminState (config.header .interfaceAdminStateDown)))
      fun row after => AddedRow (DescribedInterface config subsys intf) db row after := by
    refine transforms_assign (admits_any env) (fun _ hStored => hStored) ?_
    refine transforms_done (((((hRow.write _).write _).write _).write _).addedRow ⟨?_, ?_, ?_, ?_, ?_⟩)
    · simp [hRow.present]
    · simp [get_write_other, hRow.present]
    · simp [get_write_other, hRow.present]
    · simp [get_write_other, hRow.present]
    · simp [hRow.present]
  by_cases hLong : speedsBufferSize ≤ intf.speedsText.length
  · simp only [hLong, if_true]
    split
    · exact fun state _ _ => safe_fault.mpr trivial
    · exact fun state _ _ => safe_fault.mpr trivial
  · simp only [hLong, if_false]
    exact hInfo

/-- The interfaces of a subsystem are added in their order. -/
theorem interfaceRows_describe (config : Config) (subsys : Subsystem) :
    Transforms env (fun _ _ => True) txn
      (subsys.interfaces.mapM (sysdInitialInterfaceAdd config txn subsys)) db fun rows after =>
        Inserted db rows after ∧ List.Forall₂
          (fun iface intf => DescribedInterface config subsys intf iface after) rows subsys.interfaces := by
  refine transforms_mapM (fun intf _ middle => sysdInitialInterfaceAdd_describes config subsys intf) ?_
  intro intf row before after h hRow hLater
  have hSame := fun column => hLater.get_eq row column hRow id
  exact ⟨hLater.exists_of row hRow, (hSame _).trans h.name, (hSame _).trans h.type,
    (hSame _).trans h.adminState, (hSame _).trans h.hwIntfInfo⟩

/-- What a Subsystem row has before its interfaces are added. -/
structure StartedSubsystem (config : Config) (subsys : Subsystem) (row : RowId) (db : Database) :
    Prop where
  name : db.get row .subsystemName = subsys.name
  assetTag : db.get row .subsystemAssetTagNumber = dfltAssetTag
  hwDescDir : db.get row .subsystemHwDescDir = config.hwDescDir
  otherInfo : db.get row .subsystemOtherInfo = subsystemInfo subsys.fruEeprom subsys.intfCmnInfo

theorem StartedSubsystem.later {after : Database} (h : StartedSubsystem config subsys row db)
    (hRow : db.Exists row) (hBuilt : Built SplitColumn db after) :
    StartedSubsystem config subsys row after where
  name := (hBuilt.get_eq hRow id).trans h.name
  assetTag := (hBuilt.get_eq hRow id).trans h.assetTag
  hwDescDir := (hBuilt.get_eq hRow id).trans h.hwDescDir
  otherInfo := (hBuilt.get_eq hRow id).trans h.otherInfo

theorem fillSubsystem_describes (hAdding : Adding SplitColumn start row db)
    (hStarted : StartedSubsystem config subsys row db) :
    Assembles env txn world (fillSubsystem config txn subsys row) db failed
      fun row' after failed' => failed' = failed ∧ Built SplitColumn start after ∧
        DescribedSubsystem config subsys row' after := by
  have hIssues : (subsys.interfaces.mapM (sysdInitialInterfaceAdd config txn subsys)).Issues
      (Building InterfaceColumn txn) :=
    Issues.mapM fun intf _ => builds_of_supplies (sysdInitialInterfaceAdd_supplies subsys intf)
  rw [fillSubsystem_eq]
  refine (((interfaceRows_describe config subsys).and (transforms_building hIssues)).assembles
    (hIssues.mono fun _ => Building.quiet)).bind ?_
  rintro interfaces middle _ ⟨rfl, ⟨hInserted, hInterfaces⟩, hBuilt⟩
  have hCount : interfaces.length = subsys.interfaces.length := hInterfaces.length_eq
  have hMiddle : Built SplitColumn db middle :=
    hBuilt.narrow id id (hInserted.frame.mono fun _ _ _ => False.elim)
  have hSplits : (sysdSetSplittablePortInfo interfaces subsys).Issues (Building SplitColumn txn) :=
    builds_of_supplies (sysdSetSplittablePortInfo_supplies interfaces subsys)
  refine (assembles_building hSplits).bind ?_
  rintro _ split _ ⟨rfl, hSplit⟩
  have hAdded := (hAdding.later hMiddle).later hSplit
  have hKept := hStarted.later hAdding.present (hMiddle.trans hSplit)
  refine assembles_write ?_
  rintro _ rfl
  refine assembles_write ?_
  rintro _ rfl
  refine assembles_write fun value hValue => assembles_done ?_
  obtain rfl := Slice.Stored.eq_array hValue hCount
  refine ⟨rfl, (((hAdded.write _).write _).write _).built, ?_⟩
  -- the row's own columns written last are none of an interface
  have hRows : List.Forall₂ (fun iface intf => DescribedInterface config subsys intf iface split)
      value subsys.interfaces := by
    refine hInterfaces.imp fun iface intf hIface => hIface.later hSplit ?_
    simp [describedInterfaceColumns, SplitColumn]
  refine ⟨?_, ?_, ?_, ?_, ?_, ?_, ?_, ?_⟩
  · simp [hAdded.present]
  · simp [get_write_other, hKept.name]
  · simp [get_write_other, hKept.assetTag]
  · simp [get_write_other, hKept.hwDescDir]
  · simp [get_write_other, hKept.otherInfo]
  · simp only [get_write_same (exists_write.mpr (exists_write.mpr hAdded.present))]
    refine hRows.imp fun iface intf hIface => ⟨?_, ?_, ?_, ?_, ?_⟩
    · simp [hIface.present]
    · simp [get_write_other, hIface.name]
    · simp [get_write_other, hIface.type]
    · simp [get_write_other, hIface.adminState]
    · simp [get_write_other, hIface.hwIntfInfo]
  · simp [get_write_other, hAdded.present]
  · simp [get_write_other, hAdded.present]

/-- A subsystem is added as described, or without its interfaces and MAC columns
where the array of its interfaces cannot be allocated. -/
theorem sysdInitialSubsystemAdd_describes (subsys : Subsystem) :
    Assembles env txn world (sysdInitialSubsystemAdd config txn subsys) db failed
      fun row after failed' => Built SplitColumn db after ∧ after.Exists row ∧
        AllocationOutcome failed failed' (DescribedSubsystem config subsys row after)
          (after.get row .subsystemNextMacAddress = .lit "") := by
  rw [sysdInitialSubsystemAdd]
  refine assembles_insertRow fun row hFresh => ?_
  have hRow : Adding SplitColumn db row ((Op.insert row .subsystem).apply db) :=
    .of_insert hFresh (by decide) (name_of_unnamed rfl)
  refine assembles_write fun name hName => assembles_write fun assetTag hAssetTag => ?_
  refine assembles_write fun hwDescDir hHwDescDir => assembles_write fun otherInfo hOtherInfo => ?_
  have hAdded := (((hRow.write name).write assetTag).write hwDescDir).write otherInfo
  refine assembles_calloc ?_ ?_
  · refine (fillSubsystem_describes hAdded ⟨?_, ?_, ?_, ?_⟩).mono ?_
    · simpa [get_write_other, hRow.present] using (show name = subsys.name from hName)
    · simpa [get_write_other, hRow.present] using (show assetTag = dfltAssetTag from hAssetTag)
    · simpa [get_write_other, hRow.present] using (show hwDescDir = config.hwDescDir from hHwDescDir)
    · simpa [hRow.present] using (show otherInfo = subsystemInfo _ _ from hOtherInfo)
    · rintro row' after failed' ⟨hNote, hBuilt, hDescribed⟩
      exact ⟨hBuilt, hDescribed.present, .inl ⟨hNote, hDescribed⟩⟩
  · refine assembles_done ⟨hAdded.built, hAdded.present, .inr ⟨rfl, ?_⟩⟩
    simp [get_write_other, get_insert_same hFresh, Shape.default]

/-- The subsystems are added in their order, or one of them lacks its columns. -/
theorem subsystems_describe :
    Assembles env txn world (config.subsystems.mapM (sysdInitialSubsystemAdd config txn)) db failed
      fun rows after failed' => rows.length = config.subsystems.length ∧
        Built SplitColumn db after ∧ (∀ row ∈ rows, after.Exists row) ∧
        AllocationOutcome failed failed'
          (List.Forall₂ (fun row subsys => DescribedSubsystem config subsys row after) rows
            config.subsystems)
          (∃ row ∈ rows, after.get row .subsystemNextMacAddress = .lit "") := by
  refine assembles_mapM (fun subsys _ _ _ => sysdInitialSubsystemAdd_describes subsys) ?_ ?_
  · intro subsys row before after _ hBuilt h
    refine h.later hBuilt ?_
    simp [describedSubsystemColumns, describedInterfaceColumns, SplitColumn]
  · intro row before after hRow hBuilt h
    exact (hBuilt.get_eq hRow id).trans h

end Rows

section System

variable {World : Type} {env : Environment World} {config : Config} {txn : TxnId} {system : RowId}
  {db : Database}

/-- What `sysd_initial_configure` does before its first allocation. -/
def preliminaries (config : Config) (txn : TxnId) (system : RowId) : Program Calls Unit := do
  let mgmtIntf ← orFault config.mgmtIntf
  write system .systemMgmtIntf [(config.header .systemMgmtIntfMapName, mgmtIntf)]
  sysdConfigureDefaultBridge config txn system
  sysdConfigureDefaultVrf config txn system
  let base ← orFault config.subsystems.head?
  write system .systemManagementMac (config.etherToString base.mgmtMacAddr)
  write system .systemSystemMac (config.etherToString base.systemMacAddr)

theorem preliminaries_builds :
    (preliminaries config txn system).Issues (Building PreliminaryColumn txn) := by
  rw [preliminaries, issues_orFault_bind]
  refine ⟨fun _ => trivial, fun mgmtIntf _ => ⟨trivial, fun _ => ?_⟩⟩
  refine (builds_of_supplies (sysdConfigureDefaultBridge_supplies system)).bind fun _ => ?_
  refine (sysdConfigureDefaultVrf_builds system).bind fun _ => ?_
  rw [issues_orFault_bind]
  exact ⟨fun _ => trivial, fun base _ => ⟨trivial, fun _ => ⟨trivial, fun _ => trivial⟩⟩⟩

/-- The default bridge and VRF, and the addresses after them. -/
theorem preliminaries_addresses (hSystem : db.Exists system) :
    Transforms env (fun _ _ => True) txn (preliminaries config txn system) db
      fun _ after => AddressedSystem config system after := by
  rw [preliminaries]
  cases config.mgmtIntf with
  | none => exact fun state _ _ => safe_fault.mpr trivial
  | some mgmtIntf =>
      refine transforms_assign (admits_any env) (fun _ hStored => hStored) ?_
      have hBridge : (sysdConfigureDefaultBridge config txn system).Issues
          (Building PreliminaryColumn txn) :=
        builds_of_supplies (sysdConfigureDefaultBridge_supplies system)
      refine (transforms_building hBridge).bind fun _ first hFirst => ?_
      refine (transforms_building (sysdConfigureDefaultVrf_builds system)).bind fun _ second hSecond => ?_
      have hPresent : second.Exists system :=
        hSecond.frame.exists_of system (hFirst.frame.exists_of system (exists_write.mpr hSystem))
      cases hBase : config.subsystems.head? with
      | none => exact fun state _ _ => safe_fault.mpr trivial
      | some base =>
          refine transforms_assign (admits_any env) (fun _ hStored => hStored) ?_
          refine transforms_assign (admits_any env) (fun _ hStored => hStored) ?_
          refine transforms_done ⟨fun other hOther => ?_, fun other hOther => ?_⟩
          · obtain rfl := Option.some.inj (hBase.symm.trans hOther)
            simp [get_write_other, hPresent]
          · obtain rfl := Option.some.inj (hBase.symm.trans hOther)
            simp [hPresent]

end System
end OpsSysd.Daemon
