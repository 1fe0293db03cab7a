import OpsSysd.Daemon.Run
import OpsSysd.Idl.Building

/-! Which calls each part of a pass can make. Everything but the insertion of
the System row and the publication of `cur_hw` and `next_hw` is ordinary. -/
namespace OpsSysd.Daemon

open CLib Interaction Interaction.Program Idl

/-- A column that only `sysd_set_hw_done` writes. -/
def HwDoneColumn (column : Column) : Prop := column = .systemCurHw ∨ column = .systemNextHw

instance (column : Column) : Decidable (HwDoneColumn column) :=
  inferInstanceAs (Decidable (_ ∨ _))

/-- The columns that tell about MAC addresses. -/
def MacColumn (column : Column) : Prop :=
  column = .systemManagementMac ∨ column = .systemSystemMac ∨
    column = .subsystemNextMacAddress ∨ column = .subsystemMacsRemaining

instance (column : Column) : Decidable (MacColumn column) := inferInstanceAs (Decidable (_ ∨ _))

/-- Calls made while this transaction is open, to fill it. -/
def Filling (txn : TxnId) : Request → Prop
  | .insert txn' table => txn' = txn ∧ table ≠ .system
  | .write _ column _ => ¬ HwDoneColumn column
  | .rows _ | .read .. | .calloc | .openOsRelease | .fault _ => True
  | _ => False

/-- Calls that neither insert a System row, nor publish that the hardware is
done, nor touch the variables of the main loop. -/
def Ordinary : Request → Prop
  | .insert _ table => table ≠ .system
  | .write _ column _ => ¬ HwDoneColumn column
  | .rows _ | .read .. | .calloc | .openOsRelease | .openVersionDetail | .txnCreate
  | .commitBlock _ | .txnDestroy _ | .unlink | .symlink _ | .fault _ => True
  | _ => False

/-- Columns of the Interface rows of the initial configuration. -/
def InterfaceColumn : Column → Prop
  | .interfaceName | .interfaceType | .interfaceAdminState | .interfaceHwIntfInfo => True
  | _ => False

/-- Columns that relate a split port and its parts. -/
def SplitColumn : Column → Prop
  | .interfaceSplitParent | .interfaceSplitChildren => True
  | _ => False

/-- Columns of the Daemon rows of the initial configuration. -/
def DaemonColumn : Column → Prop
  | .daemonName | .daemonCurHw | .daemonIsHwHandler => True
  | _ => False

/-- Columns of the default bridge and VRF, and of the System row what is set
before its subsystems. -/
def PreliminaryColumn : Column → Prop
  | .systemMgmtIntf | .systemBridges | .systemVrfs | .systemManagementMac | .systemSystemMac
  | .interfaceName | .interfaceType | .interfaceHwIntfInfo | .interfaceUserConfig
  | .bridgeName | .bridgePorts | .portName | .portInterfaces | .vrfName | .vrfTableId | .vrfStatus => True
  | _ => False

/-- Columns of the QoS rows, and of the System row what refers to them. -/
def QosColumn : Column → Prop
  | .systemQosConfig | .systemQProfile | .systemQos | .systemQosCosMapEntries
  | .systemQosDscpMapEntries
  | .qProfileName | .qProfileQProfileEntries | .qProfileHwDefault
  | .qProfileEntryLocalPriorities | .qProfileEntryDescription | .qProfileEntryHwDefault
  | .qosName | .qosQueues | .qosHwDefault | .queueAlgorithm | .queueWeight | .queueHwDefault
  | .qosCosMapEntryCodePoint | .qosCosMapEntryLocalPriority | .qosCosMapEntryColor
  | .qosCosMapEntryDescription | .qosCosMapEntryHwDefaults
  | .qosDscpMapEntryCodePoint | .qosDscpMapEntryLocalPriority | .qosDscpMapEntryColor
  | .qosDscpMapEntryDescription | .qosDscpMapEntryHwDefaults => True
  | _ => False

/-- Columns of the two maps, and of the System row those that list them. -/
def MapColumn : Column → Prop
  | .systemQosCosMapEntries | .systemQosDscpMapEntries
  | .qosCosMapEntryCodePoint | .qosCosMapEntryLocalPriority | .qosCosMapEntryColor
  | .qosCosMapEntryDescription | .qosCosMapEntryHwDefaults
  | .qosDscpMapEntryCodePoint | .qosDscpMapEntryLocalPriority | .qosDscpMapEntryColor
  | .qosDscpMapEntryDescription | .qosDscpMapEntryHwDefaults => True
  | _ => False

/-- Columns of the queue profiles, and of the System row the one that refers to them. -/
def QueueColumn : Column → Prop
  | .systemQProfile
  | .qProfileName | .qProfileQProfileEntries | .qProfileHwDefault
  | .qProfileEntryLocalPriorities | .qProfileEntryDescription | .qProfileEntryHwDefault => True
  | _ => False

/-- Those that an entry of the description fills. -/
def QueueEntryColumn : Column → Prop
  | .qProfileQProfileEntries | .qProfileEntryLocalPriorities | .qProfileEntryDescription => True
  | _ => False

/-- Columns of the schedule profiles, and of the System row the one that refers to
them. -/
def ScheduleColumn : Column → Prop
  | .systemQos
  | .qosName | .qosQueues | .qosHwDefault | .queueAlgorithm | .queueWeight | .queueHwDefault => True
  | _ => False

theorem MapColumn.qos {column : Column} (h : MapColumn column) : QosColumn column := by
  cases column with
  | systemQosCosMapEntries | systemQosDscpMapEntries
  | qosCosMapEntryCodePoint | qosCosMapEntryLocalPriority | qosCosMapEntryColor
  | qosCosMapEntryDescription | qosCosMapEntryHwDefaults
  | qosDscpMapEntryCodePoint | qosDscpMapEntryLocalPriority | qosDscpMapEntryColor
  | qosDscpMapEntryDescription | qosDscpMapEntryHwDefaults => trivial
  | _ => exact h.elim

theorem QueueColumn.qos {column : Column} (h : QueueColumn column) : QosColumn column := by
  cases column with
  | systemQProfile | qProfileName | qProfileQProfileEntries | qProfileHwDefault
  | qProfileEntryLocalPriorities | qProfileEntryDescription | qProfileEntryHwDefault => trivial
  | _ => exact h.elim

theorem QueueEntryColumn.queue {column : Column} (h : QueueEntryColumn column) : QueueColumn column := by
  cases column with
  | qProfileQProfileEntries | qProfileEntryLocalPriorities | qProfileEntryDescription => trivial
  | _ => exact h.elim

theorem ScheduleColumn.qos {column : Column} (h : ScheduleColumn column) : QosColumn column := by
  cases column with
  | systemQos | qosName | qosQueues | qosHwDefault | queueAlgorithm | queueWeight
  | queueHwDefault => trivial
  | _ => exact h.elim

/-- The same calls, with every list initialised that is not the table id of a VRF. -/
def FillingLists (txn : TxnId) : Request → Prop
  | .insert txn' table => txn' = txn ∧ table ≠ .system
  | .write _ column arg =>
      ¬ HwDoneColumn column ∧ (column ≠ .vrfTableId → column.shape.Initialised arg)
  | .rows _ | .read .. | .calloc | .openOsRelease | .fault _ => True
  | _ => False

section Pointers

variable {Result Next : Type} {allowed : Request → Prop}

/-- Using a pointer is a fault where it is null. -/
@[simp] theorem issues_orFault_bind (pointer : Option Result) (after : Result → Program Calls Next) :
    (orFault pointer >>= after).Issues allowed ↔
      (pointer = none → allowed (.fault .nullPointer)) ∧
        ∀ result, pointer = some result → (after result).Issues allowed := by
  cases pointer with
  | none => simp [orFault]
  | some result => simp [orFault]

/-- Using an inserted row is one where it was refused. -/
@[simp] theorem issues_insertRow_bind {txn : TxnId} {table : Table}
    (after : RowId → Program Calls Next) :
    (insertRow txn table >>= after).Issues allowed ↔ allowed (.insert txn table) ∧
      allowed (.fault .nullPointer) ∧ ∀ row, (after row).Issues allowed := by
  simp only [insertRow, call_bind, done_bind, issues_call, issues_orFault_bind]
  refine and_congr_right fun _ => ⟨fun h => ⟨(h none).1 rfl, fun row => (h (some row)).2 row rfl⟩, ?_⟩
  exact fun h answer => ⟨fun _ => h.1, fun row _ => h.2 row⟩

end Pointers

section Building

variable {txn : TxnId} {config : Config} {columns : Column → Prop}

/-- An interface is added with its own columns. -/
theorem sysdInitialInterfaceAdd_supplies (subsys : Subsystem) (intf : Port) :
    (sysdInitialInterfaceAdd config txn subsys intf).Issues (Supplying InterfaceColumn txn) := by
  simp [sysdInitialInterfaceAdd, InterfaceColumn, Table.nameColumn]

/-- Looking for the subports writes nothing. -/
theorem findSubports_supplies (hash : RowHash) (names : List CString) (found : List RowId) (j : Nat) :
    (findSubports hash names found j).Issues (Supplying SplitColumn txn) := by
  induction names generalizing found j with
  | nil => trivial
  | cons name names ih =>
      rw [findSubports]
      cases hash.find name <;> simp [ih]

/-- The index counts the rows found. -/
theorem findSubports_yields (hash : RowHash) (names : List CString) {found : List RowId} {j : Nat}
    (h : found.length = j) :
    (findSubports hash names found j).Yields fun result => result.1.length = result.2 := by
  induction names generalizing found j with
  | nil => exact h
  | cons name names ih =>
      rw [findSubports]
      by_cases hFull : sysdMaxSplitPorts ≤ j
      · rw [if_pos hFull]
        exact fun answer => answer.elim
      rw [if_neg hFull]
      cases hash.find name with
      | none => exact ih h
      | some row =>
          refine ih ?_
          rw [List.length_append, h, List.length_singleton]

/-- The children are set to as many rows as were found. -/
theorem setSplitChildren_supplies (hash : RowHash) (row : RowId) (intf : Port) :
    (setSplitChildren hash row intf).Issues (Supplying SplitColumn txn) := by
  refine (issues_ite _ _).mpr ⟨fun _ => ?_, fun _ => trivial⟩
  have hFound := @findSubports_supplies txn hash intf.subports [] 0
  refine hFound.bind_yields (findSubports_yields hash intf.subports rfl) fun subports hCount => ?_
  exact supplies_write_then trivial (Slice.initialised_of_eq hCount) trivial

/-- A port gets its children or its parent. -/
theorem setSplitInfo_supplies (hash : RowHash) (row : RowId) (intf : Port) :
    (setSplitInfo hash row intf).Issues (Supplying SplitColumn txn) := by
  have hChildren := @setSplitChildren_supplies txn hash row intf
  rw [setSplitInfo]
  cases intf.parentPort with
  | none => exact hChildren
  | some parentPort =>
      simp only
      cases hash.find parentPort with
      | none => exact hChildren
      | some parent => exact ⟨supplies_write trivial trivial, fun _ => hChildren⟩

/-- Filling the hash map only reads. -/
theorem hashSplittable_supplies (ports : List (RowId × Port)) (hash : RowHash) :
    (hashSplittable ports hash).Issues (Supplying SplitColumn txn) := by
  induction ports generalizing hash with
  | nil => trivial
  | cons port ports ih => simp [hashSplittable, ih]

/-- Splitting concerns these columns alone. -/
theorem sysdSetSplittablePortInfo_supplies (rows : List RowId) (subsys : Subsystem) :
    (sysdSetSplittablePortInfo rows subsys).Issues (Supplying SplitColumn txn) :=
  (hashSplittable_supplies _ _).bind fun hash =>
    Issues.forM fun port _ => setSplitInfo_supplies hash port.1 port.2

/-- A daemon is added with its own columns. -/
theorem sysdInitialDaemonAdd_supplies (daemon : Manifest.DaemonInfo) :
    (sysdInitialDaemonAdd txn daemon).Issues (Supplying DaemonColumn txn) := by
  simp [sysdInitialDaemonAdd, DaemonColumn, Table.nameColumn]

/-- A search by name reads what its column reads. -/
theorem findByName_supplies {table : Table} {column : RowId → Program Calls CString}
    (wanted : Option CString)
    (h : ∀ row, (column row).Issues (Supplying columns txn)) :
    (findByName table column wanted).Issues (Supplying columns txn) := by
  have hSearch : ∀ rows, (findByName.search column wanted rows).Issues (Supplying columns txn) := by
    intro rows
    induction rows with
    | nil => trivial
    | cons row rows ih =>
        refine (h row).bind fun name => (issues_orFault_bind _ _).mpr ⟨fun _ => trivial, ?_⟩
        intro wanted _
        rw [issues_ite]
        exact ⟨fun _ => trivial, fun _ => ih⟩
  exact ⟨trivial, hSearch⟩

theorem qosGetQueueProfileRow_supplies (profileName : Option CString) :
    (qosGetQueueProfileRow profileName).Issues (Supplying columns txn) :=
  findByName_supplies profileName fun _ => ⟨trivial, fun _ => trivial⟩

theorem qosGetScheduleProfileRow_supplies (profileName : Option CString) :
    (qosGetScheduleProfileRow profileName).Issues (Supplying ScheduleColumn txn) :=
  findByName_supplies profileName fun _ => ⟨trivial, fun _ => trivial⟩

/-- The profile lists the queues it had and the new one. -/
theorem insertQueueProfileQueueRow_supplies (profile : RowId) (queueNum : Int) :
    (insertQueueProfileQueueRow profile queueNum txn).Issues (Supplying QueueEntryColumn txn) := by
  rw [insertQueueProfileQueueRow, issues_insertRow_bind]
  refine ⟨⟨rfl, by decide, name_of_unnamed rfl⟩, trivial, fun queue => ⟨trivial, fun entries => ?_⟩⟩
  exact supplies_write_then trivial (Slice.initialised_of_eq List.length_append) trivial

theorem read_supplies (row : RowId) (column : Column) :
    (read row column).Issues (Supplying columns txn) :=
  ⟨trivial, fun _ => trivial⟩

/-- A queue lists the priorities it had and the new one. -/
theorem addLocalPriority_supplies (queue : RowId) (localPriority : Int) :
    (addLocalPriority queue localPriority).Issues (Supplying QueueEntryColumn txn) := by
  refine ⟨trivial, fun priorities => (issues_ite _ _).mpr ⟨fun _ => trivial, fun _ => ?_⟩⟩
  exact supplies_write_then trivial (Slice.initialised_of_eq List.length_append) trivial

/-- An entry of a queue profile is written to the queue's row. -/
theorem updateQueueRow_supplies (entry : QueueProfileEntry) (queue : RowId) :
    (updateQueueRow entry queue).Issues (Supplying QueueEntryColumn txn) := by
  refine (addLocalPriority_supplies queue entry.localPriority).bind fun _ => ?_
  cases entry.description with
  | none => trivial
  | some description => exact supplies_write_then trivial trivial trivial

/-- And to a new one if there was none. -/
theorem qosQueueProfileRowCommand_supplies (profileName : Option CString) (entry : QueueProfileEntry) :
    (qosQueueProfileRowCommand txn profileName entry).Issues (Supplying QueueEntryColumn txn) := by
  refine (qosGetQueueProfileRow_supplies profileName).bind fun found => ?_
  cases found with
  | none => trivial
  | some profile =>
      refine (read_supplies profile .qProfileQProfileEntries).bind fun entries => ?_
      dsimp only
      cases queueRow entries entry.queue with
      | some queue => exact updateQueueRow_supplies entry queue
      | none =>
          refine (insertQueueProfileQueueRow_supplies profile entry.queue).bind fun queue => ?_
          exact updateQueueRow_supplies entry queue

/-- A queue profile begins with its name. -/
theorem qosQueueProfileCommand_supplies (profileName : Option CString) :
    (qosQueueProfileCommand txn profileName).Issues (Supplying QueueColumn txn) := by
  refine (qosGetQueueProfileRow_supplies profileName).bind fun found => ?_
  cases found with
  | some profile => trivial
  | none =>
      have hName : ∀ column ∈ Table.nameColumn .qProfile, QueueColumn column := name_of_named rfl trivial
      refine (issues_insertRow_bind _).mpr ⟨⟨rfl, by decide, hName⟩, trivial, fun profile => ?_⟩
      refine (issues_orFault_bind _ _).mpr ⟨fun _ => trivial, fun name _ => ?_⟩
      exact supplies_write_then trivial trivial trivial

theorem qosQueueProfileCreateFactoryDefault_supplies (defaultName : Option CString) :
    (qosQueueProfileCreateFactoryDefault config txn defaultName).Issues (Supplying QueueColumn txn) := by
  refine (qosQueueProfileCommand_supplies defaultName).bind fun _ => Issues.forM fun ii _ => ?_
  cases config.queueProfile.get ii with
  | none => trivial
  | some entry =>
      have hRow : (qosQueueProfileRowCommand txn defaultName entry).Issues (Supplying QueueColumn txn) :=
        (qosQueueProfileRowCommand_supplies defaultName entry).mono
          fun _ => Supplying.mono fun _ => QueueEntryColumn.queue
      exact hRow.bind fun _ => trivial

/-- The schedule maps the queues it had and the new one. -/
theorem insertScheduleProfileQueueRow_supplies (profile : RowId) (queueNum : Int) :
    (insertScheduleProfileQueueRow profile queueNum txn).Issues (Supplying ScheduleColumn txn) := by
  rw [insertScheduleProfileQueueRow, issues_insertRow_bind]
  refine ⟨⟨rfl, by decide, name_of_unnamed rfl⟩, trivial, fun queue => ⟨trivial, fun queues => ?_⟩⟩
  exact supplies_write_then trivial (Slice.initialised_of_eq List.length_append) trivial

/-- An entry of a schedule profile is written to the queue's row. -/
theorem updateScheduleRow_supplies (entry : ScheduleProfileEntry) (queue : RowId) :
    (updateScheduleRow config entry queue).Issues (Supplying ScheduleColumn txn) := by
  refine (issues_orFault_bind _ _).mpr ⟨fun _ => trivial, fun algorithm _ => ?_⟩
  refine supplies_write_then trivial trivial ((issues_ite _ _).mpr ⟨fun _ => ?_, fun _ => ?_⟩)
  · exact supplies_write_then trivial (Slice.initialised_of_eq rfl) trivial
  · exact supplies_write_then trivial (Slice.initialised_of_eq rfl) trivial

theorem qosScheduleProfileRowCommand_supplies (profileName : Option CString) (entry : ScheduleProfileEntry) :
    (qosScheduleProfileRowCommand config txn profileName entry).Issues (Supplying ScheduleColumn txn) := by
  refine (qosGetScheduleProfileRow_supplies profileName).bind fun found => ?_
  cases found with
  | none => trivial
  | some profile =>
      refine (read_supplies profile .qosQueues).bind fun queues => ?_
      dsimp only
      cases queueRow queues entry.queue with
      | some queue => exact updateScheduleRow_supplies entry queue
      | none =>
          refine (insertScheduleProfileQueueRow_supplies profile entry.queue).bind fun queue => ?_
          exact updateScheduleRow_supplies entry queue

/-- A schedule profile begins with its name, and without queues. -/
theorem qosScheduleProfileCommand_supplies (profileName : Option CString) :
    (qosScheduleProfileCommand txn profileName).Issues (Supplying ScheduleColumn txn) := by
  refine (qosGetScheduleProfileRow_supplies profileName).bind fun found => ?_
  cases found with
  | some profile => trivial
  | none =>
      have hName : ∀ column ∈ Table.nameColumn .qos, ScheduleColumn column := name_of_named rfl trivial
      refine (issues_insertRow_bind _).mpr ⟨⟨rfl, by decide, hName⟩, trivial, fun profile => ?_⟩
      refine (issues_orFault_bind _ _).mpr ⟨fun _ => trivial, fun name _ => ?_⟩
      exact supplies_write_then trivial trivial trivial

theorem qosScheduleProfileCreateFactoryDefault_supplies (defaultName : Option CString) :
    (qosScheduleProfileCreateFactoryDefault config txn defaultName).Issues (Supplying ScheduleColumn txn) := by
  refine (qosScheduleProfileCommand_supplies defaultName).bind fun _ => ?_
  refine (qosGetScheduleProfileRow_supplies defaultName).bind fun found => ?_
  rw [issues_orFault_bind]
  refine ⟨fun _ => trivial, fun profile _ => ?_⟩
  refine supplies_write_then trivial (Slice.initialised_of_eq rfl) (Issues.forM fun ii _ => ?_)
  cases config.scheduleProfile.get ii with
  | none => trivial
  | some entry =>
      exact (qosScheduleProfileRowCommand_supplies defaultName entry).bind fun _ => trivial

/-- The trust concerns one column of the System row. -/
theorem qosInitTrust_supplies (system : RowId) :
    (qosInitTrust config system).Issues (Supplying (· = .systemQosConfig) txn) := by
  rw [qosInitTrust]
  cases config.qosInfo with
  | none => trivial
  | some qosInfo =>
      obtain ⟨trust, defaultName, factoryDefaultName⟩ := qosInfo
      cases trust with
      | none => trivial
      | some trust => exact ⟨trivial, fun smap => ⟨supplies_write rfl trivial, fun _ => trivial⟩⟩

/-- The loop over the entries writes what each of them does. -/
theorem initDefaultMap_supplies (entries : YamlList MapEntry) {set : RowId → MapEntry → Program Calls Unit}
    (mapRows : List RowId) (hSet : ∀ row entry, (set row entry).Issues (Supplying MapColumn txn)) :
    (initDefaultMap entries set mapRows).Issues (Supplying MapColumn txn) := by
  refine Issues.forM fun ii _ => ?_
  cases mapRows[ii]? with
  | none => exact ⟨trivial, nofun⟩
  | some row => exact (issues_orFault_bind _ _).mpr ⟨fun _ => trivial, fun entry _ => hSet row entry⟩

/-- All columns of the table belong to this class. -/
def MapColumns.Within (columns : MapColumns) (within : Column → Prop) : Prop :=
  ∀ column ∈ columns.all, within column

/-- An entry is written to the columns of its map. -/
theorem setMapEntry_supplies {columns : MapColumns} (h : columns.Within MapColumn) (row : RowId)
    (entry : MapEntry) : (setMapEntry columns row entry).Issues (Supplying MapColumn txn) := by
  simp only [MapColumns.Within, MapColumns.all, List.forall_mem_cons] at h
  obtain ⟨hCodePoint, hLocalPriority, hColor, hDescription, hDefaults, -⟩ := h
  refine supplies_write_then hCodePoint ((ColumnOf.initialised_arg _ _).mpr trivial) ?_
  refine supplies_write_then hLocalPriority ((ColumnOf.initialised_arg _ _).mpr trivial) ?_
  refine (issues_orFault_bind _ _).mpr ⟨fun _ => trivial, fun color _ => ?_⟩
  refine supplies_write_then hColor ((ColumnOf.initialised_arg _ _).mpr trivial) ?_
  refine (issues_orFault_bind _ _).mpr ⟨fun _ => trivial, fun description _ => ?_⟩
  refine supplies_write_then hDescription ((ColumnOf.initialised_arg _ _).mpr trivial) ?_
  refine (read_supplies row columns.hwDefaults.column).bind fun smap => ?_
  exact supplies_write_then hDefaults ((ColumnOf.initialised_arg _ _).mpr trivial) trivial

theorem cosMapColumns_within : cosMapColumns.Within MapColumn := by
  simp [MapColumns.Within, MapColumns.all, cosMapColumns, MapColumn]

theorem dscpMapColumns_within : dscpMapColumns.Within MapColumn := by
  simp [MapColumns.Within, MapColumns.all, dscpMapColumns, MapColumn]

theorem setCosMapEntry_supplies (row : RowId) (entry : MapEntry) :
    (setCosMapEntry row entry).Issues (Supplying MapColumn txn) :=
  setMapEntry_supplies cosMapColumns_within row entry

theorem setDscpMapEntry_supplies (row : RowId) (entry : MapEntry) :
    (setDscpMapEntry row entry).Issues (Supplying MapColumn txn) :=
  setMapEntry_supplies dscpMapColumns_within row entry

/-- A row may be inserted in a table whose rows need no name. -/
theorem insertRow_supplies {table : Table} (hTable : table ≠ .system ∧ table ≠ .packageInfo)
    (hName : table.nameColumn = none) : (insertRow txn table).Issues (Supplying columns txn) := by
  rw [← bind_done (insertRow txn table), issues_insertRow_bind]
  exact ⟨⟨rfl, hTable, name_of_unnamed hName⟩, trivial, fun _ => trivial⟩

/-- The System row lists as many rows as have been inserted. -/
theorem qosInitMap_supplies {entries : YamlList MapEntry} {set : RowId → MapEntry → Program Calls Unit}
    {table : Table} {size : Nat} {listed : ColumnOf .references}
    (hTable : table ≠ .system ∧ table ≠ .packageInfo) (hName : table.nameColumn = none)
    (hListed : MapColumn listed.column)
    (hSet : ∀ row entry, (set row entry).Issues (Supplying MapColumn txn)) (system : RowId) :
    (qosInitMap entries set txn table size listed system).Issues (Supplying MapColumn txn) := by
  refine (issues_ite _ _).mpr ⟨fun _ => ?_, fun _ => trivial⟩
  have hRows := yields_mapM (fun _ : Nat => insertRow txn table) (List.range size)
  have hInsert : (insertRow txn table).Issues (Supplying MapColumn txn) := insertRow_supplies hTable hName
  refine (Issues.mapM fun _ _ => hInsert).bind_yields hRows fun mapRows hLength => ?_
  refine (initDefaultMap_supplies entries mapRows hSet).bind fun _ => ?_
  have hCount : mapRows.length = size := hLength.trans List.length_range
  have hArg := (ColumnOf.initialised_arg listed ⟨mapRows, size⟩).mpr (Slice.initialised_of_eq hCount)
  exact supplies_write_then hListed hArg trivial

theorem qosInitCosMap_supplies (system : RowId) :
    (qosInitCosMap config txn system).Issues (Supplying MapColumn txn) := by
  have hListed : MapColumn .systemQosCosMapEntries := trivial
  exact qosInitMap_supplies (by decide) rfl hListed setCosMapEntry_supplies system

theorem qosInitDscpMap_supplies (system : RowId) :
    (qosInitDscpMap config txn system).Issues (Supplying MapColumn txn) := by
  have hListed : MapColumn .systemQosDscpMapEntries := trivial
  exact qosInitMap_supplies (by decide) rfl hListed setDscpMapEntry_supplies system

theorem qosInitQueueProfile_supplies (system : RowId) :
    (qosInitQueueProfile config txn system).Issues (Supplying QueueColumn txn) := by
  rw [qosInitQueueProfile]
  cases config.qosInfo with
  | none => trivial
  | some qosInfo =>
      refine (qosQueueProfileCreateFactoryDefault_supplies _).bind fun _ => ?_
      refine (qosGetQueueProfileRow_supplies _).bind fun defaultProfile => ?_
      cases defaultProfile with
      | none => trivial
      | some defaultProfile =>
          refine ⟨supplies_write trivial trivial, fun _ => ?_⟩
          refine (qosQueueProfileCreateFactoryDefault_supplies _).bind fun _ => ?_
          refine (qosGetQueueProfileRow_supplies _).bind fun factoryDefaultProfile => ?_
          cases factoryDefaultProfile with
          | none => trivial
          | some factoryDefaultProfile =>
              refine supplies_write_then trivial (Slice.initialised_of_eq rfl) ?_
              refine ⟨trivial, fun entries => Issues.forM fun entry _ => ?_⟩
              exact supplies_write_then trivial (Slice.initialised_of_eq rfl) trivial

theorem qosInitScheduleProfile_supplies (system : RowId) :
    (qosInitScheduleProfile config txn system).Issues (Supplying ScheduleColumn txn) := by
  rw [qosInitScheduleProfile]
  cases config.qosInfo with
  | none => trivial
  | some qosInfo =>
      refine (qosScheduleProfileCreateFactoryDefault_supplies _).bind fun _ => ?_
      refine (qosGetScheduleProfileRow_supplies _).bind fun defaultProfile => ?_
      cases defaultProfile with
      | none => trivial
      | some defaultProfile =>
          refine ⟨supplies_write trivial trivial, fun _ => ?_⟩
          refine (qosScheduleProfileCreateFactoryDefault_supplies _).bind fun _ => ?_
          refine (qosGetScheduleProfileRow_supplies _).bind fun factoryDefaultProfile => ?_
          cases factoryDefaultProfile with
          | none => trivial
          | some factoryDefaultProfile =>
              refine supplies_write_then trivial (Slice.initialised_of_eq rfl) ?_
              refine ⟨trivial, fun queues => Issues.forM fun queue _ => ?_⟩
              exact supplies_write_then trivial (Slice.initialised_of_eq rfl) trivial

/-- The limits concern one column of the System row. -/
theorem aclInitLimits_supplies (system : RowId) :
    (aclInitLimits config system).Issues (Supplying (· = .systemOtherInfo) txn) := by
  simp [aclInitLimits]

/-- The bridge lists its one port, and the port its one interface. -/
theorem sysdConfigureDefaultBridge_supplies (system : RowId) :
    (sysdConfigureDefaultBridge config txn system).Issues (Supplying PreliminaryColumn txn) := by
  simp [sysdConfigureDefaultBridge, PreliminaryColumn, Table.nameColumn]

/-- The table id of the VRF is announced longer than it is, so this only builds. -/
theorem sysdConfigureDefaultVrf_builds (system : RowId) :
    (sysdConfigureDefaultVrf config txn system).Issues (Building PreliminaryColumn txn) := by
  simp [sysdConfigureDefaultVrf, Building, PreliminaryColumn, Table.nameColumn]

end Building

section Filling

variable {txn : TxnId} {config : Config} {columns : Column → Prop} {Result : Type}
  {program : Program Calls Result}

/-- A program that builds, and writes neither column of the publication, fills. -/
theorem fills_of_builds (hIssues : program.Issues (Building columns txn))
    (hCurHw : ¬ columns .systemCurHw) (hNextHw : ¬ columns .systemNextHw) :
    program.Issues (Filling txn) :=
  hIssues.mono fun request h => by
    cases request with
    | write row column arg =>
        rintro (rfl | rfl)
        · exact hCurHw h
        · exact hNextHw h
    | rows _ | read _ _ | fault _ => trivial
    | insert _ _ => exact ⟨h.1, h.2.1⟩
    | _ => exact h.elim

/-- What fills with initialised lists fills. -/
theorem fills_of_lists (hIssues : program.Issues (FillingLists txn)) :
    program.Issues (Filling txn) :=
  hIssues.mono fun request h => by
    cases request with
    | write row column arg => exact h.1
    | _ => exact h

end Filling

/-- The part of `sysd_initial_subsystem_add` behind its allocation. -/
def fillSubsystem (config : Config) (txn : TxnId) (subsys : Subsystem) (row : RowId) :
    Program Calls RowId := do
  let (interfaces, i) ← addEach (sysdInitialInterfaceAdd config txn subsys) subsys.interfaces [] 0
  sysdSetSplittablePortInfo interfaces subsys
  write row .subsystemNextMacAddress (config.etherToString subsys.nxtMacAddr)
  write row .subsystemMacsRemaining subsys.numFreeMacs
  write row .subsystemInterfaces ⟨interfaces, i⟩
  return row

theorem fillSubsystem_eq (config : Config) (txn : TxnId) (subsys : Subsystem) (row : RowId) :
    fillSubsystem config txn subsys row = do
      let interfaces ← subsys.interfaces.mapM (sysdInitialInterfaceAdd config txn subsys)
      sysdSetSplittablePortInfo interfaces subsys
      write row .subsystemNextMacAddress (config.etherToString subsys.nxtMacAddr)
      write row .subsystemMacsRemaining subsys.numFreeMacs
      write row .subsystemInterfaces ⟨interfaces, subsys.interfaces.length⟩
      return row := by
  simp only [fillSubsystem, addEach_eq, bind_assoc, done_bind, List.nil_append, Nat.zero_add]

/-- The QoS part of the initial configuration. -/
def configureQos (config : Config) (txn : TxnId) (system : RowId) : Program Calls Unit := do
  qosInitTrust config system
  qosInitDscpMap config txn system
  qosInitCosMap config txn system
  qosInitQueueProfile config txn system
  qosInitScheduleProfile config txn system

/-- What `sysd_initial_configure` does once the daemons are there. -/
def finishConfiguration (config : Config) (txn : TxnId) (system : RowId) : Program Calls Unit := do
  sysdUpdateSwInfo config system
  write system .systemTimezone (some dfltTimezone)
  configureQos config txn system
  aclInitLimits config system

theorem configureDaemons_eq (config : Config) (txn : TxnId) (system : RowId) :
    configureDaemons config txn system = .call .calloc fun allocated =>
      if allocated then
        if config.daemons ≠ [] then
          config.daemons.mapM (sysdInitialDaemonAdd txn) >>= fun daemons =>
            .call (.write system .systemDaemons ⟨daemons, config.numDaemons⟩) fun _ =>
              finishConfiguration config txn system
        else finishConfiguration config txn system
      else .done () := by
  simp only [configureDaemons, finishConfiguration, configureQos, bind_assoc]
  rfl

/-- A column of which it matters who writes it, or what. -/
def ReservedColumn (column : Column) : Prop := HwDoneColumn column ∨ MacColumn column

instance (column : Column) : Decidable (ReservedColumn column) :=
  inferInstanceAs (Decidable (_ ∨ _))

/-- Columns that name no reserved one leave them alone. -/
theorem reserved_not {columns : Column → Prop} (hCurHw : ¬ columns .systemCurHw)
    (hNextHw : ¬ columns .systemNextHw) (hManagement : ¬ columns .systemManagementMac)
    (hSystem : ¬ columns .systemSystemMac) (hNext : ¬ columns .subsystemNextMacAddress)
    (hRemaining : ¬ columns .subsystemMacsRemaining) :
    ∀ column, ReservedColumn column → ¬ columns column := by
  rintro column ((rfl | rfl) | (rfl | rfl | rfl | rfl))
  all_goals assumption

/-- Accepts every call that the initial configuration makes for its transaction:
whatever fills columns that are not reserved, the table id whose count is a size
in bytes, and the addresses of the subsystems. -/
structure Accepts (config : Config) (txn : TxnId) (allowed : Request → Prop) : Prop where
  supplies : ∀ request, Supplying (fun column => ¬ ReservedColumn column) txn request →
    allowed request
  tableId : ∀ row, allowed (.write row .vrfTableId ⟨[0], 8⟩)
  calloc : allowed .calloc
  openOsRelease : allowed .openOsRelease
  managementMac : ∀ row base, config.subsystems.head? = some base →
    allowed (.write row .systemManagementMac (config.etherToString base.mgmtMacAddr))
  systemMac : ∀ row base, config.subsystems.head? = some base →
    allowed (.write row .systemSystemMac (config.etherToString base.systemMacAddr))
  nextMacAddress : ∀ row, ∀ subsys ∈ config.subsystems,
    allowed (.write row .subsystemNextMacAddress (config.etherToString subsys.nxtMacAddr))
  macsRemaining : ∀ row, ∀ subsys ∈ config.subsystems,
    allowed (.write row .subsystemMacsRemaining subsys.numFreeMacs)

section Accepted

variable {txn : TxnId} {config : Config} {allowed : Request → Prop} {columns : Column → Prop}
  {Result : Type} {program : Program Calls Result}

/-- An initialised value outside the reserved columns is accepted. -/
theorem Accepts.write (accepts : Accepts config txn allowed) {row : RowId} {column : Column}
    {arg : column.Arg} (hColumn : ¬ ReservedColumn column) (hArg : column.shape.Initialised arg) :
    allowed (.write row column arg) :=
  accepts.supplies _ ⟨hColumn, hArg⟩

/-- So is all that is supplied outside them. -/
theorem Accepts.of_supplies (accepts : Accepts config txn allowed)
    (hIssues : program.Issues (Supplying columns txn))
    (hColumns : ∀ column, ReservedColumn column → ¬ columns column) : program.Issues allowed :=
  hIssues.mono fun request h =>
    accepts.supplies request (h.mono fun column hColumn hReserved => hColumns column hReserved hColumn)

/-- All of the QoS concerns its own columns. -/
theorem configureQos_supplies (system : RowId) :
    (configureQos config txn system).Issues (Supplying QosColumn txn) := by
  have hTrust : ∀ column, column = .systemQosConfig → QosColumn column := fun _ hSame => hSame ▸ trivial
  refine Issues.bind ?_ fun _ => Issues.bind ?_ fun _ => Issues.bind ?_ fun _ => Issues.bind ?_ fun _ => ?_
  · exact (qosInitTrust_supplies system).mono fun _ => Supplying.mono hTrust
  · exact (qosInitDscpMap_supplies system).mono fun _ => Supplying.mono fun _ => MapColumn.qos
  · exact (qosInitCosMap_supplies system).mono fun _ => Supplying.mono fun _ => MapColumn.qos
  · exact (qosInitQueueProfile_supplies system).mono fun _ => Supplying.mono fun _ => QueueColumn.qos
  · exact (qosInitScheduleProfile_supplies system).mono fun _ => Supplying.mono fun _ => ScheduleColumn.qos

/-- The reserved columns of a subsystem get its own values. -/
theorem fillSubsystem_accepted (accepts : Accepts config txn allowed) {subsys : Subsystem}
    (hSubsys : subsys ∈ config.subsystems) (row : RowId) :
    (fillSubsystem config txn subsys row).Issues allowed := by
  have hAdd : ∀ intf, (sysdInitialInterfaceAdd config txn subsys intf).Issues allowed := fun intf =>
    accepts.of_supplies (sysdInitialInterfaceAdd_supplies subsys intf) (reserved_not id id id id id id)
  have hSplit : ∀ interfaces, (sysdSetSplittablePortInfo interfaces subsys).Issues allowed :=
    fun interfaces => accepts.of_supplies (sysdSetSplittablePortInfo_supplies interfaces subsys)
      (reserved_not id id id id id id)
  rw [fillSubsystem_eq]
  refine (Issues.mapM fun intf _ => hAdd intf).bind_yields (yields_mapM _ _) fun interfaces hCount => ?_
  refine (hSplit interfaces).bind fun _ => ⟨accepts.nextMacAddress row subsys hSubsys, fun _ => ?_⟩
  refine ⟨accepts.macsRemaining row subsys hSubsys, fun _ => ?_⟩
  exact ⟨accepts.write (by decide) (Slice.initialised_of_eq hCount), fun _ => trivial⟩

theorem sysdInitialSubsystemAdd_accepted (accepts : Accepts config txn allowed) {subsys : Subsystem}
    (hSubsys : subsys ∈ config.subsystems) :
    (sysdInitialSubsystemAdd config txn subsys).Issues allowed := by
  rw [sysdInitialSubsystemAdd, issues_insertRow_bind]
  refine ⟨accepts.supplies _ ⟨rfl, by decide, name_of_unnamed rfl⟩, accepts.supplies _ trivial, fun row => ?_⟩
  refine ⟨accepts.write (by decide) trivial, fun _ => ⟨accepts.write (by decide) trivial, fun _ => ?_⟩⟩
  refine ⟨accepts.write (by decide) trivial, fun _ => ⟨accepts.write (by decide) trivial, fun _ => ?_⟩⟩
  refine ⟨accepts.calloc, fun allocated => ?_⟩
  cases allocated with
  | false => trivial
  | true => exact fillSubsystem_accepted accepts hSubsys row

theorem sysdConfigureDefaultBridge_accepted (accepts : Accepts config txn allowed) (system : RowId) :
    (sysdConfigureDefaultBridge config txn system).Issues allowed := by
  have hSupplies : (sysdConfigureDefaultBridge config txn system).Issues
      (Supplying (fun column => ¬ ReservedColumn column) txn) := by
    simp [sysdConfigureDefaultBridge, ReservedColumn, HwDoneColumn, MacColumn, Table.nameColumn]
  exact hSupplies.mono accepts.supplies

/-- The table id is the one list that is announced longer than it is. -/
theorem sysdConfigureDefaultVrf_accepted (accepts : Accepts config txn allowed) (system : RowId) :
    (sysdConfigureDefaultVrf config txn system).Issues allowed := by
  rw [sysdConfigureDefaultVrf, issues_insertRow_bind]
  refine ⟨accepts.supplies _ ⟨rfl, by decide, name_of_unnamed rfl⟩, accepts.supplies _ trivial, fun vrf => ?_⟩
  refine ⟨accepts.write (by decide) trivial, fun _ => ?_⟩
  refine ⟨accepts.write (by decide) (Slice.initialised_of_eq rfl), fun _ => ?_⟩
  refine ⟨accepts.tableId vrf, fun _ => ?_⟩
  exact ⟨accepts.supplies _ trivial, fun status => ⟨accepts.write (by decide) trivial, fun _ => trivial⟩⟩

/-- The release file is for the software columns. -/
theorem sysdUpdateSwInfo_accepted (accepts : Accepts config txn allowed) (system : RowId) :
    (sysdUpdateSwInfo config system).Issues allowed := by
  refine ⟨accepts.openOsRelease, fun release => ?_⟩
  cases release with
  | none => trivial
  | some lines =>
      have hSupplies : Program.Issues (Supplying (fun column => ¬ ReservedColumn column) txn) (do
          let info := scanRelease (config.header .systemSoftwareInfoOsName) lines
          if info.smap ≠ [] then write system .systemSoftwareInfo info.smap
          if info.HasVersion then write system .systemSwitchVersion (switchVersion info)) := by
        simp [ReservedColumn, HwDoneColumn, MacColumn]
      exact hSupplies.mono accepts.supplies

theorem finishConfiguration_accepted (accepts : Accepts config txn allowed) (system : RowId) :
    (finishConfiguration config txn system).Issues allowed := by
  refine (sysdUpdateSwInfo_accepted accepts system).bind fun _ => ?_
  refine ⟨accepts.write (by decide) trivial, fun _ => ?_⟩
  have hQos : (configureQos config txn system).Issues allowed :=
    accepts.of_supplies (configureQos_supplies system) (reserved_not id id id id id id)
  refine hQos.bind fun _ => accepts.of_supplies (aclInitLimits_supplies system) ?_
  rintro column hReserved rfl
  exact absurd hReserved (by decide)

theorem configureDaemons_accepted (accepts : Accepts config txn allowed) (system : RowId) :
    (configureDaemons config txn system).Issues allowed := by
  rw [configureDaemons_eq]
  have hFinish := finishConfiguration_accepted accepts system
  have hAdd : ∀ daemon, (sysdInitialDaemonAdd txn daemon).Issues allowed := fun daemon =>
    accepts.of_supplies (sysdInitialDaemonAdd_supplies daemon) (reserved_not id id id id id id)
  refine ⟨accepts.calloc, fun allocated => (issues_ite _ _).mpr ⟨fun _ => ?_, fun _ => trivial⟩⟩
  refine (issues_ite _ _).mpr ⟨fun _ => ?_, fun _ => hFinish⟩
  refine (Issues.mapM fun daemon _ => hAdd daemon).bind_yields (yields_mapM _ _) fun daemons hCount => ?_
  exact ⟨accepts.write (by decide) (Slice.initialised_of_eq hCount), fun _ => hFinish⟩

/-- After its System row is inserted, the initial configuration makes accepted
calls only. -/
theorem configureSystem_accepted (accepts : Accepts config txn allowed) (system : RowId) :
    (configureSystem config txn system).Issues allowed := by
  rw [configureSystem, issues_orFault_bind]
  refine ⟨fun _ => accepts.supplies _ trivial, fun mgmtIntf _ => ?_⟩
  refine ⟨accepts.write (by decide) trivial, fun _ => ?_⟩
  refine (sysdConfigureDefaultBridge_accepted accepts system).bind fun _ => ?_
  refine (sysdConfigureDefaultVrf_accepted accepts system).bind fun _ => ?_
  rw [issues_orFault_bind]
  refine ⟨fun _ => accepts.supplies _ trivial, fun base hBase => ?_⟩
  refine ⟨accepts.managementMac system base hBase, fun _ => ⟨accepts.systemMac system base hBase, ?_⟩⟩
  refine fun _ => ⟨accepts.calloc, fun allocated => ?_⟩
  cases allocated with
  | false => trivial
  | true =>
      have hAdd : (config.subsystems.mapM (sysdInitialSubsystemAdd config txn)).Issues allowed :=
        Issues.mapM fun subsys h => sysdInitialSubsystemAdd_accepted accepts h
      refine hAdd.bind_yields (yields_mapM _ _) fun subsystems hCount => ?_
      refine ⟨accepts.write (by decide) (Slice.initialised_of_eq hCount), fun _ => ?_⟩
      exact configureDaemons_accepted accepts system

/-- It fills its transaction, with every list initialised but the table id. -/
theorem fillingLists_accepts : Accepts config txn (FillingLists txn) where
  supplies request h := by
    cases request with
    | write row column arg => exact ⟨fun hHw => h.1 (.inl hHw), fun _ => h.2⟩
    | rows _ | read _ _ | fault _ => trivial
    | insert _ _ => exact ⟨h.1, h.2.1.1⟩
    | _ => exact h.elim
  tableId _ := ⟨by decide, fun h => absurd rfl h⟩
  calloc := trivial
  openOsRelease := trivial
  managementMac _ _ _ := ⟨by decide, fun _ => trivial⟩
  systemMac _ _ _ := ⟨by decide, fun _ => trivial⟩
  nextMacAddress _ _ _ := ⟨by decide, fun _ => trivial⟩
  macsRemaining _ _ _ := ⟨by decide, fun _ => trivial⟩

theorem sysdUpdateSwInfo_lists (system : RowId) :
    (sysdUpdateSwInfo config system).Issues (FillingLists txn) :=
  sysdUpdateSwInfo_accepted fillingLists_accepts system

/-- All of the initial configuration fills with initialised lists, but for the table id.
-/
theorem configureSystem_lists (system : RowId) :
    (configureSystem config txn system).Issues (FillingLists txn) :=
  configureSystem_accepted fillingLists_accepts system

end Accepted
end OpsSysd.Daemon
