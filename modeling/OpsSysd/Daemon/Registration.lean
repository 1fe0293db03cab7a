import OpsSysd.Daemon.HardwareCheck
import OpsSysd.Idl.Ownership

/-! What the daemon registers with the IDL before it connects, and what it looks
at in rows that it has not inserted. -/
namespace OpsSysd.Daemon

open CLib Interaction Idl

/-- A column of a registered table; two of them are never used. -/
inductive ReplicaColumn where
  | used (column : Column)
  | systemMgmtIntfStatus
  | subsystemOtherConfig
  deriving DecidableEq

/-- A call on the IDL that is about to connect. -/
inductive Registration where
  | addTable (table : Table)
  | addColumn (column : ReplicaColumn)
  | omitAlert (column : ReplicaColumn)
  deriving DecidableEq

/-- `ovsdb_idl_add_column` and `ovsdb_idl_omit_alert`, one after the other. -/
def addQuietly (column : ReplicaColumn) : List Registration := [.addColumn column, .omitAlert column]

/-- The registrations of `sysd_ovsdb_conn_init`. -/
def sysdOvsdbConnInit : List Registration :=
  [.addTable .system] ++
    addQuietly (.used .systemSubsystems) ++
    addQuietly (.used .systemCurHw) ++
    addQuietly (.used .systemNextHw) ++
    addQuietly (.used .systemOtherInfo) ++
    addQuietly (.used .systemSoftwareInfo) ++
    addQuietly (.used .systemSwitchVersion) ++
    [.addColumn (.used .systemTimezone)] ++
  [.addTable .subsystem] ++
    addQuietly (.used .subsystemName) ++
    addQuietly (.used .subsystemAssetTagNumber) ++
    addQuietly (.used .subsystemHwDescDir) ++
    addQuietly .subsystemOtherConfig ++
    addQuietly (.used .subsystemInterfaces) ++
  [.addTable .interface] ++
    addQuietly (.used .interfaceName) ++
    addQuietly (.used .interfaceHwIntfInfo) ++
    addQuietly (.used .interfaceType) ++
    addQuietly (.used .interfaceUserConfig) ++
  [.addTable .daemon] ++
    [.addColumn (.used .daemonName)] ++
    [.addColumn (.used .daemonCurHw)] ++
    addQuietly (.used .daemonIsHwHandler) ++
  [.addColumn (.used .systemMgmtIntf), .addColumn .systemMgmtIntfStatus] ++
  [.addTable .packageInfo] ++
    addQuietly (.used .packageInfoName) ++
    addQuietly (.used .packageInfoSrcType) ++
    addQuietly (.used .packageInfoSrcUrl) ++
    addQuietly (.used .packageInfoVersion)

/-- The IDL copies rows of these tables only. -/
def RegisteredTable (table : Table) : Prop := .addTable table ∈ sysdOvsdbConnInit

/-- And of these rows these cells only. -/
def RegisteredColumn (column : Column) : Prop := .addColumn (.used column) ∈ sysdOvsdbConnInit

/-- A change of such a cell advances the sequence number. -/
def Alerting (column : Column) : Prop :=
  RegisteredColumn column ∧ .omitAlert (.used column) ∉ sysdOvsdbConnInit

instance (table : Table) : Decidable (RegisteredTable table) :=
  inferInstanceAs (Decidable (_ ∈ sysdOvsdbConnInit))

instance (column : Column) : Decidable (RegisteredColumn column) :=
  inferInstanceAs (Decidable (_ ∈ sysdOvsdbConnInit))

instance (column : Column) : Decidable (Alerting column) :=
  inferInstanceAs (Decidable (_ ∧ _))

/-- What the daemon looks at in rows that it has not inserted. -/
def WatchedColumn (column : Column) : Prop :=
  column = .systemTimezone ∨ column = .daemonName ∨ column = .daemonCurHw ∨
    column = .daemonIsHwHandler

instance (column : Column) : Decidable (WatchedColumn column) :=
  inferInstanceAs (Decidable (_ ∨ _))

/-- All of it is registered, and but for one column a change is not missed. -/
theorem watched_registered {column : Column} (h : WatchedColumn column) :
    RegisteredColumn column ∧ (column ≠ .daemonIsHwHandler → Alerting column) := by
  rcases h with rfl | rfl | rfl | rfl <;> decide

/-- The daemon's dealings with the database: copies of registered tables, the
watched columns, and the publication that the hardware is done. -/
def sysdCustody : Custody where
  shared := RegisteredTable
  watched := WatchedColumn
  published db ops := ops = hwDoneOps (db.ids .system)

end OpsSysd.Daemon
