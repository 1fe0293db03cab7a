import OpsSysd.Daemon.SoftwareInfo
import OpsSysd.Daemon.Interfaces
import OpsSysd.Daemon.Qos
import OpsSysd.Daemon.PackageInfo

/-! One pass of the daemon, and the main loop around it. -/
namespace OpsSysd.Daemon

open CLib Interaction Idl

def dfltTimezone : CString := .lit "UTC"

/-- The size of `timezone_cmd`, and the path it starts with. -/
def timezoneCmdSize : Nat := 200
def timezoneBasePath : CString := .lit "/usr/share/zoneinfo/posix/"

/-- `sysd_handle_timezone_update`. Whether the links could be changed is only
logged. -/
def sysdHandleTimezoneUpdate : Program Calls Unit := do
  match ← first .system with
  | none => return ()
  | some cfg =>
      let timezone ← orFault (← read cfg .systemTimezone)
      let timezoneCmd := timezoneBasePath ++ timezone
      if timezoneCmdSize ≤ timezoneCmd.length then fault .outOfBounds
      else
        let _ ← unlink
        let _ ← symlink timezoneCmd

/-- `sysd_configure_default_bridge`. -/
def sysdConfigureDefaultBridge (config : Config) (txn : TxnId) (system : RowId) :
    Program Calls Unit := do
  let bridge ← insertRow txn .bridge
  write bridge .bridgeName (config.header .defaultBridgeName)
  write system .systemBridges ⟨[bridge], 1⟩
  let iface ← insertRow txn .interface
  write iface .interfaceName (config.header .defaultBridgeName)
  write iface .interfaceType (config.header .interfaceTypeInternal)
  write iface .interfaceHwIntfInfo
    [(config.header .hwIntfInfoBridge, config.header .hwIntfInfoBridgeTrue)]
  write iface .interfaceUserConfig
    [(config.header .userConfigAdmin, config.header .userConfigAdminUp)]
  let port ← insertRow txn .port
  write port .portName (config.header .defaultBridgeName)
  write port .portInterfaces ⟨[iface], 1⟩
  write bridge .bridgePorts ⟨[port], 1⟩

/-- `sysd_configure_default_vrf`. The count of `table_id` is a size in bytes. -/
def sysdConfigureDefaultVrf (config : Config) (txn : TxnId) (system : RowId) :
    Program Calls Unit := do
  let vrf ← insertRow txn .vrf
  write vrf .vrfName (config.header .defaultVrfName)
  write system .systemVrfs ⟨[vrf], 1⟩
  write vrf .vrfTableId ⟨[0], 8⟩
  let status ← read vrf .vrfStatus
  write vrf .vrfStatus (status.addOnce (config.header .vrfStatusKey) (config.header .vrfStatusValue))

/-- The end of `sysd_initial_configure`: the daemons and everything after them. -/
def configureDaemons (config : Config) (txn : TxnId) (system : RowId) : Program Calls Unit := do
  if ← calloc then
    if config.daemons ≠ [] then
      let daemons ← config.daemons.mapM (sysdInitialDaemonAdd txn)
      write system .systemDaemons ⟨daemons, config.numDaemons⟩
    sysdUpdateSwInfo config system
    write system .systemTimezone (some dfltTimezone)
    qosInitTrust config system
    qosInitDscpMap config txn system
    qosInitCosMap config txn system
    qosInitQueueProfile config txn system
    qosInitScheduleProfile config txn system
    aclInitLimits config system

/-- `sysd_initial_configure` after the insertion of the System row. -/
def configureSystem (config : Config) (txn : TxnId) (system : RowId) : Program Calls Unit := do
  let mgmtIntf ← orFault config.mgmtIntf
  write system .systemMgmtIntf [(config.header .systemMgmtIntfMapName, mgmtIntf)]
  sysdConfigureDefaultBridge config txn system
  sysdConfigureDefaultVrf config txn system
  let base ← orFault config.subsystems.head?
  write system .systemManagementMac (config.etherToString base.mgmtMacAddr)
  write system .systemSystemMac (config.etherToString base.systemMacAddr)
  if ← calloc then
    let subsystems ← config.subsystems.mapM (sysdInitialSubsystemAdd config txn)
    write system .systemSubsystems ⟨subsystems, config.numSubsystems⟩
    configureDaemons config txn system

/-- `sysd_initial_configure`. -/
def sysdInitialConfigure (config : Config) (txn : TxnId) : Program Calls Unit := do
  let system ← insertRow txn .system
  configureSystem config txn system

/-- `sysd_set_hw_done`. The outcome of the commit is only logged. -/
def sysdSetHwDone : Program Calls Unit := do
  let txn ← txnCreate
  let systems ← rows .system
  forM systems fun system => do
    write system .systemCurHw (1 : Int)
    write system .systemNextHw (1 : Int)
  let _ ← commitBlock txn
  txnDestroy txn
  storeHwInitDoneSet true

/-- What the inner loop of the check finds for one daemon of the manifest. -/
inductive Match where
  | missing
  | notSet
  | found
  deriving DecidableEq

/-- The inner loop of `sysd_chk_if_hw_daemons_done`: the first row of a hardware
daemon whose name begins with this one decides. -/
def matchDaemon (name : CString) : List RowId → Program Calls Match
  | [] => return .missing
  | row :: rest => do
      if ← read row .daemonIsHwHandler then
        let dbName ← read row .daemonName
        if strncmp name dbName name.length = 0 then
          let curHw ← read row .daemonCurHw
          return if curHw > 0 then .found else .notSet
        else matchDaemon name rest
      else matchDaemon name rest

/-- The outer loop, which counts the daemons found and stops at one that is not
set. -/
def countDone : List Manifest.DaemonInfo → Nat → Program Calls (Bool × Nat)
  | [], numFound => return (false, numFound)
  | daemon :: rest, numFound =>
      if daemon.isHwHandler then do
        match ← matchDaemon daemon.name (← rows .daemon) with
        | .missing => countDone rest numFound
        | .found => countDone rest (numFound + 1)
        | .notSet => return (true, numFound)
      else countDone rest numFound

/-- `sysd_chk_if_hw_daemons_done`. -/
def sysdChkIfHwDaemonsDone (config : Config) : Program Calls Unit := do
  if config.numHwDaemons = 0 then sysdSetHwDone
  else
    let (notSet, numFound) ← countDone config.daemons 0
    if notSet || numFound = 0 then return ()
    else sysdSetHwDone

/-- The branch of `sysd_run` for a database without a System row. -/
def configureFirst (config : Config) : Program Calls Unit := do
  let txn ← txnCreate
  sysdInitialConfigure config txn
  let _ ← commitBlock txn
  txnDestroy txn

/-- The branch of `sysd_run` for a database with a System row. -/
def checkHardware (config : Config) (cfg : RowId) : Program Calls Unit := do
  sysdUpdateSwInfo config cfg
  if ← loadHwInitDoneSet then return ()
  else sysdChkIfHwDaemonsDone config

/-- The packages are added once. -/
def populatePackages : Program Calls Unit := do
  match ← first .packageInfo with
  | none => sysdAddPackageInfo
  | some _ => return ()

theorem populatePackages_eq : populatePackages =
    .call (.rows .packageInfo) fun ids => ids.head?.elim sysdAddPackageInfo fun _ => .done () := by
  rw [populatePackages, first_bind]
  refine congrArg _ (funext fun ids => ?_)
  cases ids.head? <;> rfl

/-- What `sysd_run` does after a change. -/
def processChange (config : Config) : Program Calls Unit := do
  startPass
  let seqno ← getSeqno
  storeIdlSeqno seqno
  match ← first .system with
  | none => configureFirst config
  | some cfg => checkHardware config cfg
  populatePackages
  sysdHandleTimezoneUpdate

/-- `sysd_run`. -/
def sysdRun (config : Config) : Program Calls Unit := do
  idlRun
  if ← isLockContended then return ()
  else if !(← hasLock) then return ()
  else
    let newSeqno ← getSeqno
    let idlSeqno ← loadIdlSeqno
    if newSeqno ≠ idlSeqno then processChange config
    daemonizeComplete

/-- The end of a round of the main loop: block, unless the IDL has changed or
the daemon is to exit. -/
def sysdWait (exiting : Bool) : Program Calls Bool := do
  let idlSeqno ← loadIdlSeqno
  let seqno ← getSeqno
  if idlSeqno ≠ seqno then return exiting
  else if exiting then return true
  else
    pollBlock
    return false

/-- A round of the main loop; the result says whether it was the last. -/
def mainRound (config : Config) : Program Calls Bool := do
  sysdRun config
  let exiting ← unixctlServerRun
  sysdWait exiting

end OpsSysd.Daemon
