import OpsSysd.Daemon.Description

/-! The Subsystem, Interface and Daemon rows of the initial configuration. -/
namespace OpsSysd.Daemon

open CLib Interaction Interaction.Program Idl

/-- `SYSD_MAX_SPLIT_PORTS`. -/
def sysdMaxSplitPorts : Nat := 4

def dfltAssetTag : CString := .lit "OpenSwitch asset tag"

/-- The size of `buf` in `sysd_initial_interface_add`. -/
def speedsBufferSize : Nat := 128

/-- What `snprintf` is given for the number at an index. -/
def speedText (i : Nat) (speed : Int) : CString :=
  if i = 0 then decimal speed else .lit "," ++ decimal speed

/-- The loop of `sysd_get_speeds_string`, with the string in the destination. -/
def appendSpeeds (len : Nat) : Nat → CString → List Int → CString
  | _, speedStr, [] => speedStr
  | i, speedStr, speed :: speeds =>
      appendSpeeds len (i + 1) (strncat speedStr (snprintf 10 (speedText i speed)) len) speeds

/-- `sysd_get_speeds_string`, on a zeroed destination. The string takes its bytes
and one more for the terminator, whether the destination has them or not. -/
def sysdGetSpeedsString (len : Nat) (speeds : List Int) : CString :=
  appendSpeeds len 0 (.lit "") speeds

/-- The speeds of a port in the buffer of `sysd_initial_interface_add`. -/
def Port.speedsText (intf : Port) : CString := sysdGetSpeedsString speedsBufferSize intf.speeds

/-- `sysd_initial_interface_add`. -/
def sysdInitialInterfaceAdd (config : Config) (txn : TxnId) (subsys : Subsystem) (intf : Port) :
    Program Calls RowId := do
  let row ← insertRow txn .interface
  write row .interfaceName intf.name
  write row .interfaceType (config.header .interfaceTypeSystem)
  write row .interfaceAdminState (config.header .interfaceAdminStateDown)
  let pluggable :=
    if intf.pluggable then config.header .hwIntfInfoPluggableTrue
    else config.header .hwIntfInfoPluggableFalse
  let speeds := intf.speedsText
  if speedsBufferSize ≤ speeds.length then fault .outOfBounds
  let smap : Smap :=
    [(config.header .hwIntfInfoPluggable, pluggable),
      (config.header .hwIntfInfoConnector, intf.connector),
      (config.header .hwIntfInfoMaxSpeed, decimal intf.maxSpeed),
      (config.header .hwIntfInfoSpeeds, speeds),
      (config.header .hwIntfInfoSwitchUnit, decimal intf.device),
      (config.header .hwIntfInfoSwitchIntfId, decimal intf.devicePort)]
  let smap := intf.capabilities.foldl (fun smap capability => smap.add capability (.lit "true")) smap
  let smap :=
    if subsys.systemMacAddr ≠ 0 then
      smap.add (config.header .hwIntfInfoMacAddr) (config.etherToString subsys.systemMacAddr)
    else smap
  write row .interfaceHwIntfInfo smap
  return row

/-- A port that takes part in a split. -/
def Port.splittable (intf : Port) : Bool := intf.subports ≠ [] || intf.parentPort.isSome

/-- A `struct shash` of rows, the latest addition first. -/
abbrev RowHash := List (CString × RowId)

def RowHash.find (hash : RowHash) (name : CString) : Option RowId := hash.lookup name

/-- The loop over `subports`: the rows found so far, and the index at which the
next is stored. -/
def findSubports (hash : RowHash) : List CString → List RowId → Nat → Program Calls (List RowId × Nat)
  | [], found, j => return (found, j)
  | name :: names, found, j => do
      if sysdMaxSplitPorts ≤ j then fault .outOfBounds
      match hash.find name with
      | some row => findSubports hash names (found ++ [row]) (j + 1)
      | none => findSubports hash names found j

/-- The children of a port: the rows of those of its subports that are found. -/
def setSplitChildren (hash : RowHash) (row : RowId) (intf : Port) : Program Calls Unit := do
  if intf.subports ≠ [] then
    let (subports, j) ← findSubports hash intf.subports [] 0
    write row .interfaceSplitChildren ⟨subports, j⟩

/-- The body of the second loop of `sysd_set_splittable_port_info`. -/
def setSplitInfo (hash : RowHash) (row : RowId) (intf : Port) : Program Calls Unit := do
  match intf.parentPort with
  | none => pure ()
  | some parentPort =>
      match hash.find parentPort with
      | some parent => write row .interfaceSplitParent (some parent)
      | none => pure ()
  setSplitChildren hash row intf

/-- The hash of the rows of splittable ports, by the name in the row. -/
def hashSplittable : List (RowId × Port) → RowHash → Program Calls RowHash
  | [], hash => return hash
  | (row, intf) :: rest, hash => do
      if intf.splittable then
        let name ← read row .interfaceName
        hashSplittable rest ((name, row) :: hash)
      else hashSplittable rest hash

/-- `sysd_set_splittable_port_info`. -/
def sysdSetSplittablePortInfo (rows : List RowId) (subsys : Subsystem) : Program Calls Unit := do
  let ports := rows.zip subsys.interfaces
  let hash ← hashSplittable ports []
  forM ports fun port => setSplitInfo hash port.1 port.2

/-- `sysd_initial_daemon_add`. -/
def sysdInitialDaemonAdd (txn : TxnId) (daemon : Manifest.DaemonInfo) : Program Calls RowId := do
  let row ← insertRow txn .daemon
  write row .daemonName daemon.name
  write row .daemonCurHw daemon.curHw
  write row .daemonIsHwHandler daemon.isHwHandler
  return row

/-- `%02x`. -/
def hexByte (byte : UInt8) : String :=
  let digits := "0123456789abcdef".toList
  String.ofList [digits.getD (byte.toNat / 16) '0', digits.getD (byte.toNat % 16) '0']

/-- `%02x:%02x:%02x:%02x:%02x:%02x`. -/
def macFormat (mac : List UInt8) : CString := .lit (":".intercalate (mac.map hexByte))

/-- The `other_info` of a subsystem. -/
def subsystemInfo (fru : FruEeprom) (info : PortInfo) : Smap :=
  let orEmpty (text : Option CString) : CString := text.getD (.lit "")
  [(.lit "country_code", fru.countryCode),
    (.lit "device_version", .cut [fru.deviceVersion]),
    (.lit "diag_version", orEmpty fru.diagVersion),
    (.lit "label_revision", orEmpty fru.labelRevision),
    (.lit "base_mac_address", macFormat fru.baseMacAddress),
    (.lit "number_of_macs", decimal fru.numMacs.toNat),
    (.lit "manufacturer", orEmpty fru.manufacturer),
    (.lit "manufacture_date", fru.manufactureDate),
    (.lit "onie_version", orEmpty fru.onieVersion),
    (.lit "part_number", orEmpty fru.partNumber),
    (.lit "Product Name", orEmpty fru.productName),
    (.lit "platform_name", orEmpty fru.platformName),
    (.lit "serial_number", orEmpty fru.serialNumber),
    (.lit "vendor", orEmpty fru.vendor),
    (.lit "interface_count", decimal info.numberPorts),
    (.lit "max_interface_speed", decimal info.maxPortSpeed),
    (.lit "max_transmission_unit", decimal info.maxTransmissionUnit),
    (.lit "max_bond_count", decimal info.maxLagCount),
    (.lit "max_bond_member_count", decimal info.maxLagMemberCount),
    (.lit "l3_port_requires_internal_vlan", decimal info.l3PortRequiresInternalVlan)]

/-- A loop that stores the row added for each item, and the index at which it
ends. -/
def addEach {Item : Type} (add : Item → Program Calls RowId) :
    List Item → List RowId → Nat → Program Calls (List RowId × Nat)
  | [], rows, i => return (rows, i)
  | item :: items, rows, i => do
      let row ← add item
      addEach add items (rows ++ [row]) (i + 1)

theorem addEach_eq {Item : Type} (add : Item → Program Calls RowId) (items : List Item)
    (rows : List RowId) (i : Nat) :
    addEach add items rows i =
      items.mapM add >>= fun added => .done (rows ++ added, i + items.length) := by
  induction items generalizing rows i with
  | nil => simp [addEach]
  | cons item items ih =>
      simp only [addEach, ih, List.mapM_cons, bind_assoc, pure_eq, done_bind, List.append_assoc,
        List.singleton_append, List.length_cons, Nat.add_assoc, Nat.add_comm 1]

/-- `sysd_initial_subsystem_add`. The count of its interfaces is what the loop
has left in `i`. -/
def sysdInitialSubsystemAdd (config : Config) (txn : TxnId) (subsys : Subsystem) :
    Program Calls RowId := do
  let row ← insertRow txn .subsystem
  write row .subsystemName subsys.name
  write row .subsystemAssetTagNumber dfltAssetTag
  write row .subsystemHwDescDir config.hwDescDir
  write row .subsystemOtherInfo (subsystemInfo subsys.fruEeprom subsys.intfCmnInfo)
  if ← calloc then
    let (interfaces, i) ← addEach (sysdInitialInterfaceAdd config txn subsys) subsys.interfaces [] 0
    sysdSetSplittablePortInfo interfaces subsys
    write row .subsystemNextMacAddress (config.etherToString subsys.nxtMacAddr)
    write row .subsystemMacsRemaining subsys.numFreeMacs
    write row .subsystemInterfaces ⟨interfaces, i⟩
    return row
  else return row

end OpsSysd.Daemon
