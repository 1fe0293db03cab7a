import OpsSysd.Manifest.Reader
import OpsSysd.Idl.Session

/-! What the daemon has read before its main loop starts: the manifest, the
FRU record and the hardware description. Strings that come from headers outside
the repository are left open. -/
namespace OpsSysd.Daemon

open CLib

/-- The string macros of the IDL and of the VRF utilities. -/
inductive HeaderString where
  | interfaceTypeSystem | interfaceTypeInternal | interfaceAdminStateDown
  | hwIntfInfoPluggable | hwIntfInfoPluggableTrue | hwIntfInfoPluggableFalse
  | hwIntfInfoConnector | hwIntfInfoMaxSpeed | hwIntfInfoSpeeds | hwIntfInfoSwitchUnit
  | hwIntfInfoSwitchIntfId | hwIntfInfoMacAddr | hwIntfInfoBridge | hwIntfInfoBridgeTrue
  | userConfigAdmin | userConfigAdminUp
  | systemMgmtIntfMapName | systemSoftwareInfoOsName
  | defaultBridgeName | defaultVrfName | vrfStatusKey | vrfStatusValue
  | queueAlgorithmStrict

/-- `YamlPort`. -/
structure Port where
  name : CString
  pluggable : Bool
  connector : CString
  maxSpeed : Int
  speeds : List Int
  device : Int
  devicePort : Int
  capabilities : List CString
  subports : List CString
  parentPort : Option CString

/-- `YamlPortInfo`. -/
structure PortInfo where
  numberPorts : Int
  maxPortSpeed : Int
  maxTransmissionUnit : Int
  maxLagCount : Int
  maxLagMemberCount : Int
  l3PortRequiresInternalVlan : Int

/-- `fru_eeprom_t`, its arrays and blocks read as strings. -/
structure FruEeprom where
  countryCode : CString
  deviceVersion : UInt8
  diagVersion : Option CString
  labelRevision : Option CString
  baseMacAddress : List UInt8
  numMacs : UInt16
  manufacturer : Option CString
  manufactureDate : CString
  onieVersion : Option CString
  partNumber : Option CString
  productName : Option CString
  platformName : Option CString
  serialNumber : Option CString
  vendor : Option CString

/-- `sysd_subsystem_t`. -/
structure Subsystem where
  name : CString
  interfaces : List Port
  intfCmnInfo : PortInfo
  fruEeprom : FruEeprom
  nxtMacAddr : UInt64
  numFreeMacs : Int
  mgmtMacAddr : UInt64
  systemMacAddr : UInt64

/-- `YamlQosInfo`. Here and in the entries below, a string is a null pointer
where the parser has not come to it. -/
structure QosInfo where
  trust : Option CString
  defaultName : Option CString
  factoryDefaultName : Option CString

/-- `YamlCosMapEntry` and `YamlDscpMapEntry`. -/
structure MapEntry where
  codePoint : Int
  localPriority : Int
  color : Option CString
  description : Option CString

structure QueueProfileEntry where
  queue : Int
  localPriority : Int
  description : Option CString

structure ScheduleProfileEntry where
  queue : Int
  algorithm : Option CString
  weight : Int

structure AclInfo where
  maxAcls : Int
  maxAces : Int
  maxAcesPerAcl : Int

/-- A yaml list: what its count getter and its item getter return. -/
structure YamlList (Entry : Type) where
  count : Int
  get : Nat → Option Entry

/-- A count compared with an `unsigned int`. -/
def YamlList.unsignedCount {Entry : Type} (list : YamlList Entry) : Nat := (list.count % 2 ^ 32).toNat

/-- What is fixed when the main loop starts. -/
structure Config where
  header : HeaderString → CString
  /-- `ops_ether_ulong_long_to_string`. -/
  etherToString : UInt64 → CString
  daemons : List Manifest.DaemonInfo
  mgmtIntf : Option CString
  hwDescDir : CString
  subsystems : List Subsystem
  qosInfo : Option QosInfo
  cosMap : YamlList MapEntry
  dscpMap : YamlList MapEntry
  queueProfile : YamlList QueueProfileEntry
  scheduleProfile : YamlList ScheduleProfileEntry
  aclInfo : Option AclInfo

namespace Config

/-- The daemons of the manifest that handle hardware. -/
def hwDaemons (config : Config) : List Manifest.DaemonInfo :=
  config.daemons.filter Manifest.DaemonInfo.isHwHandler

/-- `num_hw_daemons`. -/
def numHwDaemons (config : Config) : Nat := config.hwDaemons.length

/-- `num_daemons`. -/
def numDaemons (config : Config) : Nat := config.daemons.length

/-- `num_subsystems`. -/
def numSubsystems (config : Config) : Nat := config.subsystems.length

/-- A switch with one port, and nothing configured but these daemons. -/
def onePort (daemons : List Manifest.DaemonInfo) : Config where
  header := fun _ => .lit ""
  etherToString := fun _ => .lit "00:00:00:00:00:01"
  daemons := daemons
  mgmtIntf := some (.lit "eth0")
  hwDescDir := .lit "/etc/openswitch/hwdesc"
  subsystems := [{
    name := .lit "base"
    interfaces := [⟨.lit "1", false, .lit "SFP", 1000, [1000], 0, 1, [], [], none⟩]
    intfCmnInfo := ⟨1, 1000, 9192, 256, 8, 0⟩
    fruEeprom := ⟨.lit "", 0, none, none, [0, 0, 0, 0, 0, 1], 16, none, .lit "", none, none, none,
      none, none, none⟩
    nxtMacAddr := 3
    numFreeMacs := 14
    mgmtMacAddr := 1
    systemMacAddr := 2 }]
  qosInfo := none
  cosMap := ⟨0, fun _ => none⟩
  dscpMap := ⟨0, fun _ => none⟩
  queueProfile := ⟨0, fun _ => none⟩
  scheduleProfile := ⟨0, fun _ => none⟩
  aclInfo := some ⟨512, 512, 512⟩

end Config

/-- `%d`. -/
def decimal (n : Int) : CString := .lit (toString n)

/-- `snprintf`, given the formatted text: one byte is for the terminator. -/
def snprintf (size : Nat) (text : CString) : CString := text.take (size - 1)

end OpsSysd.Daemon
