import OpsSysd.Daemon.Description
import OpsSysd.Fru.Subsystem
import OpsSysd.Platform.HardwareLink

/-! The start of `main`, up to its loop: the manifest, the hardware description,
the FRU record and the interfaces, in this order, and the system status LED when
all of them are there. -/
namespace OpsSysd.Daemon

open CLib Interaction Interaction.Program Fru Platform

/-- The settings of `YamlSystemLedInfo` for the status LED. -/
structure StatusLed where
  on : Nat
  flashing : Nat

/-- What the YAML library answers for the base subsystem. -/
structure Hardware where
  addSubsystem : CString → Int
  parseDevices : Int
  parsePorts : Int
  parseFru : Int
  /-- `FRU_YAML_NOT_FOUND`. -/
  fruYamlNotFound : Int
  initDevices : Int
  findFruDevice : Bool
  portInfo : Option PortInfo
  portCount : Int
  port : Nat → Option Port
  fruInfo : Option YamlFruInfo
  /-- `i2c_data_read` of so many bytes. -/
  fruRead : Nat → Option (List UInt8)
  statusLed : Option StatusLed
  qosInfo : Option QosInfo
  cosMap : YamlList MapEntry
  dscpMap : YamlList MapEntry
  queueProfile : YamlList QueueProfileEntry
  scheduleProfile : YamlList ScheduleProfileEntry
  aclInfo : Option AclInfo

/-- `sysd_cfg_yaml_open`. -/
def sysdCfgYamlOpen (hardware : Hardware) (hwDescDir : CString) : Bool :=
  hardware.addSubsystem hwDescDir = 0

/-- `sysd_cfg_yaml_init`, with the value of `fru_yaml` where it succeeds. That the
QoS or the ACL description cannot be parsed is only logged. -/
def sysdCfgYamlInit (hardware : Hardware) (hwDescDir : CString) : Option Bool :=
  if !sysdCfgYamlOpen hardware hwDescDir then none
  else if 0 > hardware.parseDevices then none
  else if 0 > hardware.parsePorts then none
  else if hardware.fruYamlNotFound ≠ hardware.parseFru ∧ 0 > hardware.parseFru then none
  else if 0 > hardware.initDevices then none
  else if !hardware.findFruDevice then none
  else some (hardware.fruYamlNotFound ≠ hardware.parseFru)

/-- `sysd_get_interface_info`, with the outcome of its allocation. -/
def sysdGetInterfaceInfo (hardware : Hardware) (calloc : Bool) : Option (PortInfo × List Port) := do
  let intfCmnInfo ← hardware.portInfo
  if hardware.portCount ≤ 0 then none
  else if !calloc then none
  else
    let interfaces ← (List.range hardware.portCount.toNat).mapM hardware.port
    return (intfCmnInfo, interfaces)

/-- `sysd_cfg_yaml_set_system_status_led`. -/
def sysdCfgYamlSetSystemStatusLed (hardware : Hardware) (good : Bool) : Program Platform.Calls Unit :=
  match hardware.statusLed with
  | none => return ()
  | some settings => i2cRegWrite (if good then settings.on else settings.flashing)

/-- `fru_eeprom_t` as its users read it. -/
def FruEeprom.ofMemory (fru : Memory) : FruEeprom :=
  let text (target : Field) : Option CString := match target.read fru with
    | some (.text text) => some text
    | _ => none
  let bytes (target : Field) : List UInt8 := match target.read fru with
    | some (.bytes bytes) => bytes
    | _ => []
  { countryCode := (text .countryCode).getD (.lit "")
    deviceVersion := (bytes .deviceVersion).getD 0 0
    diagVersion := text .diagVersion
    labelRevision := text .labelRevision
    baseMacAddress := bytes .baseMacAddress
    numMacs := UInt16.ofNat (Fru.numMacs fru)
    manufacturer := text .manufacturer
    manufactureDate := (text .manufactureDate).getD (.lit "")
    onieVersion := text .onieVersion
    partNumber := text .partNumber
    productName := text .productName
    platformName := text .platformName
    serialNumber := text .serialNumber
    vendor := text .vendor }

/-- The base subsystem with its interfaces. -/
def Subsystem.ofBase (base : BaseSubsystem) (intfCmnInfo : PortInfo) (interfaces : List Port) :
    Subsystem where
  name := base.name
  interfaces := interfaces
  intfCmnInfo := intfCmnInfo
  fruEeprom := .ofMemory base.fruEeprom
  nxtMacAddr := base.nxtMacAddr
  numFreeMacs := base.numFreeMacs
  mgmtMacAddr := base.mgmtMacAddr
  systemMacAddr := base.systemMacAddr

/-- What a process finds when it starts. -/
structure Surroundings where
  unixctlServerCreate : Int
  manifestInfo : Option Manifest.Json
  callocDaemon : Nat → Bool
  source : Source
  hardware : Hardware
  callocSubsystems : Bool
  callocSubsystem : Bool
  callocBuffer : Bool
  callocInterfaces : Bool
  rand : Nat → Nat
  crc32 : List UInt8 → UInt32
  /-- `ops_char_array_to_ulong_long`. -/
  charArrayToUlongLong : List UInt8 → UInt64
  etherToString : UInt64 → CString
  header : HeaderString → CString

namespace Surroundings

def fruSource (surroundings : Surroundings) (fruYaml : Bool) : FruSource where
  fruYaml := fruYaml
  fruInfo := surroundings.hardware.fruInfo
  rand := surroundings.rand
  fruRead := surroundings.hardware.fruRead
  calloc := surroundings.callocBuffer

def config (surroundings : Surroundings) (manifest : Manifest.State) (hwDescDir : CString)
    (subsystem : Subsystem) : Config where
  header := surroundings.header
  etherToString := surroundings.etherToString
  daemons := manifest.daemons
  mgmtIntf := manifest.mgmtIntf
  hwDescDir := hwDescDir
  subsystems := [subsystem]
  qosInfo := surroundings.hardware.qosInfo
  cosMap := surroundings.hardware.cosMap
  dscpMap := surroundings.hardware.dscpMap
  queueProfile := surroundings.hardware.queueProfile
  scheduleProfile := surroundings.hardware.scheduleProfile
  aclInfo := surroundings.hardware.aclInfo

end Surroundings

/-- How the start ends: with a call of `exit`, with a failed assertion, with a
crash while the FRU image is processed, or in the main loop. -/
inductive Startup where
  | exits (status : Int)
  | aborts
  | crashes
  | runs (config : Config)

/-- `EXIT_FAILURE`. -/
def exitFailure : Int := 1

/-- The part of `main` that depends on the hardware description. -/
def startHardware (surroundings : Surroundings) (manifest : Manifest.State) (hwDescDir : CString) :
    Program Platform.Calls Startup :=
  match sysdCfgYamlInit surroundings.hardware hwDescDir with
  | none => return .exits (-1)
  | some fruYaml =>
      match sysdGetSubsystemInfo surroundings.crc32 surroundings.charArrayToUlongLong
          surroundings.callocSubsystems surroundings.callocSubsystem
          (surroundings.fruSource fruYaml) with
      | (none, _) => return .crashes
      | (some 0, some base) =>
          match sysdGetInterfaceInfo surroundings.hardware surroundings.callocInterfaces with
          | none => return .exits (-1)
          | some (intfCmnInfo, interfaces) => do
              sysdCfgYamlSetSystemStatusLed surroundings.hardware true
              return .runs (surroundings.config manifest hwDescDir
                (.ofBase base intfCmnInfo interfaces))
      | _ => return .exits (-1)

/-- The start of `main`. -/
def startUp (surroundings : Surroundings) : Program Platform.Calls Startup :=
  if surroundings.unixctlServerCreate ≠ 0 then return .exits exitFailure
  else
    match Manifest.sysdReadManifestFile surroundings.callocDaemon surroundings.manifestInfo with
    | .error (.returned _) => return .exits (-1)
    | .error (.notAnObject _) => return .aborts
    | .ok manifest => do
        let linked ← sysdCreateLinkToHwdescFiles surroundings.source
        if linked.1 ≠ 0 then return .exits (-1)
        else startHardware surroundings manifest linked.2

section Stages

variable {hardware : Hardware} {hwDescDir : CString} {fruYaml : Bool}

/-- Everything has been parsed that has to be. -/
structure Parsed (hardware : Hardware) (hwDescDir : CString) : Prop where
  subsystem : hardware.addSubsystem hwDescDir = 0
  devices : 0 ≤ hardware.parseDevices
  ports : 0 ≤ hardware.parsePorts
  fru : hardware.parseFru = hardware.fruYamlNotFound ∨ 0 ≤ hardware.parseFru
  initialised : 0 ≤ hardware.initDevices
  fruDevice : hardware.findFruDevice = true

theorem sysdCfgYamlInit_eq_some : sysdCfgYamlInit hardware hwDescDir = some fruYaml ↔
    Parsed hardware hwDescDir ∧ fruYaml = decide (hardware.fruYamlNotFound ≠ hardware.parseFru) := by
  constructor
  · intro hInit
    simp only [sysdCfgYamlInit, sysdCfgYamlOpen, Option.ite_none_left_eq_some, Option.some.injEq,
      Bool.not_eq_true', decide_eq_false_iff_not, not_not, gt_iff_lt, Int.not_lt, not_and,
      Bool.not_eq_false] at hInit
    obtain ⟨hSubsystem, hDevices, hPorts, hFru, hInitialised, hDevice, hFlag⟩ := hInit
    refine ⟨⟨hSubsystem, hDevices, hPorts, ?_, hInitialised, hDevice⟩, hFlag.symm⟩
    by_cases hMissing : hardware.parseFru = hardware.fruYamlNotFound
    · exact .inl hMissing
    · exact .inr (hFru (Ne.symm hMissing))
  · rintro ⟨parsed, rfl⟩
    simp only [sysdCfgYamlInit, sysdCfgYamlOpen, Option.ite_none_left_eq_some, Bool.not_eq_true',
      decide_eq_false_iff_not, not_not, gt_iff_lt, Int.not_lt, not_and, Bool.not_eq_false, and_true]
    refine ⟨parsed.subsystem, parsed.devices, parsed.ports, fun hPresent => ?_, parsed.initialised,
      parsed.fruDevice⟩
    exact parsed.fru.resolve_left (Ne.symm hPresent)

/-- There is at least one port, and each one is the library's. -/
structure PortsRead (hardware : Hardware) (intfCmnInfo : PortInfo) (interfaces : List Port) : Prop where
  info : hardware.portInfo = some intfCmnInfo
  some : 0 < hardware.portCount
  ports : List.Forall₂ (fun index intf => hardware.port index = Option.some intf)
    (List.range hardware.portCount.toNat) interfaces

theorem forall₂_of_mapM {Item Value : Type} {read : Item → Option Value} {items : List Item}
    {values : List Value} (h : items.mapM read = some values) :
    List.Forall₂ (fun item value => read item = some value) items values := by
  induction items generalizing values with
  | nil =>
      obtain rfl := Option.some.inj h
      exact .nil
  | cons item items ih =>
      simp only [List.mapM_cons, Option.bind_eq_bind, Option.bind_eq_some_iff, Option.pure_def,
        Option.some.injEq] at h
      obtain ⟨value, hValue, rest, hRest, rfl⟩ := h
      exact .cons hValue (ih hRest)

/-- Items related to the same values, in their order. -/
theorem forall₂_through {First Value Second : Type} {holds : First → Value → Prop}
    {reads : Second → Value → Prop} {firsts : List First} {values : List Value} {seconds : List Second}
    (hHolds : List.Forall₂ holds firsts values) (hReads : List.Forall₂ reads seconds values) :
    List.Forall₂ (fun first second => ∃ value, reads second value ∧ holds first value) firsts
      seconds := by
  induction hHolds generalizing seconds with
  | nil =>
      cases hReads
      exact .nil
  | cons hFirst _ ih =>
      cases hReads with
      | cons hSecond hRest => exact .cons ⟨_, hSecond, hFirst⟩ (ih hRest)

theorem sysdGetInterfaceInfo_ports {calloc : Bool} {intfCmnInfo : PortInfo} {interfaces : List Port}
    (h : sysdGetInterfaceInfo hardware calloc = some (intfCmnInfo, interfaces)) :
    PortsRead hardware intfCmnInfo interfaces := by
  simp only [sysdGetInterfaceInfo, Option.bind_eq_bind, Option.bind_eq_some_iff,
    Option.ite_none_left_eq_some, Option.pure_def, Option.some.injEq, Prod.mk.injEq] at h
  obtain ⟨info, hInfo, hSome, -, ports, hPorts, rfl, rfl⟩ := h
  exact ⟨hInfo, Int.not_le.mp hSome, forall₂_of_mapM hPorts⟩

end Stages

section Start

variable {directory : CString → Prop} {surroundings : Surroundings} {state : Host}

/-- What the main loop is entered with. -/
structure StartedWith (directory : CString → Prop) (surroundings : Surroundings) (config : Config)
    (host : Host) : Prop where
  linked : host.link = some config.hwDescDir
  directory : directory config.hwDescDir
  lit : ∀ settings, surroundings.hardware.statusLed = some settings → host.led = some settings.on
  strings : config.etherToString = surroundings.etherToString
  manifest : ∃ manifest, Manifest.sysdReadManifestFile surroundings.callocDaemon
    surroundings.manifestInfo = .ok manifest ∧ config.daemons = manifest.daemons ∧
      config.mgmtIntf = manifest.mgmtIntf
  subsystem : ∃ base intfCmnInfo interfaces, Parsed surroundings.hardware config.hwDescDir ∧
    sysdGetSubsystemInfo surroundings.crc32 surroundings.charArrayToUlongLong
      surroundings.callocSubsystems surroundings.callocSubsystem (surroundings.fruSource
        (surroundings.hardware.fruYamlNotFound ≠ surroundings.hardware.parseFru)) = (some 0, some base) ∧
    PortsRead surroundings.hardware intfCmnInfo interfaces ∧
    config.subsystems = [.ofBase base intfCmnInfo interfaces]

/-- How a start may end: in the main loop with everything there, or without
touching the status LED. -/
def EndsRight (directory : CString → Prop) (surroundings : Surroundings) (before : Host)
    (outcome : Startup) (after : Host) : Prop :=
  match outcome with
  | .runs config => StartedWith directory surroundings config after
  | _ => after.led = before.led

theorem safe_startHardware {manifest : Manifest.State} {hwDescDir : CString}
    (hManifest : Manifest.sysdReadManifestFile surroundings.callocDaemon surroundings.manifestInfo =
      .ok manifest) (hLinked : state.link = some hwDescDir) (hDirectory : directory hwDescDir) :
    Safe (Platform.step directory) (fun _ _ => True) (startHardware surroundings manifest hwDescDir)
      (EndsRight directory surroundings state) state := by
  rw [startHardware]
  cases hYaml : sysdCfgYamlInit surroundings.hardware hwDescDir with
  | none => exact rfl
  | some fruYaml =>
      obtain ⟨parsed, rfl⟩ := sysdCfgYamlInit_eq_some.mp hYaml
      dsimp only
      split
      · exact rfl
      · rename_i base hBase
        cases hInterfaces : sysdGetInterfaceInfo surroundings.hardware
            surroundings.callocInterfaces with
        | none => exact rfl
        | some found =>
            obtain ⟨intfCmnInfo, interfaces⟩ := found
            have hStarted : ∀ after : Host, after.link = some hwDescDir →
                (∀ settings, surroundings.hardware.statusLed = some settings →
                  after.led = some settings.on) →
                StartedWith directory surroundings (surroundings.config manifest hwDescDir
                  (.ofBase base intfCmnInfo interfaces)) after := fun after hAfter hLit =>
              ⟨hAfter, hDirectory, hLit, rfl, ⟨manifest, hManifest, rfl, rfl⟩, base, intfCmnInfo,
                interfaces, parsed, hBase, sysdGetInterfaceInfo_ports hInterfaces, rfl⟩
            cases hLed : surroundings.hardware.statusLed with
            | none =>
                simp only [sysdCfgYamlSetSystemStatusLed, hLed]
                refine hStarted state hLinked fun settings hSettings => ?_
                rw [hLed] at hSettings
                cases hSettings
            | some settings =>
                simp only [sysdCfgYamlSetSystemStatusLed, hLed]
                refine ⟨trivial, ?_⟩
                rintro _ after rfl
                refine hStarted _ hLinked fun other hOther => ?_
                rw [Option.some.inj (hOther.symm.trans hLed)]
                rfl
      · exact rfl

theorem safe_startUp : Safe (Platform.step directory) (fun _ _ => True) (startUp surroundings)
    (EndsRight directory surroundings state) state := by
  rw [startUp]
  split
  · exact rfl
  cases hManifest : Manifest.sysdReadManifestFile surroundings.callocDaemon
      surroundings.manifestInfo with
  | error failure =>
      cases failure with
      | returned _ | notAnObject _ => exact rfl
  | ok manifest =>
      have hLink : LinkAmong state.link (sourceDir surroundings.source) state.link := .inl rfl
      refine ((safe_sysdCreateLinkToHwdescFiles surroundings.source hLink).permit
        fun _ _ _ => trivial).bind ?_
      rintro ⟨rc, dir⟩ after ⟨-, hLinked⟩
      dsimp only
      split
      · exact hLinked.led
      · rename_i hMade
        obtain ⟨-, hTarget, hDirectory⟩ := hLinked.made (not_not.mp hMade)
        refine (safe_startHardware hManifest hTarget hDirectory).mono fun outcome last hEnd => ?_
        cases outcome with
        | runs config => exact hEnd
        | exits _ | aborts | crashes => exact hEnd.trans hLinked.led

end Start
end OpsSysd.Daemon
