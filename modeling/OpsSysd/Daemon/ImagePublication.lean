import OpsSysd.Daemon.Startup
import OpsSysd.Daemon.SufficientDescription
import OpsSysd.Fru.MacPool
import OpsSysd.Fru.Sources
import OpsSysd.Manifest.Discrepancy

/-! From the FRU EEPROM to the database: what the daemon commits when it has
started on an image of a record, and configures. -/
namespace OpsSysd.Daemon

open CLib Interaction Interaction.Program Idl Fru Platform

section Commits

variable {World : Type} {env : Environment World} {config : Config} {state : State World}

/-- In every run, a configuration that is committed is as described, unless an
allocation has failed since its transaction was created. -/
theorem committed_described {start : World} {txn : TxnId} {current : Txn}
    (hReaches : LoopReaches (allocating env) (mainRound config)
      (fun before after => restart before.1 after.1) (fun top => top.1 = State.boot start)
      (.commitBlock txn) (state, false))
    (hOpen : state.txn = some current) (hConfiguration : Configuration current.ops) :
    ∃ system, state.view.ids .system = [system] ∧ DescribedSystem config system state.view := by
  obtain ⟨system, hIds, hOutcome⟩ := committed_configured hReaches hOpen hConfiguration
  rcases hOutcome with ⟨-, hWhole⟩ | ⟨hFailed, -⟩
  · exact ⟨system, hIds, hWhole.toDescribedSystem⟩
  · exact absurd hFailed Bool.false_ne_true

end Commits

section Record

variable {items : FruItems} {fru : Memory}

/-- The record as the users of `fru_eeprom_t` read it. -/
def FruEeprom.ofItems (items : FruItems) : FruEeprom where
  countryCode := items.countryCode
  deviceVersion := items.deviceVersion
  diagVersion := some items.diagVersion
  labelRevision := some items.labelRevision
  baseMacAddress := items.baseMacAddress
  numMacs := items.numMacs
  manufacturer := some items.manufacturer
  manufactureDate := items.manufactureDate
  onieVersion := some items.onieVersion
  partNumber := some items.partNumber
  productName := some items.productName
  platformName := some items.platformName
  serialNumber := some items.serialNumber
  vendor := some items.vendor

/-- Memory that shows the items in every field. -/
def Holding (items : FruItems) (fru : Memory) : Prop :=
  ∀ target : Field, target.read fru = some (target.decode (items.value target))

theorem Holding.numMacs (h : Holding items fru) : numMacs fru = items.numMacs.toNat := by
  have hRead := (h .numMacs).trans (decode_numMacs items)
  obtain ⟨value, hValue, hNumber⟩ := Option.map_eq_some_iff.mp hRead
  rw [Fru.numMacs, hValue]
  exact Content.number.inj hNumber

theorem Holding.macBytes (h : Holding items fru) : macBytes fru = items.baseMacAddress := by
  obtain ⟨value, hValue, hBytes⟩ := Option.map_eq_some_iff.mp (h .baseMacAddress)
  rw [Fru.macBytes, hValue]
  exact Content.bytes.inj hBytes

theorem Holding.ofMemory (h : Holding items fru) : FruEeprom.ofMemory fru = .ofItems items := by
  simp only [FruEeprom.ofMemory, h.numMacs, h _, Field.decode, FruItems.value, CString.cut_bytes_self,
    FruEeprom.ofItems, UInt16.ofNat_toNat, Option.getD_some, List.getD_cons_zero]

end Record

section Image

variable {surroundings : Surroundings} {record : FruRecord} {config : Config} {host : Host}
  {system : RowId} {db : Database}

/-- The first address of the record. -/
def firstAddress (surroundings : Surroundings) (record : FruRecord) : UInt64 :=
  surroundings.charArrayToUlongLong record.baseMacAddress

def managementAddress (surroundings : Surroundings) (record : FruRecord) : UInt64 :=
  if 1 ≤ record.numMacs.toNat then firstAddress surroundings record else 0

def systemAddress (surroundings : Surroundings) (record : FruRecord) : UInt64 :=
  if 2 ≤ record.numMacs.toNat then firstAddress surroundings record + 1 else 0

/-- A Subsystem row says what the record and the hardware description say, and
where the link to its files leads. -/
structure PublishedSubsystem (surroundings : Surroundings) (record : FruRecord) (config : Config)
    (host : Host) (row : RowId) (db : Database) : Prop where
  name : db.get row .subsystemName = .lit "base"
  hwDescDir : host.link = some (db.get row .subsystemHwDescDir)
  otherInfo : ∃ info, surroundings.hardware.portInfo = some info ∧
    db.get row .subsystemOtherInfo = subsystemInfo (.ofItems record.toFruItems) info
  interfaces : ∃ subsys : Subsystem, config.subsystems = [subsys] ∧
    subsys.systemMacAddr = systemAddress surroundings record ∧
    List.Forall₂ (fun iface index => ∃ intf, surroundings.hardware.port index = some intf ∧
        DescribedInterface config subsys intf iface db)
      (db.get row .subsystemInterfaces) (List.range surroundings.hardware.portCount.toNat)
  nextMacAddress : db.get row .subsystemNextMacAddress = surroundings.etherToString
    (firstAddress surroundings record + UInt64.ofNat (min record.numMacs.toNat 2))
  macsRemaining : db.get row .subsystemMacsRemaining = ((record.numMacs.toNat - 2 : Nat) : Int)

/-- The database is configured from the record. -/
structure PublishedImage (surroundings : Surroundings) (record : FruRecord) (config : Config)
    (host : Host) (system : RowId) (db : Database) : Prop where
  managementMac : db.get system .systemManagementMac =
    surroundings.etherToString (managementAddress surroundings record)
  systemMac : db.get system .systemSystemMac =
    surroundings.etherToString (systemAddress surroundings record)
  subsystem : ∃ row, db.get system .systemSubsystems = [row] ∧
    PublishedSubsystem surroundings record config host row db

/-- The base subsystem is the record's. -/
structure OfRecord (surroundings : Surroundings) (record : FruRecord) (base : BaseSubsystem) : Prop where
  name : base.name = .lit "base"
  holding : Holding record.toFruItems base.fruEeprom
  allotted : Allotted (firstAddress surroundings record) record.numMacs.toNat base

/-- An image of the record is read as the record. -/
theorem ofRecord_of_image {header : List UInt8} {tlvs : List Tlv} {base : BaseSubsystem}
    (encodes : Encodes header tlvs record)
    (delivers : Fru.Delivers (surroundings.fruSource false) (image surroundings.crc32 header tlvs))
    (hInfo : sysdGetSubsystemInfo surroundings.crc32 surroundings.charArrayToUlongLong
      surroundings.callocSubsystems surroundings.callocSubsystem (surroundings.fruSource false) =
        (some 0, some base)) : OfRecord surroundings record base := by
  have hRead := read_fromImage encodes delivers BaseSubsystem.callocd.fruEeprom
  rw [read_of_sysdGetSubsystemInfo hInfo] at hRead
  have hHolding : Holding record.toFruItems base.fruEeprom := hRead.2
  have hBase := base_of_sysdGetSubsystemInfo hInfo
  refine ⟨?_, hHolding, ?_⟩
  · rw [hBase, deriveMacs_name]
  · rw [hBase]
    exact deriveMacs_allotted hHolding.numMacs (congrArg _ hHolding.macBytes) rfl rfl

/-- A database that is as described is configured from the record. -/
theorem DescribedSystem.publishedImage {directory : CString → Prop} {base : BaseSubsystem}
    {intfCmnInfo : PortInfo} {interfaces : List Port}
    (described : DescribedSystem config system db)
    (started : StartedWith directory surroundings config host)
    (hSubsystems : config.subsystems = [.ofBase base intfCmnInfo interfaces])
    (ports : PortsRead surroundings.hardware intfCmnInfo interfaces)
    (ofRecord : OfRecord surroundings record base) :
    PublishedImage surroundings record config host system db := by
  have hHead : config.subsystems.head? = some (.ofBase base intfCmnInfo interfaces) := by
    rw [hSubsystems]
    rfl
  have hRows := described.subsystems
  rw [hSubsystems] at hRows
  obtain ⟨row, rest, hRow, hRest, hRows⟩ := List.forall₂_cons_right_iff.mp hRows
  obtain rfl := List.forall₂_nil_right_iff.mp hRest
  refine ⟨?_, ?_, row, hRows, ?_⟩
  · rw [described.managementMac _ hHead, started.strings]
    exact congrArg _ ofRecord.allotted.mgmtMacAddr
  · rw [described.systemMac _ hHead, started.strings]
    exact congrArg _ ofRecord.allotted.systemMacAddr
  refine ⟨?_, ?_, ⟨intfCmnInfo, ports.info, ?_⟩, ⟨_, hSubsystems, ofRecord.allotted.systemMacAddr, ?_⟩,
    ?_, ?_⟩
  · exact hRow.name.trans ofRecord.name
  · rw [started.linked, hRow.hwDescDir]
  · rw [hRow.otherInfo]
    exact congrArg (subsystemInfo · intfCmnInfo) ofRecord.holding.ofMemory
  · exact forall₂_through hRow.interfaces ports.ports
  · rw [hRow.nextMacAddress, started.strings]
    exact congrArg _ ofRecord.allotted.nxtMacAddr
  · exact hRow.macsRemaining.trans ofRecord.allotted.numFreeMacs

/-- A daemon that has started on an image of a FRU record, and commits a
configuration with no allocation failed, publishes the record, the ports of the
hardware description and the directory that the link leads to. -/
theorem image_published {World : Type} {env : Environment World} {state : State World}
    {directory : CString → Prop} {before : Host} {header : List UInt8} {tlvs : List Tlv}
    {start : World} {txn : TxnId} {current : Txn}
    (hStart : Exec (Platform.step directory) (startUp surroundings) before (.runs config) host)
    (hEeprom : surroundings.hardware.parseFru = surroundings.hardware.fruYamlNotFound)
    (encodes : Encodes header tlvs record)
    (delivers : Fru.Delivers (surroundings.fruSource false) (image surroundings.crc32 header tlvs))
    (hReaches : LoopReaches (allocating env) (mainRound config)
      (fun before after => restart before.1 after.1) (fun top => top.1 = State.boot start)
      (.commitBlock txn) (state, false))
    (hOpen : state.txn = some current) (hConfiguration : Configuration current.ops) :
    ∃ system, state.view.ids .system = [system] ∧
      PublishedImage surroundings record config host system state.view := by
  have hSafe : Safe (Platform.step directory) (fun _ _ => True) (startUp surroundings)
      (EndsRight directory surroundings before) before := safe_startUp
  have started : StartedWith directory surroundings config host := (safe_iff.mp hSafe).2 _ _ hStart
  obtain ⟨base, intfCmnInfo, interfaces, -, hInfo, ports, hSubsystems⟩ := started.subsystem
  have hFlag : decide (surroundings.hardware.fruYamlNotFound ≠ surroundings.hardware.parseFru) = false :=
    decide_eq_false (not_not.mpr hEeprom.symm)
  rw [hFlag] at hInfo
  obtain ⟨system, hIds, described⟩ := committed_described hReaches hOpen hConfiguration
  have ofRecord := ofRecord_of_image encodes delivers hInfo
  exact ⟨system, hIds, described.publishedImage started hSubsystems ports ofRecord⟩

end Image

section Sample

def onlyPort : Port := ⟨.lit "1", false, .lit "SFP", 1000, [1000], 0, 1, [], [], none⟩

/-- A simulated switch with one port, and an image of this record in its EEPROM. -/
def imaged (record : FruRecord) : Surroundings where
  unixctlServerCreate := 0
  manifestInfo := some Manifest.sysdManifest
  callocDaemon _ := true
  source := .simulation
  hardware := {
    addSubsystem := fun _ => 0
    parseDevices := 0
    parsePorts := 0
    parseFru := -1
    fruYamlNotFound := -1
    initDevices := 0
    findFruDevice := true
    portInfo := some ⟨1, 1000, 9192, 256, 8, 0⟩
    portCount := 1
    port := fun _ => some onlyPort
    fruInfo := none
    fruRead := (testEeprom record).fruRead
    statusLed := none
    qosInfo := none
    cosMap := ⟨0, fun _ => none⟩
    dscpMap := ⟨0, fun _ => none⟩
    queueProfile := ⟨0, fun _ => none⟩
    scheduleProfile := ⟨0, fun _ => none⟩
    aclInfo := some ⟨512, 512, 512⟩ }
  callocSubsystems := true
  callocSubsystem := true
  callocBuffer := true
  callocInterfaces := true
  rand _ := 0
  crc32 := testCrc32
  charArrayToUlongLong bytes := UInt64.ofNat (bigEndian bytes)
  etherToString _ := .lit "00:00:00:00:00:01"
  header _ := .lit ""

theorem imaged_delivers (record : FruRecord) :
    Fru.Delivers ((imaged record).fruSource false) (image testCrc32 testHeader record.tlvs) :=
  ⟨rfl, rfl, [], fun count => by rw [List.append_nil]; rfl⟩

/-- What it is configured with, once this base subsystem has been read. -/
def imagedConfig (record : FruRecord) (manifest : Manifest.State) (base : BaseSubsystem) : Config :=
  (imaged record).config manifest simulationDir (.ofBase base ⟨1, 1000, 9192, 256, 8, 0⟩ [onlyPort])

theorem imaged_startHardware {record : FruRecord} {manifest : Manifest.State} {base : BaseSubsystem}
    (hBase : sysdGetSubsystemInfo testCrc32 (fun bytes => UInt64.ofNat (bigEndian bytes)) true true
      ((imaged record).fruSource false) = (some 0, some base)) :
    startHardware (imaged record) manifest simulationDir =
      .done (.runs (imagedConfig record manifest base)) := by
  have hYaml : sysdCfgYamlInit (imaged record).hardware simulationDir = some false := rfl
  have hInfo : sysdGetSubsystemInfo (imaged record).crc32 (imaged record).charArrayToUlongLong
      (imaged record).callocSubsystems (imaged record).callocSubsystem
      ((imaged record).fruSource false) = (some 0, some base) := hBase
  simp only [startHardware, hYaml, hInfo]
  rfl

theorem onlyPort_fits :
    (∀ intf ∈ [onlyPort], intf.speedsText.length < speedsBufferSize) ∧
      ∀ intf ∈ [onlyPort],
        intf.subports.dropLast.countP (resolvable [onlyPort]) < sysdMaxSplitPorts := by decide

/-- It starts, and what it then has suffices. -/
theorem imaged_starts (deviceVersion : UInt8) : ∃ config : Config,
    Exec (Platform.step (· = simulationDir)) (startUp (imaged (testRecord deviceVersion)))
      ⟨none, none⟩ (.runs config) ⟨some simulationDir, none⟩ ∧ Sufficient config := by
  have hRead := (read_fromImage (testHeader_encodes deviceVersion)
    (imaged_delivers (testRecord deviceVersion)) BaseSubsystem.callocd.fruEeprom).1
  obtain ⟨base, hBase⟩ := @exists_sysdGetSubsystemInfo testCrc32
    (fun bytes => UInt64.ofNat (bigEndian bytes)) _ hRead
  obtain ⟨manifest, hManifest, hMgmt⟩ : ∃ manifest, Manifest.sysdReadManifestFile
      (imaged (testRecord deviceVersion)).callocDaemon (imaged (testRecord deviceVersion)).manifestInfo =
        .ok manifest ∧ manifest.mgmtIntf ≠ none := ⟨_, rfl, Option.some_ne_none _⟩
  refine ⟨imagedConfig (testRecord deviceVersion) manifest base, ?_, ?_⟩
  · have hServer : ¬ (imaged (testRecord deviceVersion)).unixctlServerCreate ≠ 0 := not_not.mpr rfl
    have hMade : ¬ ((0, simulationDir) : Int × CString).1 ≠ 0 := not_not.mpr rfl
    rw [startUp, if_neg hServer]
    simp only [hManifest]
    refine (exec_simulation none).bind ?_
    rw [if_neg hMade, imaged_startHardware hBase]
    exact .done _ _
  · refine ⟨⟨Option.some_ne_none _, .inl rfl, .inl rfl, profilesSuffice_of_none rfl⟩, hMgmt, List.cons_ne_nil _ _, ?_⟩
    intro subsys hSubsys
    obtain rfl := List.mem_singleton.mp hSubsys
    exact ⟨onlyPort_fits.1, onlyPort_fits.2⟩

/-- A first pass comes to the commit with every allocation granted. -/
theorem exists_granted_commit {config : Config} (sufficient : Sufficient config) :
    ∃ (state : State Unit) (current : Txn),
      LoopReaches (allocating anyEnv) (mainRound config) (fun before after => restart before.1 after.1)
        (fun top => top.1 = State.boot ()) (.commitBlock 0) (state, false) ∧
      state.txn = some current ∧ Configuration current.ops := by
  have hOpened : creating.Opened 0 := ⟨_, rfl, rfl⟩
  have hRuns : Runs anyEnv.accepting Disciplined 0 (sysdInitialConfigure config 0) :=
    sysdInitialConfigure_runs admits_accepting sufficient
  obtain ⟨⟨⟩, state, hExec, -⟩ :=
    exists_exec_granting anyEnv_total.accepting (hRuns creating.view creating hOpened rfl)
  have hAny : Exec (allocating anyEnv) (sysdInitialConfigure config 0) (creating, false) ()
      (state, false) :=
    hExec.widen fun before request answer after hStep => ⟨step_accepting _ _ _ _ hStep.1, hStep.2⟩
  obtain ⟨current, hOpen, hConfiguration⟩ :=
    (safe_iff.mp (safe_configuring hOpened)).2 _ _ hAny.of_noted
  exact ⟨state, current, ⟨_, .start rfl, reaches_commit hAny⟩, hOpen, hConfiguration⟩

theorem image_published_imaged : ∃ (config : Config) (state : State Unit) (system : RowId),
    state.view.ids .system = [system] ∧ PublishedImage (imaged (testRecord 1)) (testRecord 1) config
      ⟨some simulationDir, none⟩ system state.view := by
  obtain ⟨config, hStart, sufficient⟩ := imaged_starts 1
  obtain ⟨state, current, hReaches, hOpen, hConfiguration⟩ := exists_granted_commit sufficient
  exact ⟨config, state, image_published hStart rfl (testHeader_encodes 1)
    (imaged_delivers (testRecord 1)) hReaches hOpen hConfiguration⟩

end Sample
end OpsSysd.Daemon
