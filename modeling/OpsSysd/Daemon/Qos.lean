import OpsSysd.Daemon.Description

/-! The QoS and ACL rows of the initial configuration. -/
namespace OpsSysd.Daemon

open CLib Interaction Idl

def qosTrustKey : CString := .lit "qos_trust"
def qosDefaultCodePointKey : CString := .lit "default_code_point"
def qosDefaultLocalPriorityKey : CString := .lit "default_local_priority"
def qosDefaultColorKey : CString := .lit "default_color"
def qosDefaultDescriptionKey : CString := .lit "default_description"
def qosCosMapEntryCount : Nat := 8
def qosDscpMapEntryCount : Nat := 64

/-- `QOS_CLI_STRING_BUFFER_SIZE`. -/
def qosCliStringBufferSize : Nat := 67

/-- `NULL` unless a row of the table has this name, which is looked at where
there are rows. -/
def findByName (table : Table) (name : RowId → Program Calls CString) (wanted : Option CString) :
    Program Calls (Option RowId) := do
  let rec search : List RowId → Program Calls (Option RowId)
    | [] => return none
    | row :: rest => do
        let rowName ← name row
        if streq rowName (← orFault wanted) then return some row else search rest
  search (← rows table)

/-- `qos_get_queue_profile_row`. -/
def qosGetQueueProfileRow (profileName : Option CString) : Program Calls (Option RowId) :=
  findByName .qProfile (read · .qProfileName) profileName

/-- `qos_get_schedule_profile_row`. -/
def qosGetScheduleProfileRow (profileName : Option CString) : Program Calls (Option RowId) :=
  findByName .qos (read · .qosName) profileName

/-- The value under a key in a map from queue numbers to rows. -/
def queueRow (queues : List (Int × RowId)) (queueNum : Int) : Option RowId := queues.lookup queueNum

/-- `insert_queue_profile_queue_row`. -/
def insertQueueProfileQueueRow (profile : RowId) (queueNum : Int) (txn : TxnId) :
    Program Calls RowId := do
  let queue ← insertRow txn .qProfileEntry
  let entries ← read profile .qProfileQProfileEntries
  write profile .qProfileQProfileEntries ⟨entries ++ [(queueNum, queue)], entries.length + 1⟩
  return queue

/-- `qos_queue_profile_command`. -/
def qosQueueProfileCommand (txn : TxnId) (profileName : Option CString) : Program Calls Unit := do
  match ← qosGetQueueProfileRow profileName with
  | some _ => return ()
  | none =>
      let profile ← insertRow txn .qProfile
      write profile .qProfileName (← orFault profileName)

/-- `add_local_priority`. -/
def addLocalPriority (queue : RowId) (localPriority : Int) : Program Calls Unit := do
  let priorities ← read queue .qProfileEntryLocalPriorities
  if localPriority ∈ priorities then return ()
  else
    write queue .qProfileEntryLocalPriorities ⟨priorities ++ [localPriority], priorities.length + 1⟩

/-- The end of `qos_queue_profile_row_command`, once it has the row of the queue. -/
def updateQueueRow (entry : QueueProfileEntry) (queue : RowId) : Program Calls Bool := do
  addLocalPriority queue entry.localPriority
  match entry.description with
  | some description => write queue .qProfileEntryDescription description
  | none => pure ()
  return true

/-- `qos_queue_profile_row_command`. -/
def qosQueueProfileRowCommand (txn : TxnId) (profileName : Option CString)
    (entry : QueueProfileEntry) : Program Calls Bool := do
  match ← qosGetQueueProfileRow profileName with
  | none => return false
  | some profile =>
      let entries ← read profile .qProfileQProfileEntries
      let queue ← match queueRow entries entry.queue with
        | some queue => pure queue
        | none => insertQueueProfileQueueRow profile entry.queue txn
      updateQueueRow entry queue

/-- `qos_queue_profile_create_factory_default`. -/
def qosQueueProfileCreateFactoryDefault (config : Config) (txn : TxnId)
    (defaultName : Option CString) : Program Calls Unit := do
  qosQueueProfileCommand txn defaultName
  forM (List.range config.queueProfile.unsignedCount) fun ii => do
    match config.queueProfile.get ii with
    | some entry => discard (qosQueueProfileRowCommand txn defaultName entry)
    | none => return ()

/-- `insert_schedule_profile_queue_row`. -/
def insertScheduleProfileQueueRow (profile : RowId) (queueNum : Int) (txn : TxnId) :
    Program Calls RowId := do
  let queue ← insertRow txn .queue
  let queues ← read profile .qosQueues
  write profile .qosQueues ⟨queues ++ [(queueNum, queue)], queues.length + 1⟩
  return queue

/-- `qos_schedule_profile_command`. -/
def qosScheduleProfileCommand (txn : TxnId) (profileName : Option CString) :
    Program Calls Unit := do
  match ← qosGetScheduleProfileRow profileName with
  | some _ => return ()
  | none =>
      let profile ← insertRow txn .qos
      write profile .qosName (← orFault profileName)

/-- The end of `qos_schedule_profile_row_command`, once it has the row of the
queue. -/
def updateScheduleRow (config : Config) (entry : ScheduleProfileEntry) (queue : RowId) :
    Program Calls Bool := do
  let algorithm ← orFault entry.algorithm
  write queue .queueAlgorithm algorithm
  if streq algorithm (config.header .queueAlgorithmStrict) then
    write queue .queueWeight ⟨[], 0⟩
  else
    write queue .queueWeight ⟨[entry.weight], 1⟩
  return true

/-- `qos_schedule_profile_row_command`. -/
def qosScheduleProfileRowCommand (config : Config) (txn : TxnId) (profileName : Option CString)
    (entry : ScheduleProfileEntry) : Program Calls Bool := do
  match ← qosGetScheduleProfileRow profileName with
  | none => return false
  | some profile =>
      let queues ← read profile .qosQueues
      let queue ← match queueRow queues entry.queue with
        | some queue => pure queue
        | none => insertScheduleProfileQueueRow profile entry.queue txn
      updateScheduleRow config entry queue

/-- `qos_schedule_profile_create_factory_default`. -/
def qosScheduleProfileCreateFactoryDefault (config : Config) (txn : TxnId)
    (defaultName : Option CString) : Program Calls Unit := do
  qosScheduleProfileCommand txn defaultName
  let profile ← orFault (← qosGetScheduleProfileRow defaultName)
  write profile .qosQueues ⟨[], 0⟩
  forM (List.range config.scheduleProfile.count.toNat) fun ii => do
    match config.scheduleProfile.get ii with
    | some entry => discard (qosScheduleProfileRowCommand config txn defaultName entry)
    | none => return ()

/-- `qos_init_trust`. -/
def qosInitTrust (config : Config) (system : RowId) : Program Calls Unit := do
  match config.qosInfo with
  | none => return ()
  | some qosInfo =>
      match qosInfo.trust with
      | none => return ()
      | some trust =>
          let smap ← read system .systemQosConfig
          write system .systemQosConfig (smap.replace qosTrustKey trust)

/-- The factory defaults of a map entry. -/
def hwDefaults (smap : Smap) (entry : MapEntry) (color description : CString) : Smap :=
  let codePoint := snprintf qosCliStringBufferSize (decimal entry.codePoint)
  let localPriority := snprintf qosCliStringBufferSize (decimal entry.localPriority)
  (((smap.replace qosDefaultCodePointKey codePoint).replace qosDefaultLocalPriorityKey
    localPriority).replace qosDefaultColorKey color).replace qosDefaultDescriptionKey description

/-- The columns of a table of map entries. -/
structure MapColumns where
  codePoint : ColumnOf .integer
  localPriority : ColumnOf .integer
  color : ColumnOf .text
  description : ColumnOf .text
  hwDefaults : ColumnOf .smap

def MapColumns.all (columns : MapColumns) : List Column :=
  [columns.codePoint.column, columns.localPriority.column, columns.color.column,
    columns.description.column, columns.hwDefaults.column]

def cosMapColumns : MapColumns where
  codePoint := ⟨.qosCosMapEntryCodePoint, rfl⟩
  localPriority := ⟨.qosCosMapEntryLocalPriority, rfl⟩
  color := ⟨.qosCosMapEntryColor, rfl⟩
  description := ⟨.qosCosMapEntryDescription, rfl⟩
  hwDefaults := ⟨.qosCosMapEntryHwDefaults, rfl⟩

def dscpMapColumns : MapColumns where
  codePoint := ⟨.qosDscpMapEntryCodePoint, rfl⟩
  localPriority := ⟨.qosDscpMapEntryLocalPriority, rfl⟩
  color := ⟨.qosDscpMapEntryColor, rfl⟩
  description := ⟨.qosDscpMapEntryDescription, rfl⟩
  hwDefaults := ⟨.qosDscpMapEntryHwDefaults, rfl⟩

/-- `set_cos_map_entry` and `set_dscp_map_entry` do the same in two tables. -/
def setMapEntry (columns : MapColumns) (row : RowId) (entry : MapEntry) : Program Calls Unit := do
  write row columns.codePoint.column (columns.codePoint.arg entry.codePoint)
  write row columns.localPriority.column (columns.localPriority.arg entry.localPriority)
  let color ← orFault entry.color
  write row columns.color.column (columns.color.arg color)
  let description ← orFault entry.description
  write row columns.description.column (columns.description.arg description)
  let smap ← read row columns.hwDefaults.column
  write row columns.hwDefaults.column
    (columns.hwDefaults.arg (hwDefaults (columns.hwDefaults.value smap) entry color description))

/-- `set_cos_map_entry`. -/
def setCosMapEntry : RowId → MapEntry → Program Calls Unit := setMapEntry cosMapColumns

/-- `set_dscp_map_entry`. -/
def setDscpMapEntry : RowId → MapEntry → Program Calls Unit := setMapEntry dscpMapColumns

/-- The loop of `qos_init_default_cos_map` and `qos_init_default_dscp_map`: the
count comes from the description, the rows from a fixed array. -/
def initDefaultMap (entries : YamlList MapEntry) (set : RowId → MapEntry → Program Calls Unit)
    (mapRows : List RowId) : Program Calls Unit :=
  forM (List.range entries.unsignedCount) fun ii => do
    match mapRows[ii]? with
    | none => fault .outOfBounds
    | some row =>
        let entry ← orFault (entries.get ii)
        set row entry

/-- `qos_init_cos_map` and `qos_init_dscp_map`, given the table, the number of
its rows and the column that lists them. -/
def qosInitMap (entries : YamlList MapEntry) (set : RowId → MapEntry → Program Calls Unit)
    (txn : TxnId) (table : Table) (size : Nat) (listed : ColumnOf .references) (system : RowId) :
    Program Calls Unit := do
  if (entries.get 0).isSome then
    let mapRows ← (List.range size).mapM fun _ => insertRow txn table
    initDefaultMap entries set mapRows
    write system listed.column (listed.arg ⟨mapRows, size⟩)

/-- `qos_init_cos_map`. -/
def qosInitCosMap (config : Config) (txn : TxnId) : RowId → Program Calls Unit :=
  qosInitMap config.cosMap setCosMapEntry txn .qosCosMapEntry qosCosMapEntryCount
    ⟨.systemQosCosMapEntries, rfl⟩

/-- `qos_init_dscp_map`. -/
def qosInitDscpMap (config : Config) (txn : TxnId) : RowId → Program Calls Unit :=
  qosInitMap config.dscpMap setDscpMapEntry txn .qosDscpMapEntry qosDscpMapEntryCount
    ⟨.systemQosDscpMapEntries, rfl⟩

/-- `qos_init_queue_profile`. -/
def qosInitQueueProfile (config : Config) (txn : TxnId) (system : RowId) : Program Calls Unit := do
  match config.qosInfo with
  | none => return ()
  | some qosInfo =>
      qosQueueProfileCreateFactoryDefault config txn qosInfo.defaultName
      match ← qosGetQueueProfileRow qosInfo.defaultName with
      | none => return ()
      | some defaultProfile =>
          write system .systemQProfile (some defaultProfile)
          qosQueueProfileCreateFactoryDefault config txn qosInfo.factoryDefaultName
          match ← qosGetQueueProfileRow qosInfo.factoryDefaultName with
          | none => return ()
          | some factoryDefaultProfile =>
              write factoryDefaultProfile .qProfileHwDefault ⟨[true], 1⟩
              let entries ← read factoryDefaultProfile .qProfileQProfileEntries
              forM entries fun entry => write entry.2 .qProfileEntryHwDefault ⟨[true], 1⟩

/-- `qos_init_schedule_profile`. -/
def qosInitScheduleProfile (config : Config) (txn : TxnId) (system : RowId) :
    Program Calls Unit := do
  match config.qosInfo with
  | none => return ()
  | some qosInfo =>
      qosScheduleProfileCreateFactoryDefault config txn qosInfo.defaultName
      match ← qosGetScheduleProfileRow qosInfo.defaultName with
      | none => return ()
      | some defaultProfile =>
          write system .systemQos (some defaultProfile)
          qosScheduleProfileCreateFactoryDefault config txn qosInfo.factoryDefaultName
          match ← qosGetScheduleProfileRow qosInfo.factoryDefaultName with
          | none => return ()
          | some factoryDefaultProfile =>
              write factoryDefaultProfile .qosHwDefault ⟨[true], 1⟩
              let queues ← read factoryDefaultProfile .qosQueues
              forM queues fun queue => write queue.2 .queueHwDefault ⟨[true], 1⟩

/-- `ACL_LIMIT_BUFFER_SIZE`. -/
def aclLimitBufferSize : Nat := 16

/-- `acl_init_limits`. -/
def aclInitLimits (config : Config) (system : RowId) : Program Calls Unit := do
  let aclInfo ← orFault config.aclInfo
  let limit (n : Int) : CString := snprintf aclLimitBufferSize (decimal n)
  let smap ← read system .systemOtherInfo
  write system .systemOtherInfo (((smap.replace (.lit "max_acls") (limit aclInfo.maxAcls)).replace
    (.lit "max_aces") (limit aclInfo.maxAces)).replace (.lit "max_aces_per_acl")
    (limit aclInfo.maxAcesPerAcl))

end OpsSysd.Daemon
