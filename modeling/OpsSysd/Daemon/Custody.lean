import OpsSysd.Daemon.Registration
import OpsSysd.Daemon.Round

/-! The initial configuration stays with the rows that it has inserted: it writes
to no other, refers to no other and reads no other. -/
namespace OpsSysd.Daemon

open CLib Interaction Interaction.Program Idl

variable {World Result : Type} {env : Environment World} {txn : TxnId} {config : Config}
  {known : List RowId}

/-- Where its last call is made, the program has come to no row. -/
theorem owns_unit : Owns env sysdCustody txn known (.done ()) fun _ => [] :=
  owns_done (List.nil_subset _)

/-- What a map holds under a key is one of its rows. -/
theorem mem_of_lookup {Key : Type} [BEq Key] [LawfulBEq Key] {pairs : List (Key × RowId)} {key : Key}
    {row : RowId} (h : pairs.lookup key = some row) : row ∈ pairs.map Prod.snd := by
  obtain ⟨before, after, rfl, -⟩ := List.lookup_eq_some_iff.mp h
  simp

section Interfaces

/-- An interface is handed on to its subsystem. -/
theorem sysdInitialInterfaceAdd_owns (subsys : Subsystem) (intf : Port) :
    Owns env sysdCustody txn known (sysdInitialInterfaceAdd config txn subsys intf) fun row => [row] := by
  refine owns_insertRow fun row => ?_
  have hRow : row ∈ row :: known := List.mem_cons_self
  refine owns_write_plain hRow (fun _ => rfl) (owns_write_plain hRow (fun _ => rfl) ?_)
  refine owns_write_plain hRow (fun _ => rfl) (owns_ite (fun _ => owns_fault) fun _ => ?_)
  exact owns_write_plain hRow (fun _ => rfl) (owns_done (by simp))

/-- The rows found are among those of the hash map. -/
theorem findSubports_owns {hash : RowHash} (hHash : hash.map Prod.snd ⊆ known) (names : List CString)
    {found : List RowId} (hFound : found ⊆ known) (j : Nat) :
    Owns env sysdCustody txn known (findSubports hash names found j) Prod.fst := by
  induction names generalizing found j with
  | nil => exact owns_done hFound
  | cons name names ih =>
      refine owns_ite (fun _ => owns_fault) fun _ => ?_
      cases hName : hash.find name with
      | none => exact ih hFound j
      | some row =>
          have hRow : row ∈ known := hHash (mem_of_lookup hName)
          exact ih (List.append_subset.mpr ⟨hFound, List.cons_subset.mpr ⟨hRow, List.nil_subset _⟩⟩) (j + 1)

/-- So the children are rows of the transaction. -/
theorem setSplitChildren_owns {hash : RowHash} (hHash : hash.map Prod.snd ⊆ known) {row : RowId}
    (hRow : row ∈ known) (intf : Port) :
    Owns env sysdCustody txn known (setSplitChildren hash row intf) fun _ => [] := by
  refine owns_ite (fun _ => ?_) fun _ => owns_unit
  have hFound := @findSubports_owns World env txn known hash hHash intf.subports [] (List.nil_subset _) 0
  refine hFound.bind_yields (findSubports_yields hash intf.subports rfl) fun subports hCount => ?_
  refine owns_write (List.mem_append_right _ hRow) (fun value hValue => ?_) owns_unit
  rw [Slice.Stored.eq_array hValue hCount]
  exact List.subset_append_left _ _

/-- And so is a parent. -/
theorem setSplitInfo_owns {hash : RowHash} (hHash : hash.map Prod.snd ⊆ known) {row : RowId}
    (hRow : row ∈ known) (intf : Port) :
    Owns env sysdCustody txn known (setSplitInfo hash row intf) fun _ => [] := by
  have hChildren := @setSplitChildren_owns World env txn known hash hHash row hRow intf
  rw [setSplitInfo]
  cases intf.parentPort with
  | none => exact hChildren
  | some parentPort =>
      dsimp only
      cases hParent : hash.find parentPort with
      | none => exact hChildren
      | some parent =>
          refine owns_write hRow (fun value hValue => ?_) hChildren
          have hValue : value = some parent := hValue
          rw [hValue]
          refine List.cons_subset.mpr ⟨?_, List.nil_subset _⟩
          exact hHash (mem_of_lookup hParent)

/-- The hash map is filled with the rows just added. -/
theorem hashSplittable_owns {ports : List (RowId × Port)} (hPorts : ports.map Prod.fst ⊆ known)
    {hash : RowHash} (hHash : hash.map Prod.snd ⊆ known) :
    Owns env sysdCustody txn known (hashSplittable ports hash) (List.map Prod.snd) := by
  induction ports generalizing hash with
  | nil => exact owns_done hHash
  | cons port ports ih =>
      obtain ⟨hPort, hRest⟩ := List.cons_subset.mp hPorts
      refine owns_ite (fun _ => owns_read hPort fun name => ?_) fun _ => ih hRest hHash
      exact ih hRest (List.cons_subset.mpr ⟨hPort, hHash⟩)

theorem sysdSetSplittablePortInfo_owns {rows : List RowId} (hRows : rows ⊆ known) (subsys : Subsystem) :
    Owns env sysdCustody txn known (sysdSetSplittablePortInfo rows subsys) fun _ => [] := by
  have hPorts : (rows.zip subsys.interfaces).map Prod.fst ⊆ known := by
    intro row hRow
    obtain ⟨port, hPort, rfl⟩ := List.mem_map.mp hRow
    exact hRows (List.of_mem_zip hPort).1
  refine (hashSplittable_owns hPorts (List.nil_subset _)).bind fun hash => Owns.forM _ fun port hPort => ?_
  refine setSplitInfo_owns (List.subset_append_left _ _) (List.mem_append_right _ ?_) port.2
  exact hPorts (List.mem_map_of_mem hPort)

/-- A subsystem refers to its own interfaces. -/
theorem sysdInitialSubsystemAdd_owns (subsys : Subsystem) :
    Owns env sysdCustody txn known (sysdInitialSubsystemAdd config txn subsys) fun row => [row] := by
  refine owns_insertRow fun row => ?_
  have hRow : row ∈ row :: known := List.mem_cons_self
  refine owns_write_plain hRow (fun _ => rfl) (owns_write_plain hRow (fun _ => rfl) ?_)
  refine owns_write_plain hRow (fun _ => rfl) (owns_write_plain hRow (fun _ => rfl) ?_)
  refine owns_calloc fun allocated => owns_ite (fun _ => ?_) fun _ => owns_done (by simp)
  change Owns env sysdCustody txn (row :: known) (fillSubsystem config txn subsys row) fun row => [row]
  rw [fillSubsystem_eq]
  refine (Owns.mapM _ fun intf _ => sysdInitialInterfaceAdd_owns subsys intf).bind_yields
    (yields_mapM _ _) fun interfaces hCount => ?_
  have hOwn : row ∈ id interfaces ++ row :: known := List.mem_append_right _ hRow
  refine (sysdSetSplittablePortInfo_owns (List.subset_append_left _ _) subsys).bind fun _ => ?_
  refine owns_write_plain hOwn (fun _ => rfl) (owns_write_plain hOwn (fun _ => rfl) ?_)
  refine owns_write hOwn (fun value hValue => ?_) (owns_done (List.cons_subset.mpr ⟨hOwn, List.nil_subset _⟩))
  rw [Slice.Stored.eq_array hValue hCount]
  exact List.subset_append_left _ _

/-- A daemon refers to nothing. -/
theorem sysdInitialDaemonAdd_owns (daemon : Manifest.DaemonInfo) :
    Owns env sysdCustody txn known (sysdInitialDaemonAdd txn daemon) fun row => [row] := by
  refine owns_insertRow fun row => ?_
  have hRow : row ∈ row :: known := List.mem_cons_self
  refine owns_write_plain hRow (fun _ => rfl) (owns_write_plain hRow (fun _ => rfl) ?_)
  exact owns_write_plain hRow (fun _ => rfl) (owns_done (by simp))

end Interfaces

section Qos

/-- A search goes through a table that is the daemon's own. -/
theorem findByName_owns {table : Table} (hTable : ¬ RegisteredTable table)
    {name : RowId → Program Calls CString} (wanted : Option CString)
    (hName : ∀ known row, row ∈ known → Owns env sysdCustody txn known (name row) fun _ => []) :
    Owns env sysdCustody txn known (findByName table name wanted) Option.toList := by
  have hSearch : ∀ rows known, rows ⊆ known →
      Owns env sysdCustody txn known (findByName.search name wanted rows) Option.toList := by
    intro rows
    induction rows with
    | nil => exact fun known _ => owns_done (List.nil_subset _)
    | cons row rows ih =>
        intro known hRows
        obtain ⟨hRow, hRest⟩ := List.cons_subset.mp hRows
        refine (hName known row hRow).bind fun rowName => owns_orFault fun wanted => ?_
        refine owns_ite (fun _ => ?_) fun _ => ih known hRest
        exact owns_done (List.cons_subset.mpr ⟨hRow, List.nil_subset _⟩)
  exact owns_rows hTable fun ids => hSearch ids _ (List.subset_append_left ids known)

/-- What a cell of a known row refers to is handed on. -/
theorem read_owns {row : RowId} (hRow : row ∈ known) (column : Column) :
    Owns env sysdCustody txn known (read row column) column.shape.refs :=
  owns_read hRow fun _ => owns_done (List.subset_append_left _ _)

/-- A profile that is found is one of the transaction. -/
theorem qosGetQueueProfileRow_owns (profileName : Option CString) :
    Owns env sysdCustody txn known (qosGetQueueProfileRow profileName) Option.toList :=
  findByName_owns (by decide) profileName fun _ _ hRow => read_owns hRow .qProfileName

theorem qosGetScheduleProfileRow_owns (profileName : Option CString) :
    Owns env sysdCustody txn known (qosGetScheduleProfileRow profileName) Option.toList :=
  findByName_owns (by decide) profileName fun _ _ hRow => read_owns hRow .qosName

/-- The queues of a profile, with a queue that has just been inserted. -/
theorem addQueue_subset {queues : List (Int × RowId)} {queue : RowId} (hQueues : queues.map Prod.snd ⊆ known)
    (hQueue : queue ∈ known) (queueNum : Int) :
    (queues ++ [(queueNum, queue)]).map Prod.snd ⊆ known := by
  rw [List.map_append]
  exact List.append_subset.mpr ⟨hQueues, List.cons_subset.mpr ⟨hQueue, List.nil_subset _⟩⟩

/-- A queue is added to a known profile. -/
theorem insertQueueProfileQueueRow_owns {profile : RowId} (hProfile : profile ∈ known) (queueNum : Int) :
    Owns env sysdCustody txn known (insertQueueProfileQueueRow profile queueNum txn)
      fun row => [row] := by
  refine owns_insertRow fun queue => owns_read (List.mem_cons_of_mem _ hProfile) fun entries => ?_
  have hProfile := List.mem_append_right (entries.map Prod.snd) (List.mem_cons_of_mem queue hProfile)
  have hQueue : queue ∈ entries.map Prod.snd ++ queue :: known :=
    List.mem_append_right _ List.mem_cons_self
  refine owns_write hProfile (fun value hValue => ?_)
    (owns_done (List.cons_subset.mpr ⟨hQueue, List.nil_subset _⟩))
  rw [Slice.Stored.eq_array hValue List.length_append]
  exact addQueue_subset (List.subset_append_left _ _) hQueue queueNum

theorem qosQueueProfileCommand_owns (profileName : Option CString) :
    Owns env sysdCustody txn known (qosQueueProfileCommand txn profileName) fun _ => [] := by
  refine (qosGetQueueProfileRow_owns profileName).bind fun found => ?_
  cases found with
  | some profile => exact owns_unit
  | none =>
      refine owns_insertRow fun profile => owns_orFault fun name => ?_
      exact owns_write_plain List.mem_cons_self (fun _ => rfl) owns_unit

/-- Priorities are no references. -/
theorem addLocalPriority_owns {queue : RowId} (hQueue : queue ∈ known) (localPriority : Int) :
    Owns env sysdCustody txn known (addLocalPriority queue localPriority) fun _ => [] := by
  refine owns_read hQueue fun priorities => owns_ite (fun _ => owns_unit) fun _ => ?_
  exact owns_write_plain (List.mem_append_right _ hQueue) (fun _ => rfl) owns_unit

theorem updateQueueRow_owns {queue : RowId} (hQueue : queue ∈ known) (entry : QueueProfileEntry) :
    Owns env sysdCustody txn known (updateQueueRow entry queue) fun _ => [] := by
  refine (addLocalPriority_owns hQueue entry.localPriority).bind fun _ => ?_
  cases entry.description with
  | none => exact owns_done (List.nil_subset _)
  | some description => exact owns_write_plain hQueue (fun _ => rfl) (owns_done (List.nil_subset _))

/-- The profile, and the queue in it, are found or inserted. -/
theorem qosQueueProfileRowCommand_owns (profileName : Option CString) (entry : QueueProfileEntry) :
    Owns env sysdCustody txn known (qosQueueProfileRowCommand txn profileName entry) fun _ => [] := by
  refine (qosGetQueueProfileRow_owns profileName).bind fun found => ?_
  cases found with
  | none => exact owns_done (List.nil_subset _)
  | some profile =>
      refine (read_owns List.mem_cons_self .qProfileQProfileEntries).bind fun entries => ?_
      have hProfile : profile ∈ entries.map Prod.snd ++ (Option.toList (some profile) ++ known) :=
        List.mem_append_right _ List.mem_cons_self
      dsimp only
      cases hQueue : queueRow entries entry.queue with
      | some queue =>
          exact updateQueueRow_owns (List.mem_append_left _ (mem_of_lookup hQueue)) entry
      | none =>
          exact (insertQueueProfileQueueRow_owns hProfile entry.queue).bind fun queue =>
            updateQueueRow_owns List.mem_cons_self entry

theorem qosQueueProfileCreateFactoryDefault_owns (defaultName : Option CString) :
    Owns env sysdCustody txn known (qosQueueProfileCreateFactoryDefault config txn defaultName)
      fun _ => [] := by
  refine (qosQueueProfileCommand_owns defaultName).bind fun _ => Owns.forM _ fun ii _ => ?_
  cases config.queueProfile.get ii with
  | none => exact owns_unit
  | some entry => exact (qosQueueProfileRowCommand_owns defaultName entry).bind fun _ => owns_unit

/-- A queue is added to a known schedule. -/
theorem insertScheduleProfileQueueRow_owns {profile : RowId} (hProfile : profile ∈ known)
    (queueNum : Int) :
    Owns env sysdCustody txn known (insertScheduleProfileQueueRow profile queueNum txn)
      fun row => [row] := by
  refine owns_insertRow fun queue => owns_read (List.mem_cons_of_mem _ hProfile) fun queues => ?_
  have hProfile := List.mem_append_right (queues.map Prod.snd) (List.mem_cons_of_mem queue hProfile)
  have hQueue : queue ∈ queues.map Prod.snd ++ queue :: known :=
    List.mem_append_right _ List.mem_cons_self
  refine owns_write hProfile (fun value hValue => ?_)
    (owns_done (List.cons_subset.mpr ⟨hQueue, List.nil_subset _⟩))
  rw [Slice.Stored.eq_array hValue List.length_append]
  exact addQueue_subset (List.subset_append_left _ _) hQueue queueNum

theorem qosScheduleProfileCommand_owns (profileName : Option CString) :
    Owns env sysdCustody txn known (qosScheduleProfileCommand txn profileName) fun _ => [] := by
  refine (qosGetScheduleProfileRow_owns profileName).bind fun found => ?_
  cases found with
  | some profile => exact owns_unit
  | none =>
      refine owns_insertRow fun profile => owns_orFault fun name => ?_
      exact owns_write_plain List.mem_cons_self (fun _ => rfl) owns_unit

theorem updateScheduleRow_owns {queue : RowId} (hQueue : queue ∈ known) (entry : ScheduleProfileEntry) :
    Owns env sysdCustody txn known (updateScheduleRow config entry queue) fun _ => [] := by
  have hDone : Owns env sysdCustody txn known (.done true : Program Calls Bool) fun _ => [] :=
    owns_done (List.nil_subset _)
  refine owns_orFault fun algorithm => owns_write_plain hQueue (fun _ => rfl) ?_
  refine owns_ite (fun _ => ?_) fun _ => ?_
  · exact owns_write_plain hQueue (fun _ => rfl) hDone
  · exact owns_write_plain hQueue (fun _ => rfl) hDone

theorem qosScheduleProfileRowCommand_owns (profileName : Option CString) (entry : ScheduleProfileEntry) :
    Owns env sysdCustody txn known (qosScheduleProfileRowCommand config txn profileName entry)
      fun _ => [] := by
  refine (qosGetScheduleProfileRow_owns profileName).bind fun found => ?_
  cases found with
  | none => exact owns_done (List.nil_subset _)
  | some profile =>
      refine (read_owns List.mem_cons_self .qosQueues).bind fun queues => ?_
      have hProfile : profile ∈ queues.map Prod.snd ++ (Option.toList (some profile) ++ known) :=
        List.mem_append_right _ List.mem_cons_self
      dsimp only
      cases hQueue : queueRow queues entry.queue with
      | some queue => exact updateScheduleRow_owns (List.mem_append_left _ (mem_of_lookup hQueue)) entry
      | none =>
          exact (insertScheduleProfileQueueRow_owns hProfile entry.queue).bind fun queue =>
            updateScheduleRow_owns List.mem_cons_self entry

theorem qosScheduleProfileCreateFactoryDefault_owns (defaultName : Option CString) :
    Owns env sysdCustody txn known (qosScheduleProfileCreateFactoryDefault config txn defaultName)
      fun _ => [] := by
  refine (qosScheduleProfileCommand_owns defaultName).bind fun _ => ?_
  refine (qosGetScheduleProfileRow_owns defaultName).bind fun found => ?_
  cases found with
  | none => exact owns_fault
  | some profile =>
      refine owns_write List.mem_cons_self (fun value hValue => ?_) (Owns.forM _ fun ii _ => ?_)
      · rw [Slice.Stored.eq_array hValue rfl]
        exact List.nil_subset _
      · cases config.scheduleProfile.get ii with
        | none => exact owns_unit
        | some entry => exact (qosScheduleProfileRowCommand_owns defaultName entry).bind fun _ => owns_unit

theorem qosInitTrust_owns {system : RowId} (hSystem : system ∈ known) :
    Owns env sysdCustody txn known (qosInitTrust config system) fun _ => [] := by
  rw [qosInitTrust]
  cases config.qosInfo with
  | none => exact owns_unit
  | some qosInfo =>
      dsimp only
      cases qosInfo.trust with
      | none => exact owns_unit
      | some trust =>
          refine owns_read hSystem fun smap => ?_
          exact owns_write_plain (List.mem_append_right _ hSystem) (fun _ => rfl) owns_unit

/-- A column of a family may be written like any other. -/
theorem owns_write_columnOf {shape : Shape} {of : ColumnOf shape} {arg : of.column.Arg} {row : RowId}
    {next : Unit → Program Calls Result} {refs : Result → List RowId} (hRow : row ∈ known)
    (hPlain : ∀ value, shape.refs value = [])
    (hNext : Owns env sysdCustody txn known (next ()) refs) :
    Owns env sysdCustody txn known (.call (.write row of.column arg) next) refs :=
  owns_write_plain hRow (fun value => (of.refs_value value).trans (hPlain _)) hNext

/-- An entry goes to a known row. -/
theorem setMapEntry_owns (columns : MapColumns) {row : RowId} (hRow : row ∈ known) (entry : MapEntry) :
    Owns env sysdCustody txn known (setMapEntry columns row entry) fun _ => [] := by
  refine owns_write_columnOf hRow (fun _ => rfl) (owns_write_columnOf hRow (fun _ => rfl) ?_)
  refine owns_orFault fun color => owns_write_columnOf hRow (fun _ => rfl) ?_
  refine owns_orFault fun description => owns_write_columnOf hRow (fun _ => rfl) ?_
  refine owns_read hRow fun smap => ?_
  exact owns_write_columnOf (List.mem_append_right _ hRow) (fun _ => rfl) owns_unit

/-- The loop over the entries keeps to the rows of the array. -/
theorem initDefaultMap_owns (entries : YamlList MapEntry) {set : RowId → MapEntry → Program Calls Unit}
    {mapRows : List RowId} (hRows : mapRows ⊆ known)
    (hSet : ∀ row ∈ known, ∀ entry, Owns env sysdCustody txn known (set row entry) fun _ => []) :
    Owns env sysdCustody txn known (initDefaultMap entries set mapRows) fun _ => [] := by
  refine Owns.forM _ fun ii _ => ?_
  cases hRow : mapRows[ii]? with
  | none => exact owns_fault
  | some row =>
      dsimp only
      cases entries.get ii with
      | none => exact owns_fault
      | some entry => exact hSet row (hRows (List.mem_of_getElem? hRow)) entry

theorem insertRow_owns (table : Table) :
    Owns env sysdCustody txn known (insertRow txn table) fun row => [row] := by
  rw [← bind_done (insertRow txn table)]
  exact owns_insertRow fun row => owns_done (by simp)

/-- The System row refers to the rows inserted for the map. -/
theorem qosInitMap_owns (entries : YamlList MapEntry) (columns : MapColumns) (table : Table) (size : Nat)
    (listed : ColumnOf .references) {system : RowId} (hSystem : system ∈ known) :
    Owns env sysdCustody txn known (qosInitMap entries (setMapEntry columns) txn table size listed system)
      fun _ => [] := by
  refine owns_ite (fun _ => ?_) fun _ => owns_unit
  refine (Owns.mapM _ fun _ _ => insertRow_owns table).bind_yields (yields_mapM _ _)
    fun mapRows hCount => ?_
  have hRows : mapRows ⊆ id mapRows ++ known := List.subset_append_left mapRows known
  have hOwn : system ∈ id mapRows ++ known := List.mem_append_right mapRows hSystem
  refine (initDefaultMap_owns _ hRows fun _ => setMapEntry_owns columns).bind fun _ => ?_
  refine owns_write hOwn (fun value hValue => ?_) owns_unit
  have hStored : Slice.Stored ⟨mapRows, size⟩ (listed.value value) := (listed.stored_arg _ value).mp hValue
  rw [listed.refs_value, Slice.Stored.eq_array hStored (hCount.trans List.length_range)]
  exact hRows

theorem qosInitCosMap_owns {system : RowId} (hSystem : system ∈ known) :
    Owns env sysdCustody txn known (qosInitCosMap config txn system) fun _ => [] :=
  qosInitMap_owns _ cosMapColumns _ _ _ hSystem

theorem qosInitDscpMap_owns {system : RowId} (hSystem : system ∈ known) :
    Owns env sysdCustody txn known (qosInitDscpMap config txn system) fun _ => [] :=
  qosInitMap_owns _ dscpMapColumns _ _ _ hSystem

/-- A reference to a row of one's own. -/
theorem owns_refer {row target : RowId} {column : Column} {arg : column.Arg}
    {next : Unit → Program Calls Result} {refs : Result → List RowId} (hRow : row ∈ known)
    (hTarget : target ∈ known)
    (hArg : ∀ value, column.shape.Stored arg value → column.shape.refs value = [target])
    (hNext : Owns env sysdCustody txn known (next ()) refs) :
    Owns env sysdCustody txn known (.call (.write row column arg) next) refs := by
  refine owns_write hRow (fun value hValue => ?_) hNext
  rw [hArg value hValue]
  exact List.cons_subset.mpr ⟨hTarget, List.nil_subset _⟩

/-- The queues of a profile, one after the other, are marked. -/
theorem markQueues_owns {column : Column} {arg : column.Arg} {queues : List (Int × RowId)}
    (hQueues : queues.map Prod.snd ⊆ known) (hPlain : ∀ value, column.shape.refs value = []) :
    Owns env sysdCustody txn known (forM queues fun queue => write queue.2 column arg) fun _ => [] :=
  Owns.forM _ fun _ hQueue =>
    owns_write_plain (hQueues (List.mem_map_of_mem hQueue)) hPlain owns_unit

theorem qosInitQueueProfile_owns {system : RowId} (hSystem : system ∈ known) :
    Owns env sysdCustody txn known (qosInitQueueProfile config txn system) fun _ => [] := by
  rw [qosInitQueueProfile]
  cases config.qosInfo with
  | none => exact owns_unit
  | some qosInfo =>
      refine (qosQueueProfileCreateFactoryDefault_owns _).bind fun _ => ?_
      refine (qosGetQueueProfileRow_owns _).bind fun defaultProfile => ?_
      cases defaultProfile with
      | none => exact owns_unit
      | some profile =>
          have hProfile : profile ∈ profile :: known := List.mem_cons_self
          refine owns_refer (List.mem_append_right _ hSystem) hProfile
            (fun value hValue => congrArg Option.toList hValue) ?_
          refine (qosQueueProfileCreateFactoryDefault_owns _).bind fun _ => ?_
          refine (qosGetQueueProfileRow_owns _).bind fun factoryDefaultProfile => ?_
          cases factoryDefaultProfile with
          | none => exact owns_unit
          | some factoryDefaultProfile =>
              refine owns_write_plain List.mem_cons_self (fun _ => rfl) ?_
              refine owns_read List.mem_cons_self fun entries => ?_
              exact markQueues_owns (List.subset_append_left _ _) fun _ => rfl

theorem qosInitScheduleProfile_owns {system : RowId} (hSystem : system ∈ known) :
    Owns env sysdCustody txn known (qosInitScheduleProfile config txn system) fun _ => [] := by
  rw [qosInitScheduleProfile]
  cases config.qosInfo with
  | none => exact owns_unit
  | some qosInfo =>
      refine (qosScheduleProfileCreateFactoryDefault_owns _).bind fun _ => ?_
      refine (qosGetScheduleProfileRow_owns _).bind fun defaultProfile => ?_
      cases defaultProfile with
      | none => exact owns_unit
      | some profile =>
          have hProfile : profile ∈ profile :: known := List.mem_cons_self
          refine owns_refer (List.mem_append_right _ hSystem) hProfile
            (fun value hValue => congrArg Option.toList hValue) ?_
          refine (qosScheduleProfileCreateFactoryDefault_owns _).bind fun _ => ?_
          refine (qosGetScheduleProfileRow_owns _).bind fun factoryDefaultProfile => ?_
          cases factoryDefaultProfile with
          | none => exact owns_unit
          | some factoryDefaultProfile =>
              refine owns_write_plain List.mem_cons_self (fun _ => rfl) ?_
              refine owns_read List.mem_cons_self fun queues => ?_
              exact markQueues_owns (List.subset_append_left _ _) fun _ => rfl

end Qos

section Configuration

/-- The bridge, its port and its interface are inserted one by one. -/
theorem sysdConfigureDefaultBridge_owns {system : RowId} (hSystem : system ∈ known) :
    Owns env sysdCustody txn known (sysdConfigureDefaultBridge config txn system) fun _ => [] := by
  refine owns_insertRow fun bridge => ?_
  have hBridge : bridge ∈ bridge :: known := List.mem_cons_self
  refine owns_write_plain hBridge (fun _ => rfl) ?_
  refine owns_refer (List.mem_cons_of_mem _ hSystem) hBridge (fun value hValue => Slice.Stored.eq_array hValue rfl) ?_
  refine owns_insertRow fun iface => ?_
  have hInterface : iface ∈ iface :: bridge :: known := List.mem_cons_self
  refine owns_write_plain hInterface (fun _ => rfl) (owns_write_plain hInterface (fun _ => rfl) ?_)
  refine owns_write_plain hInterface (fun _ => rfl) (owns_write_plain hInterface (fun _ => rfl) ?_)
  refine owns_insertRow fun port => ?_
  have hPort : port ∈ port :: iface :: bridge :: known := List.mem_cons_self
  have hOld : bridge ∈ port :: iface :: bridge :: known :=
    List.mem_cons_of_mem _ (List.mem_cons_of_mem _ hBridge)
  refine owns_write_plain hPort (fun _ => rfl) ?_
  refine owns_refer hPort (List.mem_cons_of_mem _ hInterface) (fun value hValue => Slice.Stored.eq_array hValue rfl) ?_
  exact owns_refer hOld hPort (fun value hValue => Slice.Stored.eq_array hValue rfl) owns_unit

theorem sysdConfigureDefaultVrf_owns {system : RowId} (hSystem : system ∈ known) :
    Owns env sysdCustody txn known (sysdConfigureDefaultVrf config txn system) fun _ => [] := by
  refine owns_insertRow fun vrf => ?_
  have hVrf : vrf ∈ vrf :: known := List.mem_cons_self
  refine owns_write_plain hVrf (fun _ => rfl) ?_
  refine owns_refer (List.mem_cons_of_mem _ hSystem) hVrf (fun value hValue => Slice.Stored.eq_array hValue rfl) ?_
  refine owns_write_plain hVrf (fun _ => rfl) (owns_read hVrf fun status => ?_)
  exact owns_write_plain (List.mem_append_right _ hVrf) (fun _ => rfl) owns_unit

theorem aclInitLimits_owns {system : RowId} (hSystem : system ∈ known) :
    Owns env sysdCustody txn known (aclInitLimits config system) fun _ => [] := by
  rw [aclInitLimits]
  cases config.aclInfo with
  | none => exact owns_fault
  | some aclInfo =>
      refine owns_read hSystem fun smap => ?_
      exact owns_write_plain (List.mem_append_right _ hSystem) (fun _ => rfl) owns_unit

theorem sysdUpdateSwInfo_owns {system : RowId} (hSystem : system ∈ known) :
    Owns env sysdCustody txn known (sysdUpdateSwInfo config system) fun _ => [] := by
  refine owns_openOsRelease fun release => ?_
  cases release with
  | none => exact owns_unit
  | some lines =>
      have hVersion : Owns env sysdCustody txn known
          (if (scanRelease (config.header .systemSoftwareInfoOsName) lines).HasVersion then
            write system .systemSwitchVersion
              (switchVersion (scanRelease (config.header .systemSoftwareInfoOsName) lines))
          else pure ()) fun _ => [] :=
        owns_ite (fun _ => owns_write_plain hSystem (fun _ => rfl) owns_unit) fun _ => owns_unit
      refine owns_ite (fun _ => ?_) fun _ => hVersion
      exact owns_write_plain hSystem (fun _ => rfl) hVersion

theorem configureQos_owns {system : RowId} (hSystem : system ∈ known) :
    Owns env sysdCustody txn known (configureQos config txn system) fun _ => [] := by
  refine (qosInitTrust_owns hSystem).bind fun _ => (qosInitDscpMap_owns hSystem).bind fun _ => ?_
  refine (qosInitCosMap_owns hSystem).bind fun _ => (qosInitQueueProfile_owns hSystem).bind fun _ => ?_
  exact qosInitScheduleProfile_owns hSystem

theorem finishConfiguration_owns {system : RowId} (hSystem : system ∈ known) :
    Owns env sysdCustody txn known (finishConfiguration config txn system) fun _ => [] := by
  refine (sysdUpdateSwInfo_owns hSystem).bind fun _ => ?_
  refine owns_write_plain hSystem (fun _ => rfl) ?_
  exact (configureQos_owns hSystem).bind fun _ => aclInitLimits_owns hSystem

/-- The System row refers to the daemons added. -/
theorem configureDaemons_owns {system : RowId} (hSystem : system ∈ known) :
    Owns env sysdCustody txn known (configureDaemons config txn system) fun _ => [] := by
  rw [configureDaemons_eq]
  refine owns_calloc fun allocated => owns_ite (fun _ => ?_) fun _ => owns_unit
  refine owns_ite (fun _ => ?_) fun _ => finishConfiguration_owns hSystem
  refine (Owns.mapM _ fun daemon _ => sysdInitialDaemonAdd_owns daemon).bind_yields (yields_mapM _ _)
    fun daemons hCount => ?_
  have hOwn : system ∈ id daemons ++ known := List.mem_append_right _ hSystem
  refine owns_write hOwn (fun value hValue => ?_) (finishConfiguration_owns hOwn)
  rw [Slice.Stored.eq_array hValue hCount]
  exact List.subset_append_left _ _

/-- The initial configuration, from the System row on. -/
theorem configureSystem_owns {system : RowId} (hSystem : system ∈ known) :
    Owns env sysdCustody txn known (configureSystem config txn system) fun _ => [] := by
  rw [configureSystem]
  cases config.mgmtIntf with
  | none => exact owns_fault
  | some mgmtIntf =>
      refine owns_write_plain hSystem (fun _ => rfl) ?_
      refine (sysdConfigureDefaultBridge_owns hSystem).bind fun _ => ?_
      refine (sysdConfigureDefaultVrf_owns hSystem).bind fun _ => ?_
      cases config.subsystems.head? with
      | none => exact owns_fault
      | some base =>
          refine owns_write_plain hSystem (fun _ => rfl) (owns_write_plain hSystem (fun _ => rfl) ?_)
          refine owns_calloc fun allocated => owns_ite (fun _ => ?_) fun _ => owns_unit
          refine (Owns.mapM _ fun subsys _ => sysdInitialSubsystemAdd_owns subsys).bind_yields
            (yields_mapM _ _) fun subsystems hCount => ?_
          have hOwn : system ∈ id subsystems ++ known := List.mem_append_right subsystems hSystem
          refine owns_write hOwn (fun value hValue => ?_) (configureDaemons_owns hOwn)
          rw [Slice.Stored.eq_array hValue hCount]
          exact List.subset_append_left _ _

/-- The whole transaction with which a database is configured. -/
theorem sysdInitialConfigure_owns :
    Owns env sysdCustody txn known (sysdInitialConfigure config txn) fun _ => [] :=
  owns_insertRow fun _ => configureSystem_owns List.mem_cons_self

end Configuration
end OpsSysd.Daemon
