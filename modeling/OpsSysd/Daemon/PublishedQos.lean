import OpsSysd.Daemon.MissingDescriptions

/-! The QoS rows that the initial configuration leaves, for any description that it
gets to the end of: the trust, the two maps and the four profiles. -/
namespace OpsSysd.Daemon

open CLib Interaction Interaction.Program Idl

/-- The System row lists as many rows as the map has, and every entry of the
description has been given to one of them. -/
structure MapListed (columns : MapColumns) (size : Nat) (entries : YamlList MapEntry)
    (mapRows : List RowId) (db : Database) : Prop where
  size : mapRows.length = size
  distinct : mapRows.Nodup
  present : ∀ row ∈ mapRows, db.Exists row
  filled : MapFilled columns entries entries.unsignedCount mapRows db

/-- The trust of the description is in the System row. -/
def TrustPublished (config : Config) (system : RowId) (db : Database) : Prop :=
  ∀ info trust, config.qosInfo = some info → info.trust = some trust →
    (db.get system .systemQosConfig).lookup qosTrustKey = some trust

/-- The queue profiles are the description's, where they were not there before. -/
def QueueProfilesWhole (config : Config) (system : RowId) (before db : Database) : Prop :=
  ∀ info names, config.qosInfo = some info → info.Names names →
    names.defaultName ≠ names.factoryDefaultName →
    queueKind.named before names.defaultName = none →
    queueKind.named before names.factoryDefaultName = none →
    ∃ default factory, QueueProfilesPublished names
      (config.queueProfile.items config.queueProfile.unsignedCount) system default factory db

/-- And so are the schedule profiles, where the default profile was not marked before. -/
def ScheduleProfilesWhole (config : Config) (system : RowId) (before db : Database) : Prop :=
  ∀ info names, config.qosInfo = some info → info.Names names →
    names.defaultName ≠ names.factoryDefaultName →
    (∀ row, (scheduleKind (config.header .queueAlgorithmStrict)).named before names.defaultName =
      some row → true ∉ before.get row .qosHwDefault) →
    ∃ default factory, ScheduleProfilesPublished (config.header .queueAlgorithmStrict) names
      (config.scheduleProfile.items config.scheduleProfile.count.toNat) system before default factory db

/-- All of the description's QoS is in the database. -/
structure WholeQos (config : Config) (system : RowId) (before db : Database) : Prop where
  trust : TrustPublished config system db
  dscpMap : (config.dscpMap.get 0).isSome → MapListed dscpMapColumns qosDscpMapEntryCount config.dscpMap
    (db.get system .systemQosDscpMapEntries) db
  cosMap : (config.cosMap.get 0).isSome → MapListed cosMapColumns qosCosMapEntryCount config.cosMap
    (db.get system .systemQosCosMapEntries) db
  profiles : ProfilesSuffice config
  queueProfiles : QueueProfilesWhole config system before db
  scheduleProfiles : ScheduleProfilesWhole config system before db

section Kept

variable {before middle after db : Database} {touched : RowId → Column → Prop} {columns : Column → Prop}
  {config : Config} {system : RowId}

/-- No row of this table is added, and none of these columns is written. -/
structure TableKept (table : Table) (cells : List Column) (before after : Database) : Prop where
  ids : after.ids table = before.ids table
  frame : before.Extends (fun _ column => column ∉ cells) after

/-- What is kept twice is kept. -/
theorem TableKept.trans {table : Table} {cells : List Column} (first : TableKept table cells before middle)
    (second : TableKept table cells middle after) : TableKept table cells before after where
  ids := second.ids.trans first.ids
  frame := first.frame.trans second.frame fun _ _ _ h => h

/-- A table is kept if neither its names nor its cells are among the columns. -/
theorem tableKept_of_built {table : Table} {name : Column} {cells : List Column}
    (h : Built columns before after) (hName : table.nameColumn = some name)
    (hCells : ∀ column ∈ name :: cells, ¬ columns column) :
    TableKept table (name :: cells) before after where
  ids := h.named table name hName (hCells name List.mem_cons_self)
  frame := h.frame.mono fun _ column _ hColumn hMem => hCells column hMem hColumn

/-- A row of another table leaves it as it is. -/
theorem tableKept_insert {row : RowId} {table other : Table} {cells : List Column} (hFresh : ¬ db.Exists row)
    (hTable : other ≠ table) : TableKept table cells db ((Op.insert row other).apply db) where
  ids := ids_insert_other hTable
  frame := (extends_insert hFresh).mono fun _ _ _ => False.elim

/-- No profile is added, renamed or marked. -/
structure KeepsProfiles (before after : Database) : Prop where
  queue : TableKept .qProfile [.qProfileName] before after
  schedule : TableKept .qos [.qosName, .qosHwDefault] before after

theorem KeepsProfiles.trans (first : KeepsProfiles before middle) (second : KeepsProfiles middle after) :
    KeepsProfiles before after :=
  ⟨first.queue.trans second.queue, first.schedule.trans second.schedule⟩

theorem keepsProfiles_of_built (h : Built columns before after) (hProfile : ¬ columns .qProfileName)
    (hQos : ¬ columns .qosName) (hMark : ¬ columns .qosHwDefault) : KeepsProfiles before after where
  queue := tableKept_of_built h rfl (List.forall_mem_singleton.mpr hProfile)
  schedule := tableKept_of_built h rfl (List.forall_mem_cons.mpr ⟨hQos, List.forall_mem_singleton.mpr hMark⟩)

theorem keepsProfiles_insert {row : RowId} {table : Table} (hFresh : ¬ db.Exists row)
    (hQueue : table ≠ .qProfile) (hSchedule : table ≠ .qos) :
    KeepsProfiles db ((Op.insert row table).apply db) :=
  ⟨tableKept_insert hFresh hQueue, tableKept_insert hFresh hSchedule⟩

/-- Whole profiles are so in view of an earlier database with the same names. -/
theorem QueueProfilesWhole.earlier (h : QueueProfilesWhole config system middle db)
    (hKeeps : TableKept .qProfile [.qProfileName] before middle) :
    QueueProfilesWhole config system before db := by
  have hNamed (wanted : CString) : queueKind.named middle wanted = queueKind.named before wanted :=
    named_later hKeeps.ids hKeeps.frame fun _ hSame => hSame List.mem_cons_self
  intro info names hInfo hNames hDistinct hDefault hFactory
  exact h info names hInfo hNames hDistinct ((hNamed _).trans hDefault) ((hNamed _).trans hFactory)

theorem ScheduleProfile.earlier {strict : CString} {entries : List ScheduleProfileEntry}
    {profile : RowId} (h : ScheduleProfile strict entries middle profile db)
    (hFrame : before.Extends touched middle) : ScheduleProfile strict entries before profile db where
  maps := h.maps
  present := h.present
  fresh pair hPair hOld := h.fresh pair hPair (hFrame.exists_of _ hOld)
  rows := h.rows

theorem ScheduleProfilesWhole.earlier (h : ScheduleProfilesWhole config system middle db)
    (hKeeps : TableKept .qos [.qosName, .qosHwDefault] before middle) :
    ScheduleProfilesWhole config system before db := by
  have hNamed (strict wanted : CString) :
      (scheduleKind strict).named middle wanted = (scheduleKind strict).named before wanted :=
    named_later hKeeps.ids hKeeps.frame fun _ hSame => hSame List.mem_cons_self
  intro info names hInfo hNames hDistinct hUnmarked
  obtain ⟨default, factory, hPublished⟩ := h info names hInfo hNames hDistinct fun row hRow => by
    rw [hNamed] at hRow
    have hSame : middle.get row .qosHwDefault = before.get row .qosHwDefault :=
      hKeeps.frame.get_eq row .qosHwDefault (exists_named hRow) fun hSame => hSame (by decide)
    exact hSame ▸ hUnmarked row hRow
  exact ⟨default, factory, { hPublished with
    defaultProfile := hPublished.defaultProfile.earlier hKeeps.frame
    factoryProfile := hPublished.factoryProfile.earlier hKeeps.frame }⟩

/-- What was done to other tables before does not matter. -/
theorem WholeQos.earlier (h : WholeQos config system middle db) (hKeeps : KeepsProfiles before middle) :
    WholeQos config system before db :=
  { h with
    queueProfiles := h.queueProfiles.earlier hKeeps.queue
    scheduleProfiles := h.scheduleProfiles.earlier hKeeps.schedule }

/-- A map stays as it is while neither its columns nor the one that lists it are
written. -/
theorem MapListed.later {mapColumns : MapColumns} {size : Nat} {entries : YamlList MapEntry}
    {mapRows : List RowId} (h : MapListed mapColumns size entries mapRows db)
    (hLater : db.Extends touched after) (hColumns : ∀ id, ∀ column ∈ mapColumns.all, ¬ touched id column) :
    MapListed mapColumns size entries mapRows after where
  size := h.size
  distinct := h.distinct
  present row hRow := hLater.exists_of row (h.present row hRow)
  filled := h.filled.later fun row hRow => mapRow_congr fun column hColumn =>
    hLater.get_eq row column (h.present row hRow) (hColumns row column hColumn)

/-- Published profiles stay so when other columns are written. -/
theorem QueueProfilesPublished.later {names : ProfileNames} {entries : List QueueProfileEntry}
    {default factory : RowId} (h : QueueProfilesPublished names entries system default factory db)
    (hSystem : db.Exists system) (hBuilt : Built columns db after)
    (hColumns : ∀ column, QueueColumn column → ¬ columns column) :
    QueueProfilesPublished names entries system default factory after := by
  have hNamed (wanted : CString) : queueKind.named after wanted = queueKind.named db wanted :=
    named_later (hBuilt.named .qProfile .qProfileName rfl (hColumns .qProfileName trivial)) hBuilt.frame
      fun _ => hColumns .qProfileName trivial
  have hDefaultRow : db.Exists default := exists_named h.defaultNamed
  have hFactoryRow : db.Exists factory := exists_named h.factoryNamed
  have hRows : ¬ columns .qProfileEntryLocalPriorities ∧ ¬ columns .qProfileEntryDescription :=
    ⟨hColumns .qProfileEntryLocalPriorities trivial, hColumns .qProfileEntryDescription trivial⟩
  have hMark := hColumns .qProfileHwDefault trivial
  have hRowMark := hColumns .qProfileEntryHwDefault trivial
  obtain ⟨hDefaultQueues, hDefault⟩ := h.defaultProfile.later hDefaultRow hBuilt.frame
    (hColumns .qProfileQProfileEntries trivial) fun _ _ => hRows
  obtain ⟨hFactoryQueues, hFactory⟩ := h.factoryProfile.later hFactoryRow hBuilt.frame
    (hColumns .qProfileQProfileEntries trivial) fun _ _ => hRows
  refine ⟨(hNamed _).trans h.defaultNamed, (hNamed _).trans h.factoryNamed, hDefault, hFactory, ?_,
    ⟨?_, ?_⟩, ⟨?_, ?_⟩, ?_⟩
  · rw [hDefaultQueues, hFactoryQueues]
    exact h.apart
  · exact (hBuilt.get_eq hFactoryRow hMark).trans h.factoryMarked.1
  · rw [hFactoryQueues]
    intro pair hPair
    exact (hBuilt.get_eq (h.factoryProfile.present pair hPair) hRowMark).trans
      (h.factoryMarked.2 pair hPair)
  · exact (hBuilt.get_eq hDefaultRow hMark).trans h.defaultUnmarked.1
  · rw [hDefaultQueues]
    intro pair hPair
    exact (hBuilt.get_eq (h.defaultProfile.present pair hPair) hRowMark).trans
      (h.defaultUnmarked.2 pair hPair)
  · exact (hBuilt.get_eq hSystem (hColumns .systemQProfile trivial)).trans h.system

theorem ScheduleProfilesPublished.later {strict : CString} {names : ProfileNames}
    {entries : List ScheduleProfileEntry} {default factory : RowId}
    (h : ScheduleProfilesPublished strict names entries system before default factory db)
    (hSystem : db.Exists system) (hBuilt : Built columns db after)
    (hColumns : ∀ column, ScheduleColumn column → ¬ columns column) :
    ScheduleProfilesPublished strict names entries system before default factory after := by
  have hNamed (wanted : CString) :
      (scheduleKind strict).named after wanted = (scheduleKind strict).named db wanted :=
    named_later (hBuilt.named .qos .qosName rfl (hColumns .qosName trivial)) hBuilt.frame
      fun _ => hColumns .qosName trivial
  have hDefaultRow : db.Exists default := exists_named h.defaultNamed
  have hFactoryRow : db.Exists factory := exists_named h.factoryNamed
  have hRows : ¬ columns .queueAlgorithm ∧ ¬ columns .queueWeight :=
    ⟨hColumns .queueAlgorithm trivial, hColumns .queueWeight trivial⟩
  have hMark := hColumns .qosHwDefault trivial
  have hRowMark := hColumns .queueHwDefault trivial
  obtain ⟨hDefaultQueues, hDefault⟩ := h.defaultProfile.later hDefaultRow hBuilt.frame
    (hColumns .qosQueues trivial) fun _ _ => hRows
  obtain ⟨hFactoryQueues, hFactory⟩ := h.factoryProfile.later hFactoryRow hBuilt.frame
    (hColumns .qosQueues trivial) fun _ _ => hRows
  refine ⟨(hNamed _).trans h.defaultNamed, (hNamed _).trans h.factoryNamed, hDefault, hFactory, ?_,
    ⟨?_, ?_⟩, ⟨?_, ?_⟩, ?_⟩
  · rw [hDefaultQueues, hFactoryQueues]
    exact h.apart
  · exact (hBuilt.get_eq hFactoryRow hMark).trans h.factoryMarked.1
  · rw [hFactoryQueues]
    intro pair hPair
    exact (hBuilt.get_eq (h.factoryProfile.present pair hPair) hRowMark).trans
      (h.factoryMarked.2 pair hPair)
  · rw [hBuilt.get_eq hDefaultRow hMark]
    exact h.defaultUnmarked.1
  · rw [hDefaultQueues]
    intro pair hPair
    exact (hBuilt.get_eq (h.defaultProfile.present pair hPair) hRowMark).trans
      (h.defaultUnmarked.2 pair hPair)
  · exact (hBuilt.get_eq hSystem (hColumns .systemQos trivial)).trans h.system

/-- What fills other columns leaves the QoS whole. -/
theorem WholeQos.later (h : WholeQos config system before db) (hSystem : db.Exists system)
    (hBuilt : Built columns db after) (hColumns : ∀ column, QosColumn column → ¬ columns column) :
    WholeQos config system before after where
  trust info trust hInfo hTrust := by
    rw [hBuilt.get_eq hSystem (hColumns .systemQosConfig trivial)]
    exact h.trust info trust hInfo hTrust
  dscpMap hFirst := by
    rw [hBuilt.get_eq hSystem (hColumns .systemQosDscpMapEntries trivial)]
    exact (h.dscpMap hFirst).later hBuilt.frame fun _ column hColumn =>
      hColumns column (dscpMapColumns_within column hColumn).qos
  cosMap hFirst := by
    rw [hBuilt.get_eq hSystem (hColumns .systemQosCosMapEntries trivial)]
    exact (h.cosMap hFirst).later hBuilt.frame fun _ column hColumn =>
      hColumns column (cosMapColumns_within column hColumn).qos
  profiles := h.profiles
  queueProfiles info names hInfo hNames hDistinct hDefault hFactory := by
    obtain ⟨default, factory, hPublished⟩ :=
      h.queueProfiles info names hInfo hNames hDistinct hDefault hFactory
    exact ⟨default, factory, hPublished.later hSystem hBuilt fun column hColumn =>
      hColumns column hColumn.qos⟩
  scheduleProfiles info names hInfo hNames hDistinct hUnmarked := by
    obtain ⟨default, factory, hPublished⟩ :=
      h.scheduleProfiles info names hInfo hNames hDistinct hUnmarked
    exact ⟨default, factory, hPublished.later hSystem hBuilt fun column hColumn =>
      hColumns column hColumn.qos⟩

end Kept

section Steps

variable {World : Type} {env : Environment World} {config : Config} {txn : TxnId} {system : RowId}
  {db : Database}

/-- The trust is published. -/
theorem qosInitTrust_publishes (hSystem : db.Exists system) :
    Transforms env (fun _ _ => True) txn (qosInitTrust config system) db fun _ after =>
      TrustPublished config system after := by
  rw [qosInitTrust]
  cases hInfo : config.qosInfo with
  | none =>
      exact transforms_done fun info _ hSome => absurd (hSome.symm.trans hInfo) (Option.some_ne_none info)
  | some info =>
      obtain ⟨trust, defaultName, factoryDefaultName⟩ := info
      cases trust with
      | none =>
          refine transforms_done ?_
          intro other trust hSome hTrust
          obtain rfl := Option.some.inj (hInfo.symm.trans hSome)
          exact absurd hTrust.symm (Option.some_ne_none trust)
      | some trust =>
          refine transforms_read (admits_any env) ?_
          refine transforms_assign (admits_any env) (fun _ hStored => hStored) (transforms_done ?_)
          intro other otherTrust hSome hTrust
          obtain rfl := Option.some.inj (hInfo.symm.trans hSome)
          obtain rfl := Option.some.inj hTrust
          rw [get_write_same hSystem, lookup_replace_same]

/-- A map is listed, and of the rows that were there only the System row is written. -/
theorem qosInitMap_lists {columns : MapColumns} {entries : YamlList MapEntry}
    (hColumns : columns.Distinct) (table : Table) (size : Nat) (listed : ColumnOf .references)
    (hSystem : db.Exists system) :
    Transforms env (fun _ _ => True) txn
      (qosInitMap entries (setMapEntry columns) txn table size listed system) db fun _ after =>
        db.Extends (fun id column => id = system ∧ column = listed.column) after ∧
          ((entries.get 0).isSome → MapListed columns size entries
            (listed.value (after.get system listed.column)) after) := by
  by_cases hFirst : (entries.get 0).isSome
  · refine (qosInitMap_transforms (admits_any env) hColumns hFirst ⟨fun _ _ _ _ _ => trivial,
      fun _ _ _ _ => trivial⟩ table listed hSystem).mono fun _ after h => ⟨h.frame, fun _ => ?_⟩
    exact ⟨h.size, h.distinct, h.present, h.filled⟩
  · rw [qosInitMap, if_neg hFirst]
    exact transforms_done ⟨.refl _ _, fun hSome => absurd hSome hFirst⟩

/-- So are the queue profiles. -/
theorem qosInitQueueProfile_publishes (hSystem : db.Exists system) :
    Transforms env (fun _ _ => True) txn (qosInitQueueProfile config txn system) db fun _ after =>
      Built QueueColumn db after ∧ QueueProfilesWhole config system db after := by
  have hIssues : (qosInitQueueProfile config txn system).Issues (Building QueueColumn txn) :=
    builds_of_supplies (qosInitQueueProfile_supplies system)
  refine (transforms_building hIssues).strengthen ?_
  rintro state hOpen rfl _ after hExec info names hInfo hNames hDistinct hDefault hFactory
  have hPublishes : Transforms env (fun _ _ => True) txn (qosInitQueueProfile config txn system)
      state.view _ :=
    qosInitQueueProfile_transforms (admits_any env) hInfo hNames hDistinct hDefault hFactory hSystem
  exact (hPublishes.of_exec hOpen hExec).2

/-- And the schedule profiles. -/
theorem qosInitScheduleProfile_publishes (hProfiles : ProfilesSuffice config)
    (hSystem : db.Exists system) :
    Transforms env (fun _ _ => True) txn (qosInitScheduleProfile config txn system) db fun _ after =>
      Built ScheduleColumn db after ∧ ScheduleProfilesWhole config system db after := by
  have hIssues : (qosInitScheduleProfile config txn system).Issues (Building ScheduleColumn txn) :=
    builds_of_supplies (qosInitScheduleProfile_supplies system)
  refine (transforms_building hIssues).strengthen ?_
  rintro state hOpen rfl _ after hExec info names hInfo hNames hDistinct hUnmarked
  have hPublishes : Transforms env (fun _ _ => True) txn (qosInitScheduleProfile config txn system)
      state.view _ :=
    qosInitScheduleProfile_transforms (admits_any env) hInfo hNames (hProfiles info hInfo).2 hDistinct
      rfl hUnmarked hSystem
  exact (hPublishes.of_exec hOpen hExec).2

/-- A QoS part that is carried out to its end leaves the whole QoS. -/
theorem configureQos_publishes (hSystem : db.Exists system) :
    Transforms env (fun _ _ => True) txn (configureQos config txn system) db fun _ after =>
      WholeQos config system db after := by
  by_cases hProfiles : ProfilesSuffice config
  case neg =>
    refine (configureQos_runsIf system _ (admits_any env) (fun _ _ _ => trivial) db).mono ?_
    exact fun _ _ h => absurd h.2.2 hProfiles
  have hTrustIssues : (qosInitTrust config system).Issues (Building (· = .systemQosConfig) txn) :=
    builds_of_supplies (qosInitTrust_supplies system)
  have hDscpIssues : (qosInitDscpMap config txn system).Issues (Building MapColumn txn) :=
    builds_of_supplies (qosInitDscpMap_supplies system)
  have hCosIssues : (qosInitCosMap config txn system).Issues (Building MapColumn txn) :=
    builds_of_supplies (qosInitCosMap_supplies system)
  rw [configureQos]
  refine ((qosInitTrust_publishes hSystem).and (transforms_building hTrustIssues)).bind ?_
  rintro _ first ⟨hTrust, hFirst⟩
  have hSystem₁ := hFirst.frame.exists_of system hSystem
  refine ((qosInitMap_lists dscpMapColumns_distinct .qosDscpMapEntry qosDscpMapEntryCount
    ⟨.systemQosDscpMapEntries, rfl⟩ hSystem₁).and (transforms_building hDscpIssues)).bind ?_
  rintro _ second ⟨⟨-, hDscp⟩, hSecond⟩
  have hSystem₂ := hSecond.frame.exists_of system hSystem₁
  refine ((qosInitMap_lists cosMapColumns_distinct .qosCosMapEntry qosCosMapEntryCount
    ⟨.systemQosCosMapEntries, rfl⟩ hSystem₂).and (transforms_building hCosIssues)).bind ?_
  rintro _ third ⟨⟨hListed, hCos⟩, hThird⟩
  have hSystem₃ := hThird.frame.exists_of system hSystem₂
  refine (qosInitQueueProfile_publishes hSystem₃).bind ?_
  rintro _ fourth ⟨hFourth, hQueue⟩
  have hSystem₄ := hFourth.frame.exists_of system hSystem₃
  refine (qosInitScheduleProfile_publishes hProfiles hSystem₄).mono ?_
  rintro _ after ⟨hAfter, hSchedule⟩
  -- what the profiles are built on, and what they leave
  have hKeeps : KeepsProfiles db third := (keepsProfiles_of_built hFirst (by simp) (by simp)
    (by simp)).trans
    ((keepsProfiles_of_built hSecond id id id).trans (keepsProfiles_of_built hThird id id id))
  have hProfileColumns : Built (fun column => QueueColumn column ∨ ScheduleColumn column) third after :=
    (hFourth.mono fun _ => .inl).trans (hAfter.mono fun _ => .inr)
  have hNoMap : ∀ column, MapColumn column → ¬ (QueueColumn column ∨ ScheduleColumn column) := by
    intro column hColumn
    cases column with
    | systemQosCosMapEntries | systemQosDscpMapEntries
    | qosCosMapEntryCodePoint | qosCosMapEntryLocalPriority | qosCosMapEntryColor
    | qosCosMapEntryDescription | qosCosMapEntryHwDefaults
    | qosDscpMapEntryCodePoint | qosDscpMapEntryLocalPriority | qosDscpMapEntryColor
    | qosDscpMapEntryDescription | qosDscpMapEntryHwDefaults => exact fun h => h.elim id id
    | _ => exact hColumn.elim
  refine ⟨?_, fun hSome => ?_, fun hSome => ?_, hProfiles, ?_, ?_⟩
  · intro info trust hInfo hSome
    rw [hProfileColumns.get_eq hSystem₃ (fun h => h.elim id id), hThird.get_eq hSystem₂ id,
      hSecond.get_eq hSystem₁ id]
    exact hTrust info trust hInfo hSome
  · have hKept : third.get system .systemQosDscpMapEntries = second.get system .systemQosDscpMapEntries :=
      hListed.get_eq _ _ hSystem₂ fun hSame => by cases hSame.2
    rw [hProfileColumns.get_eq hSystem₃ (hNoMap .systemQosDscpMapEntries trivial), hKept]
    refine ((hDscp hSome).later hListed ?_).later hProfileColumns.frame fun _ column hColumn =>
      hNoMap column (dscpMapColumns_within column hColumn)
    rintro id column hColumn ⟨-, rfl⟩
    simp [MapColumns.all, dscpMapColumns] at hColumn
  · rw [hProfileColumns.get_eq hSystem₃ (hNoMap .systemQosCosMapEntries trivial)]
    exact (hCos hSome).later hProfileColumns.frame fun _ column hColumn =>
      hNoMap column (cosMapColumns_within column hColumn)
  · intro info names hInfo hNames hDistinct hDefault hFactory
    obtain ⟨default, factory, hPublished⟩ :=
      hQueue.earlier hKeeps.queue info names hInfo hNames hDistinct hDefault hFactory
    refine ⟨default, factory, hPublished.later hSystem₄ hAfter fun column hColumn hOther => ?_⟩
    cases column with
    | systemQos | qosName | qosQueues | qosHwDefault | queueAlgorithm | queueWeight
    | queueHwDefault => exact hColumn
    | _ => exact hOther
  · refine hSchedule.earlier (hKeeps.schedule.trans (tableKept_of_built hFourth rfl ?_))
    simp [QueueColumn]

end Steps
end OpsSysd.Daemon
