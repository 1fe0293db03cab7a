import OpsSysd.Daemon.Footprint
import OpsSysd.Daemon.Indexes
import OpsSysd.Daemon.QueueProfile
import OpsSysd.Daemon.ScheduleProfile

/-! The QoS and ACL parts of the initial configuration where the descriptions they
are made from are missing, or have been parsed in part. -/
namespace OpsSysd.Daemon

open CLib Interaction Interaction.Program Idl

/-- The QoS and ACL steps at the end of `sysd_initial_configure`. -/
def configureQosAcl (config : Config) (txn : TxnId) (system : RowId) : Program Calls Unit := do
  configureQos config txn system
  aclInitLimits config system

/-- Where rows can be inserted, the steps use no missing result and no index past
an array, and complete. -/
structure CompletesQosAcl {World : Type} (env : Environment World) (config : Config) (txn : TxnId) :
    Prop where
  noFault : ∀ system state, state.Opened txn → ∀ kind last,
    ¬ Reaches (step env.accepting) (configureQosAcl config txn system) state (.fault kind) last
  completes : ∀ system state, state.Opened txn →
    ∃ last, Exec (step env.accepting) (configureQosAcl config txn system) state () last

/-- A map is left out, or each entry that its count announces is there, with both
its strings, and has a row. -/
def MapSuffices (entries : YamlList MapEntry) (size : Nat) : Prop :=
  entries.get 0 = none ∨
    entries.unsignedCount ≤ size ∧ ∀ ii < entries.unsignedCount, entries.Settable ii

/-- The profiles are left out, or both names are there and the algorithm of every
entry that is there. -/
def ProfilesSuffice (config : Config) : Prop :=
  ∀ info, config.qosInfo = some info → (∃ names, info.Names names) ∧ config.SchedulesNamed

theorem profilesSuffice_of_none {config : Config} (h : config.qosInfo = none) : ProfilesSuffice config :=
  fun info hInfo => absurd (hInfo.symm.trans h) (Option.some_ne_none info)

/-- What the steps need of the descriptions. Nothing is asked of the trust, or of
the entries of the queue profile: there every missing item is looked for. -/
structure DescriptionsSuffice (config : Config) : Prop where
  aclInfo : config.aclInfo ≠ none
  cosMap : MapSuffices config.cosMap qosCosMapEntryCount
  dscpMap : MapSuffices config.dscpMap qosDscpMapEntryCount
  profiles : ProfilesSuffice config

section Steps

variable {World : Type} {env : Environment World} {permitted : State World → Request → Prop}
  {config : Config} {txn : TxnId}

theorem qosInitTrust_runs (admits : Admits env permitted) (system : RowId) :
    Runs env permitted txn (qosInitTrust config system) := by
  rw [qosInitTrust]
  cases config.qosInfo with
  | none => exact runs_done _
  | some info =>
      dsimp only
      cases info.trust with
      | none => exact runs_done _
      | some trust => exact (runs_read admits _ _).bind fun smap => runs_write admits _ _ _

theorem qosGetQueueProfileRow_runs (admits : Admits env permitted) (name : CString) :
    Runs env permitted txn (qosGetQueueProfileRow (some name)) :=
  Transforms.runs fun _ => qosGetQueueProfileRow_transforms admits name

theorem qosQueueProfileRowCommand_runs (admits : Admits env permitted) (name : CString)
    (entry : QueueProfileEntry) :
    Runs env permitted txn (qosQueueProfileRowCommand txn (some name) entry) := by
  have hInsert : ∀ profile, Runs env permitted txn
      (insertQueueProfileQueueRow profile entry.queue txn) := by
    intro profile
    refine (runs_insertRow admits _).bind fun queue => (runs_read admits _ _).bind fun entries => ?_
    exact (runs_write admits _ _ _).bind fun _ => runs_done _
  have hPriority : ∀ queue, Runs env permitted txn (addLocalPriority queue entry.localPriority) := by
    intro queue
    refine (runs_read admits _ _).bind fun priorities => ?_
    split
    · exact runs_done _
    · exact runs_write admits _ _ _
  have hQueue : ∀ queue, Runs env permitted txn (updateQueueRow entry queue) := by
    intro queue
    rw [updateQueueRow]
    refine (hPriority queue).bind fun _ => ?_
    cases entry.description with
    | none => exact runs_done _
    | some description => exact (runs_write admits _ _ _).bind fun _ => runs_done _
  rw [qosQueueProfileRowCommand]
  refine (qosGetQueueProfileRow_runs admits name).bind fun found => ?_
  cases found with
  | none => exact runs_done _
  | some profile =>
      refine (runs_read admits _ _).bind fun entries => ?_
      dsimp only
      cases queueRow entries entry.queue with
      | none => exact (hInsert profile).bind hQueue
      | some queue => exact hQueue queue

/-- Without a name, no profile is built. -/
theorem qosQueueProfileCreateFactoryDefault_stops (admits : Admits env permitted)
    (hNull : ∀ state, permitted state (.fault .nullPointer)) (db : Database) :
    Transforms env permitted txn (qosQueueProfileCreateFactoryDefault config txn none) db
      fun _ _ => False :=
  (qosQueueProfileCommand_stops admits hNull).bind fun _ _ => False.elim

/-- The profile is there afterwards, whether it was there before or not; missing
entries are passed over. -/
theorem qosQueueProfileCreateFactoryDefault_finds (admits : Admits env permitted) (name : CString)
    (db : Database) :
    Transforms env permitted txn (qosQueueProfileCreateFactoryDefault config txn (some name)) db
      fun _ after => queueKind.named after name ≠ none := by
  have hCommand : Transforms env permitted txn (qosQueueProfileCommand txn (some name)) db
      fun _ after => queueKind.named after name ≠ none := by
    cases hFound : queueKind.named db name with
    | none =>
        refine (qosQueueProfileCommand_transforms admits hFound).mono ?_
        rintro _ after ⟨profile, hAdded, hIds⟩
        have hName : queueKind.nameOf after profile = name := hAdded.holds.name
        rw [named_added hIds hAdded.frame, hFound, if_pos hName]
        exact Option.some_ne_none profile
    | some profile =>
        refine (qosGetQueueProfileRow_transforms admits name).bind ?_
        rintro _ _ ⟨rfl, rfl⟩
        rw [hFound]
        refine transforms_done ?_
        rw [hFound]
        exact Option.some_ne_none profile
  refine hCommand.bind fun _ middle hMiddle => ?_
  -- entries are added to a profile without its name being written
  have hLoop : ∀ program : Program Calls Unit, Runs env permitted txn program →
      program.Issues (Building QueueEntryColumn txn) → Transforms env permitted txn program middle
        fun _ after => queueKind.named after name ≠ none := by
    refine fun program hRuns hIssues => ((hRuns middle).and (transforms_building hIssues)).mono ?_
    intro _ after h
    rw [named_later (h.2.named .qProfile .qProfileName rfl id) h.2.frame fun _ => id]
    exact hMiddle
  refine hLoop _ (runs_forM _ fun ii => ?_) (Issues.forM fun ii _ => ?_)
  · cases config.queueProfile.get ii with
    | none => exact runs_done _
    | some entry => exact (qosQueueProfileRowCommand_runs admits name entry).bind fun _ => runs_done _
  · cases config.queueProfile.get ii with
    | none => trivial
    | some entry =>
        exact (builds_of_supplies (qosQueueProfileRowCommand_supplies (some name) entry)).bind
          fun _ => trivial

/-- The names of the profiles are used, the second where the first has been found. -/
theorem qosInitQueueProfile_runsIf (system : RowId) :
    RunsIf env txn (∀ info, config.qosInfo = some info → ∃ names, info.Names names)
      (qosInitQueueProfile config txn system) := by
  intro permitted admits hFault db
  rw [qosInitQueueProfile]
  cases hInfo : config.qosInfo with
  | none => exact transforms_done fun info hSome => absurd hSome.symm (Option.some_ne_none info)
  | some info =>
      obtain ⟨trust, defaultName, factoryDefaultName⟩ := info
      have hNull : (∀ names : ProfileNames, ¬ (defaultName = some names.defaultName ∧
          factoryDefaultName = some names.factoryDefaultName)) →
          ∀ state, permitted state (.fault .nullPointer) := by
        refine fun hNone state => hFault (fun h => ?_) state .nullPointer
        obtain ⟨names, hNames⟩ := h _ hInfo
        exact hNone names hNames
      cases defaultName with
      | none =>
          have hStop := hNull fun _ h => absurd h.1.symm (Option.some_ne_none _)
          exact (qosQueueProfileCreateFactoryDefault_stops admits hStop db).bind fun _ _ => False.elim
      | some defaultName =>
          refine (qosQueueProfileCreateFactoryDefault_finds admits defaultName db).bind ?_
          intro _ built hNamed
          refine (qosGetQueueProfileRow_transforms admits defaultName).bind ?_
          rintro _ _ ⟨rfl, rfl⟩
          obtain ⟨profile, hProfile⟩ := Option.ne_none_iff_exists'.mp hNamed
          rw [hProfile]
          refine transforms_write admits fun value _ => ?_
          cases factoryDefaultName with
          | none =>
              have hStop := hNull fun _ h => absurd h.2.symm (Option.some_ne_none _)
              exact (qosQueueProfileCreateFactoryDefault_stops admits hStop _).bind fun _ _ => False.elim
          | some factoryDefaultName =>
              have hNames : ∀ info : QosInfo,
                  some ⟨trust, some defaultName, some factoryDefaultName⟩ = some info →
                    ∃ names, info.Names names := by
                intro info hSome
                obtain rfl := Option.some.inj hSome
                exact ⟨⟨defaultName, factoryDefaultName⟩, rfl, rfl⟩
              refine (qosQueueProfileCreateFactoryDefault_finds admits factoryDefaultName _).bind ?_
              intro _ rebuilt _
              refine (qosGetQueueProfileRow_runs admits factoryDefaultName rebuilt).bind ?_
              intro found last _
              cases found with
              | none => exact transforms_done hNames
              | some factory =>
                  have hMarks : Runs env permitted txn (do
                      write factory .qProfileHwDefault ⟨[true], 1⟩
                      let entries ← read factory .qProfileQProfileEntries
                      forM entries fun entry => write entry.2 .qProfileEntryHwDefault ⟨[true], 1⟩) :=
                    (runs_write admits _ _ _).bind fun _ => (runs_read admits _ _).bind fun _ =>
                      runs_forM _ fun _ => runs_write admits _ _ _
                  exact (hMarks last).mono fun _ _ _ => hNames

/-- The same of the schedule profiles, whose entries have to have an algorithm. -/
theorem qosInitScheduleProfile_runsIf (system : RowId) :
    RunsIf env txn (ProfilesSuffice config) (qosInitScheduleProfile config txn system) := by
  intro permitted admits hFault db
  rw [qosInitScheduleProfile]
  cases hInfo : config.qosInfo with
  | none => exact transforms_done (profilesSuffice_of_none hInfo)
  | some info =>
      obtain ⟨trust, defaultName, factoryDefaultName⟩ := info
      have hNull : (∀ names : ProfileNames, ¬ (defaultName = some names.defaultName ∧
          factoryDefaultName = some names.factoryDefaultName)) ∨ ¬ config.SchedulesNamed →
          ∀ state, permitted state (.fault .nullPointer) := by
        refine fun hShort state => hFault (fun h => ?_) state .nullPointer
        obtain ⟨⟨names, hNames⟩, hAlgorithms⟩ := h _ hInfo
        exact hShort.elim (fun hNone => hNone names hNames) fun hUnnamed => hUnnamed hAlgorithms
      have hStops (hStop : ∀ state, permitted state (.fault .nullPointer)) (middle : Database) :
          Transforms env permitted txn (qosScheduleProfileCreateFactoryDefault config txn none) middle
            fun _ _ => False :=
        (qosScheduleProfileCommand_stops admits hStop).bind fun _ _ => False.elim
      cases defaultName with
      | none =>
          have hStop := hNull (.inl fun _ h => absurd h.1.symm (Option.some_ne_none _))
          exact (hStops hStop db).bind fun _ _ => False.elim
      | some defaultName =>
          refine (qosScheduleProfileCreateFactoryDefault_transforms admits rfl
            fun hUnnamed => hNull (.inr hUnnamed)).bind ?_
          rintro _ built ⟨hAlgorithms, profile, hReset⟩
          refine (qosGetScheduleProfileRow_transforms admits (config.header .queueAlgorithmStrict)
            defaultName).bind ?_
          rintro _ _ ⟨rfl, rfl⟩
          rw [hReset.named]
          refine transforms_write admits fun value _ => ?_
          cases factoryDefaultName with
          | none =>
              have hStop := hNull (.inl fun _ h => absurd h.2.symm (Option.some_ne_none _))
              exact (hStops hStop _).bind fun _ _ => False.elim
          | some factoryDefaultName =>
              have hNames : ProfilesSuffice config := by
                intro info hSome
                obtain rfl := Option.some.inj (hInfo.symm.trans hSome)
                exact ⟨⟨⟨defaultName, factoryDefaultName⟩, rfl, rfl⟩, hAlgorithms⟩
              refine (qosScheduleProfileCreateFactoryDefault_transforms admits rfl
                (absurd hAlgorithms)).bind ?_
              rintro _ rebuilt ⟨-, factory, hFactory⟩
              refine (qosGetScheduleProfileRow_transforms admits (config.header .queueAlgorithmStrict)
                factoryDefaultName).bind ?_
              rintro _ last ⟨rfl, rfl⟩
              rw [hFactory.named]
              have hMarks : Runs env permitted txn (do
                  write factory .qosHwDefault ⟨[true], 1⟩
                  let queues ← read factory .qosQueues
                  forM queues fun queue => write queue.2 .queueHwDefault ⟨[true], 1⟩) :=
                (runs_write admits _ _ _).bind fun _ => (runs_read admits _ _).bind fun _ =>
                  runs_forM _ fun _ => runs_write admits _ _ _
              exact (hMarks last).mono fun _ _ _ => hNames

/-- An entry that is missing or incomplete is used, and so is one without a row. -/
theorem qosInitMap_runsIf {columns : MapColumns} (hColumns : columns.Distinct)
    (entries : YamlList MapEntry) (table : Table) (size : Nat) (listed : ColumnOf .references)
    (system : RowId) : RunsIf env txn (MapSuffices entries size)
      (qosInitMap entries (setMapEntry columns) txn table size listed system) := by
  intro permitted admits hFault db
  rw [qosInitMap]
  by_cases hFirst : (entries.get 0).isSome
  case neg =>
    rw [if_neg hFirst]
    exact transforms_done (.inl (Option.not_isSome_iff_eq_none.mp hFirst))
  have hSome : entries.get 0 ≠ none := Option.isSome_iff_ne_none.mp hFirst
  have hFaults : LoopFaults permitted entries size entries.unsignedCount := by
    refine ⟨fun ii hIndex _ hPast => ?_, fun ii hIndex hUnset => ?_⟩
    · refine fun state => hFault (fun h => ?_) state .outOfBounds
      exact Nat.not_lt.mpr hPast (Nat.lt_of_lt_of_le hIndex (h.resolve_left hSome).1)
    · refine fun state => hFault (fun h => ?_) state .nullPointer
      exact hUnset ((h.resolve_left hSome).2 ii hIndex)
  rw [if_pos hFirst]
  refine (transforms_mapM_insertRow admits (List.range size) table).bind ?_
  rintro mapRows middle ⟨hLength, hInserted⟩
  rw [List.length_range] at hLength
  rw [initDefaultMap_eq]
  refine (initMapEntries_transforms admits hColumns hInserted.distinct hInserted.present
    (hLength ▸ hFaults)).bind fun _ last hLast => ?_
  refine transforms_write admits fun _ _ => transforms_done (.inr ⟨?_, fun _ => hLast.filled.settable⟩)
  refine Nat.le_of_not_lt fun hPast => ?_
  obtain ⟨row, _, hRow, -⟩ := hLast.filled size hPast
  exact Nat.lt_irrefl size (hLength ▸ (List.getElem?_eq_some_iff.mp hRow).1)

theorem aclInitLimits_runsIf (system : RowId) :
    RunsIf env txn (config.aclInfo ≠ none) (aclInitLimits config system) := by
  intro permitted admits hFault db
  rw [aclInitLimits]
  cases hAcl : config.aclInfo with
  | none => exact fun state _ _ => safe_fault.mpr (hFault (fun h => h hAcl) state .nullPointer)
  | some aclInfo =>
      refine transforms_read admits (transforms_write admits fun _ _ => transforms_done ?_)
      exact Option.some_ne_none aclInfo

theorem configureQos_runsIf (system : RowId) :
    RunsIf env txn (MapSuffices config.dscpMap qosDscpMapEntryCount ∧
      MapSuffices config.cosMap qosCosMapEntryCount ∧ ProfilesSuffice config)
      (configureQos config txn system) := by
  have hTrust : RunsIf env txn True (qosInitTrust config system) :=
    runsIf_of_runs fun _ admits => qosInitTrust_runs admits system
  have hDscp : RunsIf env txn (MapSuffices config.dscpMap qosDscpMapEntryCount)
      (qosInitDscpMap config txn system) :=
    qosInitMap_runsIf dscpMapColumns_distinct config.dscpMap .qosDscpMapEntry qosDscpMapEntryCount
      ⟨.systemQosDscpMapEntries, rfl⟩ system
  have hCos : RunsIf env txn (MapSuffices config.cosMap qosCosMapEntryCount)
      (qosInitCosMap config txn system) :=
    qosInitMap_runsIf cosMapColumns_distinct config.cosMap .qosCosMapEntry qosCosMapEntryCount
      ⟨.systemQosCosMapEntries, rfl⟩ system
  have hProfiles : RunsIf env txn (ProfilesSuffice config) (do
      qosInitQueueProfile config txn system
      qosInitScheduleProfile config txn system) := by
    refine ((qosInitQueueProfile_runsIf system).bind fun _ =>
      qosInitScheduleProfile_runsIf system).congr ⟨And.right, fun h => ⟨?_, h⟩⟩
    exact fun info hInfo => (h info hInfo).1
  exact (hTrust.bind fun _ => hDscp.bind fun _ => hCos.bind fun _ => hProfiles).congr
    ⟨And.right, And.intro trivial⟩

/-- The steps run exactly where the descriptions suffice. -/
theorem configureQosAcl_runsIf (system : RowId) :
    RunsIf env txn (DescriptionsSuffice config) (configureQosAcl config txn system) :=
  ((configureQos_runsIf system).bind fun _ => aclInitLimits_runsIf system).congr
    ⟨fun h => ⟨h.2, h.1.2.1, h.1.1, h.1.2.2⟩, fun h => ⟨⟨h.dscpMap, h.cosMap, h.profiles⟩, h.aclInfo⟩⟩

end Steps

section Completes

variable {World : Type} {env : Environment World} {config : Config} {txn : TxnId}
  {state : State World} {system : RowId}

/-- The steps complete exactly where the descriptions suffice. -/
theorem completesQosAcl_iff (total : env.Total) (hOpen : state.Opened txn) :
    CompletesQosAcl env config txn ↔ DescriptionsSuffice config := by
  constructor
  · intro hCompletes
    obtain ⟨last, hExec⟩ := hCompletes.completes 0 state hOpen
    exact (configureQosAcl_runsIf 0).of_exec hOpen hExec
  · intro hSuffices
    have hRuns (system : RowId) : Runs env.accepting Disciplined txn (configureQosAcl config txn system) :=
      (configureQosAcl_runsIf system).runs admits_accepting hSuffices
    refine ⟨fun system state hOpen kind last hReaches => ?_, fun system state hOpen => ?_⟩
    · have hPermitted := (safe_iff.mp (hRuns system state.view state hOpen rfl)).1 _ _ hReaches
      exact hPermitted
    · obtain ⟨⟨⟩, last, hExec, -⟩ := (hRuns system state.view state hOpen rfl).exec (step_total total.accepting)
      exact ⟨last, hExec⟩

/-- A switch whose ACL description could not be parsed. -/
def noAclConfig : Config := { Config.onePort [] with aclInfo := none }

theorem noAclConfig_completesQosAcl_iff :
    CompletesQosAcl anyEnv noAclConfig 0 ↔ DescriptionsSuffice noAclConfig :=
  completesQosAcl_iff anyEnv_total configuring_opened

/-- The limits are taken from the missing description. -/
theorem noAclConfig_faults : ¬ CompletesQosAcl anyEnv noAclConfig 0 := by
  intro hCompletes
  obtain ⟨last, hExec⟩ := hCompletes.completes 0 configuring configuring_opened
  exact ((configureQosAcl_runsIf 0).of_exec configuring_opened hExec).aclInfo rfl

end Completes
end OpsSysd.Daemon
