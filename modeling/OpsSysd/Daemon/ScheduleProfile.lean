import OpsSysd.Daemon.Profiles

/-! The schedule profiles of the initial configuration. Whatever queues a profile
mapped before, it is emptied and built from the entries of the description. -/
namespace OpsSysd.Daemon

open CLib Interaction Interaction.Program Idl

/-- The row of a queue holds an entry: a strict queue has no weight. -/
structure SchedulesAs (strict : CString) (entry : ScheduleProfileEntry) (row : RowId) (db : Database) :
    Prop where
  algorithm : entry.algorithm = some (db.get row .queueAlgorithm)
  weight : db.get row .queueWeight = if entry.algorithm = some strict then [] else [entry.weight]

/-- A row as the rows of a profile under construction are: the last entry counts. -/
structure ScheduleRow (strict : CString) (entries : List ScheduleProfileEntry) (row : RowId)
    (db : Database) : Prop where
  last : ∀ entry, entries.getLast? = some entry → SchedulesAs strict entry row db
  unmarked : db.get row .queueHwDefault = []

theorem SchedulesAs.of_get_eq {strict : CString} {entry : ScheduleProfileEntry} {row : RowId}
    {before after : Database} (h : SchedulesAs strict entry row before)
    (hAlgorithm : after.get row .queueAlgorithm = before.get row .queueAlgorithm)
    (hWeight : after.get row .queueWeight = before.get row .queueWeight) :
    SchedulesAs strict entry row after :=
  ⟨h.algorithm.trans (congrArg some hAlgorithm.symm), hWeight.trans h.weight⟩

def scheduleKind (strict : CString) : ProfileKind ScheduleProfileEntry where
  table := .qos
  nameColumn := .qosName
  queuesColumn := .qosQueues
  nameOf := fun db row => db.get row .qosName
  queues := fun db row => db.get row .qosQueues
  queueOf := ScheduleProfileEntry.queue
  Holds := ScheduleRow strict
  nameColumn_ne := nofun
  nameOf_eq := id
  queues_eq := id
  holds_eq := fun h hHolds =>
    ⟨fun entry hEntry => (hHolds.last entry hEntry).of_get_eq (h _) (h _), (h _).trans hHolds.unmarked⟩

section Commands

variable {World : Type} {env : Environment World} {permitted : State World → Request → Prop}
  {txn : TxnId} {start db : Database} {profile row : RowId} {strict : CString} {config : Config}
  {done : List ScheduleProfileEntry} {entry : ScheduleProfileEntry} {name : CString}

/-- A profile is found by its name. -/
theorem qosGetScheduleProfileRow_transforms (admits : Admits env permitted) (strict name : CString) :
    Transforms env permitted txn (qosGetScheduleProfileRow (some name)) db fun result after =>
      after = db ∧ result = (scheduleKind strict).named db name :=
  findByName_transforms admits (fun _ => transforms_read admits (transforms_done ⟨rfl, rfl⟩)) name

/-- A row inserted for a queue, and mapped by its profile. -/
structure ScheduleRowInserted (profile : RowId) (queue : Int) (db : Database) (row : RowId)
    (after : Database) : Prop where
  fresh : ¬ db.Exists row
  frame : db.Extends (fun id column => id = profile ∧ column = .qosQueues) after
  profiles : after.ids .qos = db.ids .qos
  present : after.Exists row
  queues : after.get profile .qosQueues = db.get profile .qosQueues ++ [(queue, row)]
  unmarked : after.get row .queueHwDefault = []

/-- A queue row is inserted, and mapped by its profile. -/
theorem insertScheduleProfileQueueRow_transforms (admits : Admits env permitted)
    (hProfile : db.Exists profile) (queue : Int) :
    Transforms env permitted txn (insertScheduleProfileQueueRow profile queue txn) db fun row after =>
      ScheduleRowInserted profile queue db row after := by
  rw [insertScheduleProfileQueueRow]
  refine transforms_insertRow admits fun row hRow => transforms_read admits ?_
  refine transforms_write admits fun value hValue => transforms_done ?_
  have hNe : row ≠ profile := fun hSame => hRow (hSame ▸ hProfile)
  have hInserted : (Op.apply db (.insert row .queue)).Exists profile :=
    exists_insert.mpr (.inl hProfile)
  refine ⟨hRow, ?_, ?_, ?_, ?_, ?_⟩
  · refine ((extends_insert hRow).mono ?_).trans (extends_write value) fun _ _ _ => id
    exact fun _ _ _ => False.elim
  · simp
  · exact exists_write.mpr (exists_insert.mpr (.inr rfl))
  · rw [get_write_same hInserted, hValue.eq_array List.length_append, get_insert_other hNe.symm]
  · exact (get_write_other value fun hSame => absurd hSame hNe).trans (get_insert_same hRow)

/-- A row given an entry. -/
structure ScheduleRowUpdated (strict : CString) (entry : ScheduleProfileEntry) (row : RowId)
    (db after : Database) : Prop where
  frame : db.Extends (fun id _ => id = row) after
  profiles : after.ids .qos = db.ids .qos
  holds (mine : List ScheduleProfileEntry) (h : ScheduleRow strict mine row db) :
    ScheduleRow strict (mine ++ [entry]) row after

theorem scheduleRowUpdated_writes (hRow : db.Exists row) {algorithm : Column.Val .queueAlgorithm}
    {weight : Column.Val .queueWeight} (hAlgorithm : entry.algorithm = some algorithm)
    (hWeight : weight = if entry.algorithm = some strict then [] else [entry.weight]) :
    ScheduleRowUpdated strict entry row db ((Op.write row .queueWeight weight).apply
      ((Op.write row .queueAlgorithm algorithm).apply db)) := by
  have hWritten : (Op.apply db (.write row .queueAlgorithm algorithm)).Exists row :=
    exists_write.mpr hRow
  refine ⟨?_, by simp, fun mine h => ⟨fun last hLast => ?_, ?_⟩⟩
  · exact ((extends_write algorithm).mono fun _ _ _ => And.left).trans (extends_write weight)
      fun _ _ _ => And.left
  · obtain rfl : entry = last := by simpa using hLast
    refine ⟨?_, (get_write_same hWritten weight).trans hWeight⟩
    have hSame : ((Op.write row .queueWeight weight).apply
        ((Op.write row .queueAlgorithm algorithm).apply db)).get row .queueAlgorithm = algorithm := by
      refine (get_write_other weight ?_).trans (get_write_same hRow algorithm)
      exact fun _ => nofun
    exact hAlgorithm.trans (congrArg some hSame.symm)
  · refine (get_write_other weight ?_).trans ((get_write_other algorithm ?_).trans h.unmarked)
    · exact fun _ => nofun
    · exact fun _ => nofun

/-- An entry sets the algorithm, and the weight unless it is strict. -/
theorem updateScheduleRow_transforms (admits : Admits env permitted)
    (hStrict : config.header .queueAlgorithmStrict = strict) (hRow : db.Exists row)
    (hMissing : entry.algorithm = none → ∀ state, permitted state (.fault .nullPointer)) :
    Transforms env permitted txn (updateScheduleRow config entry row) db fun _ after =>
      entry.algorithm ≠ none ∧ ScheduleRowUpdated strict entry row db after := by
  rw [updateScheduleRow, hStrict]
  cases hEntry : entry.algorithm with
  | none => exact fun state _ _ => safe_fault.mpr (hMissing hEntry state)
  | some algorithm =>
      have hSome : some algorithm ≠ none := Option.some_ne_none algorithm
      refine transforms_assign admits (fun _ hStored => hStored) ?_
      by_cases hSame : algorithm = strict
      · simp only [(streq_iff _ _).mpr hSame, if_true]
        refine transforms_write admits fun weight hWeight => transforms_done ⟨hSome, ?_⟩
        refine scheduleRowUpdated_writes hRow hEntry ((hWeight.eq_array rfl).trans ?_)
        rw [hEntry, if_pos (congrArg some hSame)]
      · simp only [mt (streq_iff _ _).mp hSame]
        refine transforms_write admits fun weight hWeight => transforms_done ⟨hSome, ?_⟩
        refine scheduleRowUpdated_writes hRow hEntry ((hWeight.eq_array rfl).trans ?_)
        rw [hEntry, if_neg fun h => hSame (Option.some.inj h)]

/-- Adding an entry keeps the profile built. -/
theorem qosScheduleProfileRowCommand_transforms (admits : Admits env permitted)
    (hStrict : config.header .queueAlgorithmStrict = strict) (hProfile : start.Exists profile)
    (hNamed : (scheduleKind strict).named start name = some profile)
    (hMissing : entry.algorithm = none → ∀ state, permitted state (.fault .nullPointer))
    (h : (scheduleKind strict).Built start profile ((scheduleKind strict).Listed done) done db) :
    Transforms env permitted txn (qosScheduleProfileRowCommand config txn (some name) entry) db
      fun _ after => entry.algorithm ≠ none ∧ (scheduleKind strict).Built start profile
        ((scheduleKind strict).Listed (done ++ [entry])) (done ++ [entry]) after := by
  have hUpdate (row : RowId) (middle : Database)
      (hBuilt : (scheduleKind strict).Built start profile
        ((scheduleKind strict).Listed (done ++ [entry])) done middle)
      (hPair : (entry.queue, row) ∈ (scheduleKind strict).queues middle profile) :=
    (@updateScheduleRow_transforms World env permitted txn middle row strict config entry admits hStrict
      (hBuilt.present _ hPair) hMissing).mono fun _ after ⟨hAlgorithm, hAfter⟩ =>
        And.intro hAlgorithm (hBuilt.update hProfile hPair hAfter.frame hAfter.profiles hAfter.holds)
  rw [qosScheduleProfileRowCommand]
  refine (qosGetScheduleProfileRow_transforms admits strict name).bind ?_
  rintro _ _ ⟨rfl, rfl⟩
  rw [h.named, hNamed]
  refine transforms_read admits ?_
  simp only [bind_eq, done_bind]
  split
  · rename_i row hFound
    have hPair := mem_of_queueRow hFound
    exact hUpdate row _ (h.again hPair) hPair
  · rename_i hNone
    have hExists := h.frame.exists_of profile hProfile
    refine (insertScheduleProfileQueueRow_transforms admits hExists entry.queue).bind ?_
    intro row after hAfter
    have hBuilt := h.insert hProfile (fun _ => id) hNone hAfter.fresh hAfter.frame hAfter.profiles
      hAfter.present hAfter.queues ⟨nofun, hAfter.unmarked⟩
    have hPair : (entry.queue, row) ∈ after.get profile .qosQueues := by
      rw [hAfter.queues]
      exact List.mem_append_right _ List.mem_cons_self
    exact hUpdate row after (listed_concat ▸ hBuilt) hPair

/-- Every entry that the loop over the description meets has an algorithm. -/
def Config.SchedulesNamed (config : Config) : Prop :=
  ∀ entry ∈ config.scheduleProfile.items config.scheduleProfile.count.toNat, entry.algorithm ≠ none

instance (config : Config) : Decidable config.SchedulesNamed :=
  inferInstanceAs (Decidable (∀ entry ∈ _, _))

/-- A profile found by its name, or added under it. -/
structure ScheduleProfileFound (name : CString) (strict : CString) (db : Database) (profile : RowId)
    (after : Database) : Prop where
  frame : db.Extends (fun _ _ => False) after
  named : (scheduleKind strict).named after name = some profile
  others : ∀ other, other ≠ name →
    (scheduleKind strict).named after other = (scheduleKind strict).named db other
  unmarked : (scheduleKind strict).named db name = some profile ∨
    ¬ db.Exists profile ∧ after.get profile .qosHwDefault = []

/-- A profile is found, or inserted under its name. -/
theorem qosScheduleProfileCommand_transforms (admits : Admits env permitted) (strict : CString) :
    Transforms env permitted txn (qosScheduleProfileCommand txn (some name)) db fun _ after =>
      ∃ profile, ScheduleProfileFound name strict db profile after := by
  rw [qosScheduleProfileCommand]
  refine (qosGetScheduleProfileRow_transforms admits strict name).bind ?_
  rintro _ middle ⟨rfl, rfl⟩
  cases hNamed : (scheduleKind strict).named middle name with
  | some profile =>
      exact transforms_done ⟨profile, .refl _ _, hNamed, fun _ _ => rfl, .inl hNamed⟩
  | none =>
      refine transforms_insertRow admits fun profile hFresh => ?_
      refine transforms_write admits fun value hValue => transforms_done ⟨profile, ?_⟩
      obtain rfl : value = name := hValue
      have hInserted := @AddedRow.of_insert _ profile .qos hFresh
      have hAdded : AddedRow (fun row db => db.get row .qosName = value) middle profile _ :=
        hInserted.write (get_write_same hInserted.present value)
      have hIds : (Op.apply (Op.apply middle (.insert profile .qos)) (.write profile .qosName value)).ids
          (scheduleKind strict).table = middle.ids (scheduleKind strict).table ++ [profile] := by
        simp [scheduleKind]
      have hName : (scheduleKind strict).nameOf (Op.apply (Op.apply middle (.insert profile .qos))
          (.write profile .qosName value)) profile = value := hAdded.holds
      refine ⟨hAdded.frame, ?_, fun other hOther => ?_, .inr ⟨hFresh, ?_⟩⟩
      · rw [named_added hIds hAdded.frame, hNamed, if_pos hName, Option.none_or]
      · rw [named_added hIds hAdded.frame, hName, if_neg hOther.symm, Option.or_none]
      · refine (get_write_other value ?_).trans (get_insert_same hFresh)
        exact fun _ => nofun

/-- Without a name, no profile is found or added. -/
theorem qosScheduleProfileCommand_stops (admits : Admits env permitted)
    (hNull : ∀ state, permitted state (.fault .nullPointer)) :
    Transforms env permitted txn (qosScheduleProfileCommand txn none) db fun _ _ => False := by
  have hSearch : Transforms env permitted txn (qosGetScheduleProfileRow none) db _ :=
    findByName_unnamed admits (fun _ => transforms_read admits (transforms_done rfl)) hNull
  refine hSearch.bind ?_
  rintro _ _ ⟨rfl, rfl⟩
  exact transforms_insertRow admits fun _ _ state _ _ => safe_fault.mpr (hNull state)

/-- A profile emptied and built from the description. -/
structure ScheduleProfileReset (name : CString) (strict : CString) (entries : List ScheduleProfileEntry)
    (db : Database) (profile : RowId) (after : Database) : Prop where
  frame : db.Extends (fun id column => id = profile ∧ column = .qosQueues) after
  named : (scheduleKind strict).named after name = some profile
  others : ∀ other, other ≠ name →
    (scheduleKind strict).named after other = (scheduleKind strict).named db other
  unmarked : (scheduleKind strict).named db name = some profile ∨
    ¬ db.Exists profile ∧ after.get profile .qosHwDefault = []
  built : ∃ start, (∀ id, db.Exists id → start.Exists id) ∧
    (scheduleKind strict).Built start profile ((scheduleKind strict).Listed entries) entries after

theorem qosScheduleProfileCreateFactoryDefault_transforms (admits : Admits env permitted)
    (hStrict : config.header .queueAlgorithmStrict = strict)
    (hMissing : ¬ config.SchedulesNamed → ∀ state, permitted state (.fault .nullPointer)) :
    Transforms env permitted txn (qosScheduleProfileCreateFactoryDefault config txn (some name)) db
      fun _ after => config.SchedulesNamed ∧ ∃ profile, ScheduleProfileReset name strict
        (config.scheduleProfile.items config.scheduleProfile.count.toNat) db profile after := by
  rw [qosScheduleProfileCreateFactoryDefault]
  refine (qosScheduleProfileCommand_transforms admits strict).bind fun _ found ⟨profile, hFound⟩ => ?_
  have hNamed : (scheduleKind strict).named found name = some profile := hFound.named
  have hPresent : found.Exists profile := exists_named hNamed
  refine (qosGetScheduleProfileRow_transforms admits strict name).bind ?_
  rintro _ middle ⟨rfl, rfl⟩
  rw [hNamed]
  refine transforms_write admits ?_
  intro value hValue
  have hWrite : middle.Extends (fun id column => id = profile ∧ column = .qosQueues)
      ((Op.write profile .qosQueues value).apply middle) := extends_write value
  have hKept : ∀ other, (scheduleKind strict).named ((Op.write profile .qosQueues value).apply middle)
      other = (scheduleKind strict).named middle other :=
    fun other => named_later ids_write hWrite fun _ hSame => Column.noConfusion hSame.2
  let invariant (done : List ScheduleProfileEntry) (after : Database) : Prop :=
    (∀ entry ∈ done, entry.algorithm ≠ none) ∧
      (scheduleKind strict).Built ((Op.write profile .qosQueues value).apply middle) profile
        ((scheduleKind strict).Listed done) done after
  have hStart : invariant [] ((Op.write profile .qosQueues value).apply middle) :=
    ⟨nofun, (scheduleKind strict).built_nil (.refl _ _) rfl
      ((get_write_same hPresent value).trans (hValue.eq_array rfl))⟩
  refine (transforms_items config.scheduleProfile _ ?_ ?_ hStart).mono fun _ after ⟨hAll, h⟩ => ?_
  · intro ii hIndex entry done other hEntry ⟨hDone, h⟩
    have hEntryMissing : entry.algorithm = none → ∀ state, permitted state (.fault .nullPointer) :=
      fun hNone => hMissing fun hAll => hAll entry (YamlList.mem_items hIndex hEntry) hNone
    rw [hEntry]
    refine (qosScheduleProfileRowCommand_transforms admits hStrict (exists_write.mpr hPresent)
      ((hKept name).trans hNamed) hEntryMissing h).bind fun _ _ ⟨hAlgorithm, hAfter⟩ => ?_
    exact transforms_done ⟨List.forall_mem_append.mpr
      ⟨hDone, List.forall_mem_singleton.mpr hAlgorithm⟩, hAfter⟩
  · intro ii hEntry
    rw [hEntry]
  refine ⟨hAll, profile, ?_, h.named.trans ((hKept name).trans hNamed), fun other hOther => ?_, ?_, ?_⟩
  · refine (hFound.frame.mono fun _ _ _ => False.elim).trans (hWrite.trans h.frame ?_) ?_
    · exact fun _ _ _ => id
    · exact fun _ _ _ => id
  · exact h.named.trans ((hKept other).trans (hFound.others other hOther))
  · refine hFound.unmarked.imp_right fun hNew => ⟨hNew.1, ?_⟩
    refine ((hWrite.trans h.frame fun _ _ _ => id).get_eq _ _ hPresent ?_).trans hNew.2
    exact fun hSame => nomatch hSame.2
  · refine ⟨_, fun id hId => hWrite.exists_of id (hFound.frame.exists_of id hId), h⟩

end Commands

section Published

/-- A profile as the entries describe it, on rows that were not there before. -/
structure ScheduleProfile (strict : CString) (entries : List ScheduleProfileEntry) (before : Database)
    (profile : RowId) (db : Database) : Prop where
  maps : (scheduleKind strict).Maps entries profile db
  present : ∀ pair ∈ db.get profile .qosQueues, db.Exists pair.2
  fresh : ∀ pair ∈ db.get profile .qosQueues, ¬ before.Exists pair.2
  rows : ∀ pair ∈ db.get profile .qosQueues, ∀ entry,
    ((scheduleKind strict).entriesFor entries pair.1).getLast? = some entry →
      SchedulesAs strict entry pair.2 db

/-- The two profiles and what refers to them. -/
structure ScheduleProfilesPublished (strict : CString) (names : ProfileNames)
    (entries : List ScheduleProfileEntry) (system : RowId) (before : Database)
    (default factory : RowId) (db : Database) : Prop where
  defaultNamed : (scheduleKind strict).named db names.defaultName = some default
  factoryNamed : (scheduleKind strict).named db names.factoryDefaultName = some factory
  defaultProfile : ScheduleProfile strict entries before default db
  factoryProfile : ScheduleProfile strict entries before factory db
  apart : ∀ first ∈ db.get default .qosQueues, ∀ second ∈ db.get factory .qosQueues,
    first.2 ≠ second.2
  factoryMarked : db.get factory .qosHwDefault = [true] ∧
    ∀ pair ∈ db.get factory .qosQueues, db.get pair.2 .queueHwDefault = [true]
  defaultUnmarked : true ∉ db.get default .qosHwDefault ∧
    ∀ pair ∈ db.get default .qosQueues, db.get pair.2 .queueHwDefault = []
  system : db.get system .systemQos = some default

variable {World : Type} {env : Environment World} {permitted : State World → Request → Prop}
  {txn : TxnId} {before start db after : Database} {profile system : RowId} {name strict : CString}
  {entries : List ScheduleProfileEntry} {touched : RowId → Column → Prop} {config : Config}
  {info : QosInfo} {names : ProfileNames}

/-- A profile that has been built, with rows that have not been marked. -/
structure ScheduleProfileHeld (strict : CString) (entries : List ScheduleProfileEntry)
    (before : Database) (profile : RowId) (db : Database) : Prop where
  present : db.Exists profile
  described : ScheduleProfile strict entries before profile db
  rowsUnmarked : ∀ pair ∈ db.get profile .qosQueues, db.get pair.2 .queueHwDefault = []

theorem ScheduleProfileReset.held (h : ScheduleProfileReset name strict entries before profile db) :
    ScheduleProfileHeld strict entries before profile db := by
  obtain ⟨start, hStart, built⟩ := h.built
  refine ⟨exists_named h.named, ⟨⟨built.keys, built.keysDistinct,
    built.rowsDistinct⟩, built.present, ?_, ?_⟩, ?_⟩
  · exact fun pair hPair hOld => built.fresh pair hPair (hStart _ hOld)
  · exact fun pair hPair => (built.holds pair hPair).last
  · exact fun pair hPair => (built.holds pair hPair).unmarked

/-- What is written elsewhere leaves a profile as it is. -/
theorem ScheduleProfile.later (h : ScheduleProfile strict entries before profile db)
    (hPresent : db.Exists profile) (hLater : db.Extends touched after)
    (hProfile : ¬ touched profile .qosQueues)
    (hOthers : ∀ pair ∈ db.get profile .qosQueues,
      ¬ touched pair.2 .queueAlgorithm ∧ ¬ touched pair.2 .queueWeight) :
    after.get profile .qosQueues = db.get profile .qosQueues ∧
      ScheduleProfile strict entries before profile after := by
  have hQueues := hLater.get_eq _ _ hPresent hProfile
  have hKind : (scheduleKind strict).queues after profile = (scheduleKind strict).queues db profile :=
    hQueues
  refine ⟨hQueues, ⟨?_, ?_, ?_⟩, ?_, ?_, ?_⟩
  · exact hKind ▸ h.maps.keys
  · exact hKind ▸ h.maps.keysDistinct
  · exact hKind ▸ h.maps.rowsDistinct
  · rw [hQueues]
    exact fun pair hPair => hLater.exists_of _ (h.present pair hPair)
  · exact hQueues ▸ h.fresh
  · rw [hQueues]
    intro pair hPair entry hEntry
    exact (h.rows pair hPair entry hEntry).of_get_eq
      (hLater.get_eq _ _ (h.present pair hPair) (hOthers pair hPair).1)
      (hLater.get_eq _ _ (h.present pair hPair) (hOthers pair hPair).2)

/-- A profile stays held when others are written. -/
theorem ScheduleProfileHeld.later (h : ScheduleProfileHeld strict entries before profile db)
    (hLater : db.Extends touched after) (hProfile : ¬ touched profile .qosQueues)
    (hOthers : ∀ pair ∈ db.get profile .qosQueues, ¬ touched pair.2 .queueAlgorithm ∧
      ¬ touched pair.2 .queueWeight ∧ ¬ touched pair.2 .queueHwDefault) :
    after.get profile .qosQueues = db.get profile .qosQueues ∧
      ScheduleProfileHeld strict entries before profile after := by
  obtain ⟨hQueues, hDescribed⟩ := h.described.later h.present hLater hProfile
    fun pair hPair => ⟨(hOthers pair hPair).1, (hOthers pair hPair).2.1⟩
  refine ⟨hQueues, hLater.exists_of _ h.present, hDescribed, ?_⟩
  rw [hQueues]
  intro pair hPair
  exact (hLater.get_eq _ _ (h.described.present pair hPair) (hOthers pair hPair).2.2).trans
    (h.rowsUnmarked pair hPair)

/-- The default profile, before the factory default profile is reset. -/
structure DefaultScheduleProfile (strict : CString) (names : ProfileNames)
    (entries : List ScheduleProfileEntry) (system : RowId) (before : Database) (default : RowId)
    (db : Database) : Prop where
  named : (scheduleKind strict).named db names.defaultName = some default
  held : ScheduleProfileHeld strict entries before default db
  unmarked : true ∉ db.get default .qosHwDefault
  systemPresent : db.Exists system
  system : db.get system .systemQos = some default
  kept (id : RowId) (h : before.Exists id) : db.Exists id

theorem defaultScheduleProfile_write {built : Database} {default : RowId}
    (hUnmarked : ∀ row, (scheduleKind strict).named before names.defaultName = some row →
      true ∉ before.get row .qosHwDefault) (hSystem : before.Exists system)
    (hReset : ScheduleProfileReset names.defaultName strict entries before default built) :
    DefaultScheduleProfile strict names entries system before default
      ((Op.write system .systemQos (some default)).apply built) := by
  have hPresent : built.Exists system := hReset.frame.exists_of _ hSystem
  have hWrite : built.Extends (fun id column => id = system ∧ column = .systemQos)
      ((Op.write system .systemQos (some default)).apply built) := extends_write _
  have hOther : ∀ id column, column ≠ .systemQos → ¬ (id = system ∧ column = Column.systemQos) :=
    fun _ _ hColumn hSame => hColumn hSame.2
  have hHeld := hReset.held
  have hDefault : true ∉ built.get default .qosHwDefault := by
    rcases hReset.unmarked with hOld | ⟨-, hNew⟩
    · have hExists : before.Exists default := exists_named hOld
      have hSame := hReset.frame.get_eq default .qosHwDefault hExists fun hSame => nomatch hSame.2
      exact hSame ▸ hUnmarked default hOld
    · exact hNew ▸ List.not_mem_nil
  refine ⟨?_, ?_, ?_, exists_write.mpr hPresent, get_write_same hPresent _, fun id hId => ?_⟩
  · rw [named_later ids_write hWrite fun _ hSame => Column.noConfusion hSame.2]
    exact hReset.named
  · exact (hHeld.later hWrite (hOther _ _ nofun) fun _ _ =>
      ⟨hOther _ _ nofun, hOther _ _ nofun, hOther _ _ nofun⟩).2
  · have hSame := hWrite.get_eq default .qosHwDefault hHeld.present fun hSame => nomatch hSame.2
    exact hSame ▸ hDefault
  · exact hWrite.exists_of id (hReset.frame.exists_of id hId)

/-- The factory default profile is reset next to the default profile, and marked. -/
theorem scheduleProfilesPublished_of_marked {built : Database} {default factory : RowId}
    (hDistinct : names.defaultName ≠ names.factoryDefaultName)
    (hDefault : DefaultScheduleProfile strict names entries system before default db)
    (hReset : ScheduleProfileReset names.factoryDefaultName strict entries db factory built)
    (hMarked : Marked .qosHwDefault .queueHwDefault [true] [true] factory
      (built.get factory .qosQueues) built after) :
    ScheduleProfilesPublished strict names entries system before default factory after := by
  have hFrame := hMarked.frame
  have hNamed : (scheduleKind strict).named built names.defaultName = some default :=
    (hReset.others _ hDistinct).trans hDefault.named
  have hApart : default ≠ factory := by
    rintro rfl
    exact hDistinct ((nameOf_named hNamed).symm.trans (nameOf_named hReset.named))
  have hFactory := hReset.held
  obtain ⟨start, hStart, hBuilt⟩ := hReset.built
  have hFresh : ∀ pair ∈ built.get factory .qosQueues, ¬ db.Exists pair.2 :=
    fun pair hPair hOld => hBuilt.fresh pair hPair (hStart _ hOld)
  have hOther : ∀ id column, column ≠ .qosQueues → ¬ (id = factory ∧ column = Column.qosQueues) :=
    fun _ _ hColumn hSame => hColumn hSame.2
  obtain ⟨hQueues, hHeld⟩ := hDefault.held.later hReset.frame (fun hSame => hApart hSame.1)
    fun _ _ => ⟨hOther _ _ nofun, hOther _ _ nofun, hOther _ _ nofun⟩
  have hRowApart : ∀ pair ∈ built.get default .qosQueues, ∀ other ∈ built.get factory .qosQueues,
      pair.2 ≠ other.2 := fun pair hPair other hOther hSame =>
    hFresh other hOther (hSame ▸ hDefault.held.described.present pair (hQueues ▸ hPair))
  obtain ⟨hQueues', hHeld'⟩ := hHeld.later hFrame (not_marks nofun nofun) fun pair hPair =>
    ⟨not_marks nofun nofun, not_marks nofun nofun, by
      rintro (⟨-, hColumn⟩ | ⟨-, other, hOther, hSame⟩)
      · exact nomatch hColumn
      · exact hRowApart pair hPair other hOther hSame.symm⟩
  obtain ⟨hFactoryQueues, hDescribed⟩ := hFactory.described.later hFactory.present hFrame
    (not_marks nofun nofun) fun _ _ => ⟨not_marks nofun nofun, not_marks nofun nofun⟩
  have hNames : ∀ id, ¬ Marks .qosHwDefault .queueHwDefault factory (built.get factory .qosQueues) id
      (scheduleKind strict).nameColumn := fun _ => not_marks nofun nofun
  refine ⟨?_, ?_, hHeld'.described, ?_, ?_, ⟨hMarked.profile, hFactoryQueues ▸ hMarked.rows⟩,
    ⟨?_, hHeld'.rowsUnmarked⟩, ?_⟩
  · rw [named_later (hMarked.ids _) hFrame hNames, hNamed]
  · rw [named_later (hMarked.ids _) hFrame hNames, hReset.named]
  · exact ⟨hDescribed.maps, hDescribed.present, fun pair hPair hOld =>
      hDescribed.fresh pair hPair (hDefault.kept _ hOld), hDescribed.rows⟩
  · rw [hFactoryQueues, hQueues']
    exact hRowApart
  · have hSame := (hFrame.get_eq default .qosHwDefault hHeld.present (by
      rintro (⟨hSame, -⟩ | ⟨hColumn, -⟩)
      · exact hApart hSame
      · exact nomatch hColumn)).trans
        (hReset.frame.get_eq default .qosHwDefault hDefault.held.present fun hSame => nomatch hSame.2)
    exact hSame ▸ hDefault.unmarked
  · have hSame := (hFrame.get_eq system .systemQos
      (hReset.frame.exists_of _ hDefault.systemPresent) (not_marks nofun nofun)).trans
        (hReset.frame.get_eq system .systemQos hDefault.systemPresent fun hSame => nomatch hSame.2)
    exact hSame.trans hDefault.system

/-- Both profiles are reset, and the second is marked. -/
theorem qosInitScheduleProfile_transforms (admits : Admits env permitted)
    (hInfo : config.qosInfo = some info) (hNames : info.Names names)
    (hAlgorithms : config.SchedulesNamed) (hDistinct : names.defaultName ≠ names.factoryDefaultName)
    (hStrict : config.header .queueAlgorithmStrict = strict)
    (hUnmarked : ∀ row, (scheduleKind strict).named db names.defaultName = some row →
      true ∉ db.get row .qosHwDefault) (hSystem : db.Exists system) :
    Transforms env permitted txn (qosInitScheduleProfile config txn system) db fun _ after =>
      ∃ default factory, ScheduleProfilesPublished strict names
        (config.scheduleProfile.items config.scheduleProfile.count.toNat) system db default factory
        after := by
  obtain ⟨trust, defaultName, factoryDefaultName⟩ := info
  obtain ⟨rfl, rfl⟩ := hNames
  rw [qosInitScheduleProfile, hInfo]
  refine (qosScheduleProfileCreateFactoryDefault_transforms admits hStrict (absurd hAlgorithms)).bind ?_
  intro _ built ⟨_, default, hReset⟩
  have hPublished := defaultScheduleProfile_write hUnmarked hSystem hReset
  refine (qosGetScheduleProfileRow_transforms admits strict names.defaultName).bind ?_
  rintro _ _ ⟨rfl, rfl⟩
  rw [hReset.named]
  refine transforms_assign admits (fun _ hStored => hStored) ?_
  refine (qosScheduleProfileCreateFactoryDefault_transforms admits hStrict (absurd hAlgorithms)).bind ?_
  intro _ rebuilt ⟨_, factory, hFactory⟩
  refine (qosGetScheduleProfileRow_transforms admits strict names.factoryDefaultName).bind ?_
  rintro _ _ ⟨rfl, rfl⟩
  rw [hFactory.named]
  have hTrue : ∀ stored, (Column.shape .qosHwDefault).Stored ⟨[true], 1⟩ stored →
      stored = [true] := fun _ hStored => Slice.Stored.eq_array hStored rfl
  have hRowTrue : ∀ stored, (Column.shape .queueHwDefault).Stored ⟨[true], 1⟩ stored →
      stored = [true] := fun _ hStored => Slice.Stored.eq_array hStored rfl
  refine (markProfile_transforms admits .qosQueues id hTrue hRowTrue nofun nofun
    hFactory.held.present hFactory.held.described.present).mono fun _ after hMarked => ?_
  exact ⟨default, factory,
    scheduleProfilesPublished_of_marked hDistinct hPublished hFactory hMarked⟩

/-- The schedule profiles are the description's, whatever they mapped before. -/
theorem scheduleProfiles_published (total : env.Total) {state : State World} (hOpen : state.Opened txn)
    (hInfo : config.qosInfo = some info) (hNames : info.Names names)
    (hAlgorithms : config.SchedulesNamed) (hDistinct : names.defaultName ≠ names.factoryDefaultName)
    (hUnmarked : ∀ row, (scheduleKind (config.header .queueAlgorithmStrict)).named state.view
      names.defaultName = some row → true ∉ state.view.get row .qosHwDefault)
    (hSystem : state.view.Exists system) :
    (∃ after, Exec (step env) (qosInitScheduleProfile config txn system) state () after) ∧
    ∀ after, Exec (step env) (qosInitScheduleProfile config txn system) state () after →
      ∃ default factory, ScheduleProfilesPublished (config.header .queueAlgorithmStrict) names
        (config.scheduleProfile.items config.scheduleProfile.count.toNat) system state.view default
        factory after.view := by
  constructor
  · have hRun : Transforms env.accepting Disciplined txn (qosInitScheduleProfile config txn system)
        state.view _ :=
      qosInitScheduleProfile_transforms admits_accepting hInfo hNames hAlgorithms hDistinct rfl hUnmarked
        hSystem
    obtain ⟨_, after, hExec, -, -⟩ := hRun.exists_exec total hOpen
    exact ⟨after, hExec⟩
  · intro after hExec
    have hRun : Transforms env (fun _ _ => True) txn (qosInitScheduleProfile config txn system)
        state.view _ :=
      qosInitScheduleProfile_transforms (admits_any env) hInfo hNames hAlgorithms hDistinct rfl hUnmarked
        hSystem
    exact (hRun.of_exec hOpen hExec).2

/-- A switch with a weighted queue that is made strict. -/
def scheduleProfileConfig : Config :=
  { Config.onePort [] with
    header := fun name =>
      match name with
      | .queueAlgorithmStrict => .lit "strict"
      | _ => .lit ""
    qosInfo := some ⟨none, some (.lit "default"), some (.lit "factory-default")⟩
    scheduleProfile := ⟨2, fun ii =>
      if ii = 0 then some ⟨0, some (.lit "dwrr"), 10⟩ else some ⟨0, some (.lit "strict"), 0⟩⟩ }

/-- A session in which the default profile still maps a queue. -/
def staleSchedule : State Unit :=
  { configuring with txn := some ⟨0, [.insert 0 .system, .insert 1 .qos,
      .write 1 .qosName (.lit "default"), .insert 2 .queue, .write 1 .qosQueues [(5, 2)]]⟩ }

/-- It is built over a stale one. -/
theorem scheduleProfileConfig_published : ∃ after,
    Exec (step anyEnv) (qosInitScheduleProfile scheduleProfileConfig 0 0) staleSchedule () after ∧
      ∃ default factory, ScheduleProfilesPublished (.lit "strict")
        ⟨.lit "default", .lit "factory-default"⟩
        [⟨0, some (.lit "dwrr"), 10⟩, ⟨0, some (.lit "strict"), 0⟩] 0 staleSchedule.view default factory
        after.view := by
  have hInfo : scheduleProfileConfig.qosInfo =
      some ⟨none, some (.lit "default"), some (.lit "factory-default")⟩ := rfl
  have hNames : QosInfo.Names ⟨none, some (.lit "default"), some (.lit "factory-default")⟩
      ⟨.lit "default", .lit "factory-default"⟩ := ⟨rfl, rfl⟩
  have hAlgorithms : scheduleProfileConfig.SchedulesNamed := by decide
  have hOpen : staleSchedule.Opened 0 := ⟨_, rfl, rfl⟩
  have hUnmarked : ∀ row ∈ staleSchedule.view.ids .qos,
      true ∉ staleSchedule.view.get row .qosHwDefault := by decide
  have hSystem : staleSchedule.view.Exists 0 := ⟨_, List.mem_cons_self, rfl⟩
  have hPublished := scheduleProfiles_published anyEnv_total hOpen hInfo hNames hAlgorithms (by decide)
    (fun row hRow => hUnmarked row (List.mem_of_find?_eq_some hRow)) hSystem
  obtain ⟨after, hExec⟩ := hPublished.1
  exact ⟨after, hExec, hPublished.2 after hExec⟩

end Published
end OpsSysd.Daemon
