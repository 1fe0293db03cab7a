import OpsSysd.Daemon.Profiles

/-! The queue profiles of the initial configuration: the default profile and the
factory default profile, both built from the entries of the description. -/
namespace OpsSysd.Daemon

open CLib Interaction Interaction.Program Idl

/-- The last description given. -/
def lastDescription (entries : List QueueProfileEntry) : Option CString :=
  (entries.filterMap QueueProfileEntry.description).getLast?

/-- The last description that is given counts. -/
theorem lastDescription_concat (entries : List QueueProfileEntry) (entry : QueueProfileEntry) :
    lastDescription (entries ++ [entry]) = entry.description.or (lastDescription entries) := by
  rw [lastDescription, List.filterMap_append]
  cases hDescription : entry.description <;> simp [hDescription, lastDescription]

/-- The row of a queue holds the priorities listed for it, each once, and the
last description. -/
structure QueueRow (entries : List QueueProfileEntry) (row : RowId) (db : Database) : Prop where
  prioritiesDistinct : (db.get row .qProfileEntryLocalPriorities).Nodup
  priorities (localPriority : Int) : localPriority ∈ db.get row .qProfileEntryLocalPriorities ↔
    ∃ entry ∈ entries, entry.localPriority = localPriority
  description : db.get row .qProfileEntryDescription = (lastDescription entries).getD (.lit "")

/-- A row as the rows of a profile under construction are. -/
structure UnmarkedQueueRow (entries : List QueueProfileEntry) (row : RowId) (db : Database) : Prop
    extends QueueRow entries row db where
  unmarked : db.get row .qProfileEntryHwDefault = []

theorem QueueRow.of_get_eq {entries : List QueueProfileEntry} {row : RowId} {before after : Database}
    (h : QueueRow entries row before)
    (hPriorities : after.get row .qProfileEntryLocalPriorities =
      before.get row .qProfileEntryLocalPriorities)
    (hDescription : after.get row .qProfileEntryDescription =
      before.get row .qProfileEntryDescription) : QueueRow entries row after where
  prioritiesDistinct := hPriorities ▸ h.prioritiesDistinct
  priorities := hPriorities ▸ h.priorities
  description := hDescription.trans h.description

/-- One entry more is one priority more, and its description if it has one. -/
theorem UnmarkedQueueRow.concat {entries : List QueueProfileEntry} {entry : QueueProfileEntry}
    {row : RowId} {before after : Database} (h : UnmarkedQueueRow entries row before)
    (hDistinct : (after.get row .qProfileEntryLocalPriorities).Nodup)
    (hAdded : ∀ other, other ∈ after.get row .qProfileEntryLocalPriorities ↔
      other ∈ before.get row .qProfileEntryLocalPriorities ∨ other = entry.localPriority)
    (hDescription : after.get row .qProfileEntryDescription =
      entry.description.getD (before.get row .qProfileEntryDescription))
    (hUnmarked : after.get row .qProfileEntryHwDefault = before.get row .qProfileEntryHwDefault) :
    UnmarkedQueueRow (entries ++ [entry]) row after where
  prioritiesDistinct := hDistinct
  priorities other := by
    rw [hAdded, h.priorities, @eq_comm _ other]
    simp only [List.mem_append, List.mem_singleton, or_and_right, exists_or, exists_eq_left]
  description := by
    rw [hDescription, h.description, lastDescription_concat]
    cases entry.description <;> rfl
  unmarked := hUnmarked.trans h.unmarked

def queueKind : ProfileKind QueueProfileEntry where
  table := .qProfile
  nameColumn := .qProfileName
  queuesColumn := .qProfileQProfileEntries
  nameOf := fun db row => db.get row .qProfileName
  queues := fun db row => db.get row .qProfileQProfileEntries
  queueOf := QueueProfileEntry.queue
  Holds := UnmarkedQueueRow
  nameColumn_ne := nofun
  nameOf_eq := id
  queues_eq := id
  holds_eq := fun h hHolds =>
    ⟨hHolds.toQueueRow.of_get_eq (h _) (h _), (h _).trans hHolds.unmarked⟩

section Commands

variable {World : Type} {env : Environment World} {permitted : State World → Request → Prop}
  {txn : TxnId} {start db : Database} {profile row : RowId}
  {done : List QueueProfileEntry} {entry : QueueProfileEntry} {name : CString}

/-- A profile is found by its name. -/
theorem qosGetQueueProfileRow_transforms (admits : Admits env permitted) (name : CString) :
    Transforms env permitted txn (qosGetQueueProfileRow (some name)) db fun result after =>
      after = db ∧ result = queueKind.named db name :=
  findByName_transforms admits (fun _ => transforms_read admits (transforms_done ⟨rfl, rfl⟩)) name

/-- A row inserted for a queue, and mapped by its profile. -/
structure QueueRowInserted (profile : RowId) (queue : Int) (db : Database) (row : RowId)
    (after : Database) : Prop where
  fresh : ¬ db.Exists row
  frame : db.Extends (fun id column => id = profile ∧ column = .qProfileQProfileEntries) after
  profiles : after.ids .qProfile = db.ids .qProfile
  present : after.Exists row
  queues : after.get profile .qProfileQProfileEntries =
    db.get profile .qProfileQProfileEntries ++ [(queue, row)]
  holds : UnmarkedQueueRow [] row after

/-- A queue row is inserted, and listed by its profile. -/
theorem insertQueueProfileQueueRow_transforms (admits : Admits env permitted)
    (hProfile : db.Exists profile) (queue : Int) :
    Transforms env permitted txn (insertQueueProfileQueueRow profile queue txn) db fun row after =>
      QueueRowInserted profile queue db row after := by
  rw [insertQueueProfileQueueRow]
  refine transforms_insertRow admits fun row hRow => transforms_read admits ?_
  refine transforms_write admits fun value hValue => transforms_done ?_
  have hNe : row ≠ profile := fun hSame => hRow (hSame ▸ hProfile)
  have hInserted : (Op.apply db (.insert row .qProfileEntry)).Exists profile :=
    exists_insert.mpr (.inl hProfile)
  have hDefault (column : Column) : (Op.apply (Op.apply db (.insert row .qProfileEntry))
      (.write profile .qProfileQProfileEntries value)).get row column = column.shape.default :=
    (get_write_other value fun hSame => absurd hSame hNe).trans (get_insert_same hRow)
  refine ⟨hRow, ?_, ?_, ?_, ?_, ⟨?_, fun _ => ?_, ?_⟩, ?_⟩
  · refine ((extends_insert hRow).mono ?_).trans (extends_write value) fun _ _ _ => id
    exact fun _ _ _ => False.elim
  · simp
  · exact exists_write.mpr (exists_insert.mpr (.inr rfl))
  · rw [get_write_same hInserted, hValue.eq_array List.length_append, get_insert_other hNe.symm]
  · rw [hDefault]
    exact List.nodup_nil
  · rw [hDefault]
    simp [Shape.default]
  · exact hDefault _
  · exact hDefault _

/-- A priority added to a row. -/
structure PriorityAdded (localPriority : Int) (row : RowId) (db after : Database) : Prop where
  frame : db.Extends (fun id column => id = row ∧ column = .qProfileEntryLocalPriorities) after
  profiles : after.ids .qProfile = db.ids .qProfile
  distinct : (after.get row .qProfileEntryLocalPriorities).Nodup
  added (other : Int) : other ∈ after.get row .qProfileEntryLocalPriorities ↔
    other ∈ db.get row .qProfileEntryLocalPriorities ∨ other = localPriority

/-- A priority is added if it is not there. -/
theorem addLocalPriority_transforms (admits : Admits env permitted) (hRow : db.Exists row)
    (hDistinct : (db.get row .qProfileEntryLocalPriorities).Nodup) (localPriority : Int) :
    Transforms env permitted txn (addLocalPriority row localPriority) db fun _ after =>
      PriorityAdded localPriority row db after := by
  rw [addLocalPriority]
  refine transforms_read admits ?_
  simp only [bind_eq, done_bind]
  split
  · rename_i hMem
    refine transforms_done ⟨.refl _ _, rfl, hDistinct, fun other => ⟨.inl, ?_⟩⟩
    exact fun h => h.elim id fun hSame => hSame ▸ hMem
  · rename_i hNew
    refine transforms_write admits fun value hValue => transforms_done ?_
    obtain rfl := hValue.eq_array List.length_append
    refine ⟨extends_write _, ids_write, ?_, fun other => ?_⟩
    · rw [get_write_same hRow]
      refine List.nodup_append.mpr ⟨hDistinct, List.nodup_singleton _, ?_⟩
      rintro old hOld _ (_ | ⟨_, _, _⟩) rfl
      exact hNew hOld
    · rw [get_write_same hRow, List.mem_append, List.mem_singleton]

/-- A row given one entry more. -/
structure QueueRowUpdated (entry : QueueProfileEntry) (row : RowId) (db after : Database) : Prop where
  frame : db.Extends (fun id _ => id = row) after
  profiles : after.ids .qProfile = db.ids .qProfile
  holds (mine : List QueueProfileEntry) (h : UnmarkedQueueRow mine row db) :
    UnmarkedQueueRow (mine ++ [entry]) row after

/-- An entry adds its priority and sets its description. -/
theorem updateQueueRow_transforms (admits : Admits env permitted) (hRow : db.Exists row)
    (hDistinct : (db.get row .qProfileEntryLocalPriorities).Nodup) :
    Transforms env permitted txn (updateQueueRow entry row) db fun _ after =>
      QueueRowUpdated entry row db after := by
  refine (addLocalPriority_transforms admits hRow hDistinct entry.localPriority).bind ?_
  intro _ middle h
  have hMiddle : middle.Exists row := h.frame.exists_of row hRow
  have hFrame : db.Extends (fun id _ => id = row) middle := h.frame.mono fun _ _ _ => And.left
  have hDescription : middle.get row .qProfileEntryDescription = db.get row .qProfileEntryDescription :=
    h.frame.get_eq _ _ hRow fun hSame => nomatch hSame.2
  have hUnmarked : middle.get row .qProfileEntryHwDefault = db.get row .qProfileEntryHwDefault :=
    h.frame.get_eq _ _ hRow fun hSame => nomatch hSame.2
  cases hEntry : entry.description with
  | none =>
      refine transforms_done ⟨hFrame, h.profiles, fun mine hMine => ?_⟩
      exact hMine.concat h.distinct h.added (by rw [hEntry, hDescription]; rfl) hUnmarked
  | some description =>
      refine transforms_write admits fun value hValue => transforms_done ?_
      obtain rfl : value = description := hValue
      refine ⟨hFrame.trans (extends_write value) fun _ _ _ => And.left, ?_, fun mine hMine => ?_⟩
      · rw [ids_write, h.profiles]
      have hPriorities : (Op.apply middle (.write row .qProfileEntryDescription value)).get row
          .qProfileEntryLocalPriorities = middle.get row .qProfileEntryLocalPriorities :=
        get_write_other value fun _ => nofun
      refine hMine.concat (hPriorities ▸ h.distinct) (hPriorities ▸ h.added) ?_ ?_
      · rw [get_write_same hMiddle, hEntry]
        rfl
      · refine (get_write_other value ?_).trans hUnmarked
        exact fun _ => nofun

/-- Adding an entry keeps the profile built. -/
theorem qosQueueProfileRowCommand_transforms (admits : Admits env permitted)
    (hProfile : start.Exists profile) (hNamed : queueKind.named start name = some profile)
    (h : queueKind.Built start profile (queueKind.Listed done) done db) :
    Transforms env permitted txn (qosQueueProfileRowCommand txn (some name) entry) db fun _ after =>
      queueKind.Built start profile (queueKind.Listed (done ++ [entry])) (done ++ [entry]) after := by
  have hUpdate (row : RowId) (middle : Database)
      (hBuilt : queueKind.Built start profile (queueKind.Listed (done ++ [entry])) done middle)
      (hPair : (entry.queue, row) ∈ queueKind.queues middle profile) :=
    (@updateQueueRow_transforms World env permitted txn middle row entry admits
      (hBuilt.present _ hPair) (hBuilt.holds _ hPair).prioritiesDistinct).mono fun _ after hAfter =>
        hBuilt.update hProfile hPair hAfter.frame hAfter.profiles hAfter.holds
  rw [qosQueueProfileRowCommand]
  refine (qosGetQueueProfileRow_transforms admits name).bind ?_
  rintro _ _ ⟨rfl, rfl⟩
  rw [h.named, hNamed]
  refine transforms_read admits ?_
  simp only [bind_eq, done_bind]
  split
  · rename_i row hFound
    have hPair := mem_of_queueRow hFound
    exact hUpdate row _ (h.again hPair) hPair
  · rename_i hNone
    have hExists := h.frame.exists_of profile hProfile
    refine (insertQueueProfileQueueRow_transforms admits hExists entry.queue).bind ?_
    intro row after hAfter
    have hBuilt := h.insert hProfile (fun _ => id) hNone hAfter.fresh hAfter.frame hAfter.profiles
      hAfter.present hAfter.queues hAfter.holds
    have hPair : (entry.queue, row) ∈ after.get profile .qProfileQProfileEntries := by
      rw [hAfter.queues]
      exact List.mem_append_right _ List.mem_cons_self
    exact hUpdate row after (listed_concat ▸ hBuilt) hPair

/-- A profile row as it is inserted. -/
structure QueueProfileRow (name : CString) (profile : RowId) (db : Database) : Prop where
  name : db.get profile .qProfileName = name
  queues : db.get profile .qProfileQProfileEntries = []
  unmarked : db.get profile .qProfileHwDefault = []

/-- A profile that is not there is begun without queues. -/
theorem qosQueueProfileCommand_transforms (admits : Admits env permitted)
    (hNew : queueKind.named db name = none) :
    Transforms env permitted txn (qosQueueProfileCommand txn (some name)) db fun _ after =>
      ∃ profile, AddedRow (QueueProfileRow name) db profile after ∧
        after.ids .qProfile = db.ids .qProfile ++ [profile] := by
  rw [qosQueueProfileCommand]
  refine (qosGetQueueProfileRow_transforms admits name).bind ?_
  rintro _ _ ⟨rfl, rfl⟩
  rw [hNew]
  refine transforms_insertRow admits fun profile hFresh => ?_
  refine transforms_write admits fun value hValue => transforms_done ⟨profile, ?_, ?_⟩
  · have hInserted := @AddedRow.of_insert _ profile .qProfile hFresh
    refine hInserted.write ⟨(get_write_same hInserted.present value).trans hValue, ?_, ?_⟩
    · refine (get_write_other value ?_).trans (get_insert_same hFresh)
      exact fun _ => nofun
    · refine (get_write_other value ?_).trans (get_insert_same hFresh)
      exact fun _ => nofun
  · simp

/-- Without a name, no profile is added. -/
theorem qosQueueProfileCommand_stops (admits : Admits env permitted)
    (hNull : ∀ state, permitted state (.fault .nullPointer)) :
    Transforms env permitted txn (qosQueueProfileCommand txn none) db fun _ _ => False := by
  have hSearch : Transforms env permitted txn (qosGetQueueProfileRow none) db _ :=
    findByName_unnamed admits (fun _ => transforms_read admits (transforms_done rfl)) hNull
  refine hSearch.bind ?_
  rintro _ _ ⟨rfl, rfl⟩
  exact transforms_insertRow admits fun _ _ state _ _ => safe_fault.mpr (hNull state)

/-- A profile built from nothing. -/
structure QueueProfileAdded (name : CString) (entries : List QueueProfileEntry) (db : Database)
    (profile : RowId) (after : Database) : Prop where
  frame : db.Extends (fun _ _ => False) after
  fresh : ¬ db.Exists profile
  present : after.Exists profile
  ids : after.ids .qProfile = db.ids .qProfile ++ [profile]
  name : after.get profile .qProfileName = name
  unmarked : after.get profile .qProfileHwDefault = []
  built : ∃ start, db.Extends (fun _ _ => False) start ∧ start.Exists profile ∧
    queueKind.Built start profile (queueKind.Listed entries) entries after

theorem qosQueueProfileCreateFactoryDefault_transforms (admits : Admits env permitted) {config : Config}
    (hNew : queueKind.named db name = none) :
    Transforms env permitted txn (qosQueueProfileCreateFactoryDefault config txn (some name)) db
      fun _ after => ∃ profile,
        QueueProfileAdded name (config.queueProfile.items config.queueProfile.unsignedCount) db profile
          after := by
  rw [qosQueueProfileCreateFactoryDefault]
  refine (qosQueueProfileCommand_transforms admits hNew).bind fun _ start ⟨profile, hAdded, hIds⟩ => ?_
  have hNamed : queueKind.named start name = some profile := by
    have hName : queueKind.nameOf start profile = name := hAdded.holds.name
    rw [named_added hIds hAdded.frame, hNew, if_pos hName, Option.none_or]
  let invariant (done : List QueueProfileEntry) (middle : Database) : Prop :=
    queueKind.Built start profile (queueKind.Listed done) done middle
  have hStart : invariant [] start := queueKind.built_nil (.refl _ start) rfl hAdded.holds.queues
  refine (transforms_items config.queueProfile _ ?_ ?_ hStart).mono fun _ after h => ?_
  · intro ii _ entry done middle hEntry h
    rw [hEntry]
    exact (qosQueueProfileRowCommand_transforms admits hAdded.present hNamed h).bind
      fun _ _ hAfter => transforms_done hAfter
  · intro ii hEntry
    rw [hEntry]
  refine ⟨profile, ?_, hAdded.fresh, ?_, ?_, ?_, ?_, ?_⟩
  · exact hAdded.frame.trans h.frame fun _ _ hOld hSame => hAdded.fresh (hSame.1 ▸ hOld)
  · exact h.frame.exists_of _ hAdded.present
  · exact h.profiles.trans hIds
  · refine (h.frame.get_eq _ _ hAdded.present ?_).trans hAdded.holds.name
    exact fun hSame => nomatch hSame.2
  · refine (h.frame.get_eq _ _ hAdded.present ?_).trans hAdded.holds.unmarked
    exact fun hSame => nomatch hSame.2
  · exact ⟨start, hAdded.frame, hAdded.present, h⟩

end Commands

section Published

/-- A profile as the entries describe it. -/
structure QueueProfile (entries : List QueueProfileEntry) (profile : RowId) (db : Database) : Prop where
  maps : queueKind.Maps entries profile db
  present : ∀ pair ∈ db.get profile .qProfileQProfileEntries, db.Exists pair.2
  rows : ∀ pair ∈ db.get profile .qProfileQProfileEntries,
    QueueRow (queueKind.entriesFor entries pair.1) pair.2 db

/-- The two profiles and what refers to them. -/
structure QueueProfilesPublished (names : ProfileNames) (entries : List QueueProfileEntry) (system : RowId)
    (default factory : RowId) (db : Database) : Prop where
  defaultNamed : queueKind.named db names.defaultName = some default
  factoryNamed : queueKind.named db names.factoryDefaultName = some factory
  defaultProfile : QueueProfile entries default db
  factoryProfile : QueueProfile entries factory db
  apart : ∀ first ∈ db.get default .qProfileQProfileEntries,
    ∀ second ∈ db.get factory .qProfileQProfileEntries, first.2 ≠ second.2
  factoryMarked : db.get factory .qProfileHwDefault = [true] ∧
    ∀ pair ∈ db.get factory .qProfileQProfileEntries, db.get pair.2 .qProfileEntryHwDefault = [true]
  defaultUnmarked : db.get default .qProfileHwDefault = [] ∧
    ∀ pair ∈ db.get default .qProfileQProfileEntries, db.get pair.2 .qProfileEntryHwDefault = []
  system : db.get system .systemQProfile = some default

/-- A profile that has been built and not been marked. -/
structure QueueProfileHeld (entries : List QueueProfileEntry) (profile : RowId) (db : Database) :
    Prop where
  present : db.Exists profile
  described : QueueProfile entries profile db
  unmarked : db.get profile .qProfileHwDefault = []
  rowsUnmarked : ∀ pair ∈ db.get profile .qProfileQProfileEntries,
    db.get pair.2 .qProfileEntryHwDefault = []

variable {World : Type} {env : Environment World} {permitted : State World → Request → Prop}
  {txn : TxnId} {before db after : Database} {profile system : RowId} {name : CString}
  {entries : List QueueProfileEntry} {touched : RowId → Column → Prop} {config : Config}

theorem QueueProfileAdded.held (h : QueueProfileAdded name entries before profile db) :
    QueueProfileHeld entries profile db := by
  obtain ⟨start, -, -, built⟩ := h.built
  refine ⟨h.present, ⟨⟨built.keys, built.keysDistinct, built.rowsDistinct⟩, built.present, ?_⟩,
    h.unmarked, ?_⟩
  · exact fun pair hPair => (built.holds pair hPair).toQueueRow
  · exact fun pair hPair => (built.holds pair hPair).unmarked

/-- The rows of a profile that has been built were not there before. -/
theorem QueueProfileAdded.rows_fresh (h : QueueProfileAdded name entries before profile db)
    {pair : Int × RowId} (hPair : pair ∈ db.get profile .qProfileQProfileEntries) :
    ¬ before.Exists pair.2 := by
  obtain ⟨start, hFrame, -, built⟩ := h.built
  exact fun hOld => built.fresh pair hPair (hFrame.exists_of _ hOld)

/-- What is written elsewhere leaves a profile as it is. -/
theorem QueueProfile.later (h : QueueProfile entries profile db) (hPresent : db.Exists profile)
    (hLater : db.Extends touched after) (hProfile : ¬ touched profile .qProfileQProfileEntries)
    (hOthers : ∀ pair ∈ db.get profile .qProfileQProfileEntries,
      ¬ touched pair.2 .qProfileEntryLocalPriorities ∧ ¬ touched pair.2 .qProfileEntryDescription) :
    after.get profile .qProfileQProfileEntries = db.get profile .qProfileQProfileEntries ∧
      QueueProfile entries profile after := by
  have hQueues := hLater.get_eq _ _ hPresent hProfile
  have hKind : queueKind.queues after profile = queueKind.queues db profile := hQueues
  refine ⟨hQueues, ⟨?_, ?_, ?_⟩, ?_, ?_⟩
  · exact hKind ▸ h.maps.keys
  · exact hKind ▸ h.maps.keysDistinct
  · exact hKind ▸ h.maps.rowsDistinct
  · rw [hQueues]
    exact fun pair hPair => hLater.exists_of _ (h.present pair hPair)
  · rw [hQueues]
    intro pair hPair
    exact (h.rows pair hPair).of_get_eq
      (hLater.get_eq _ _ (h.present pair hPair) (hOthers pair hPair).1)
      (hLater.get_eq _ _ (h.present pair hPair) (hOthers pair hPair).2)

/-- A profile stays held when others are written. -/
theorem QueueProfileHeld.later (h : QueueProfileHeld entries profile db)
    (hLater : db.Extends touched after) (hProfile : ∀ column, ¬ touched profile column)
    (hOthers : ∀ pair ∈ db.get profile .qProfileQProfileEntries, ∀ column, ¬ touched pair.2 column) :
    after.get profile .qProfileQProfileEntries = db.get profile .qProfileQProfileEntries ∧
      QueueProfileHeld entries profile after := by
  obtain ⟨hQueues, hDescribed⟩ := h.described.later h.present hLater (hProfile _)
    fun pair hPair => ⟨hOthers pair hPair _, hOthers pair hPair _⟩
  refine ⟨hQueues, hLater.exists_of _ h.present, hDescribed, ?_, ?_⟩
  · exact (hLater.get_eq _ _ h.present (hProfile _)).trans h.unmarked
  · rw [hQueues]
    intro pair hPair
    exact (hLater.get_eq _ _ (h.described.present pair hPair) (hOthers pair hPair _)).trans
      (h.rowsUnmarked pair hPair)

/-- The default profile, before there is a factory default profile. -/
structure DefaultQueueProfile (names : ProfileNames) (entries : List QueueProfileEntry) (system : RowId)
    (default : RowId) (db : Database) : Prop where
  named : queueKind.named db names.defaultName = some default
  factoryUnnamed : queueKind.named db names.factoryDefaultName = none
  held : QueueProfileHeld entries default db
  systemPresent : db.Exists system
  system : db.get system .systemQProfile = some default

theorem defaultQueueProfile_write {names : ProfileNames} {built : Database} {default : RowId}
    (hDistinct : names.defaultName ≠ names.factoryDefaultName)
    (hDefault : queueKind.named db names.defaultName = none)
    (hFactory : queueKind.named db names.factoryDefaultName = none) (hSystem : db.Exists system)
    (hBuilt : QueueProfileAdded names.defaultName entries db default built) :
    queueKind.named built names.defaultName = some default ∧
      DefaultQueueProfile names entries system default
        ((Op.write system .systemQProfile (some default)).apply built) := by
  have hPresent : built.Exists system := hBuilt.frame.exists_of _ hSystem
  have hName : queueKind.nameOf built default = names.defaultName := hBuilt.name
  have hNamed : queueKind.named built names.defaultName = some default := by
    rw [named_added hBuilt.ids hBuilt.frame, hDefault, if_pos hName, Option.none_or]
  have hUnnamed : queueKind.named built names.factoryDefaultName = none := by
    rw [named_added hBuilt.ids hBuilt.frame, hFactory, hName, if_neg hDistinct, Option.none_or]
  have hWrite : built.Extends (fun id column => id = system ∧ column = .systemQProfile)
      ((Op.write system .systemQProfile (some default)).apply built) := extends_write _
  have hOther : ∀ row, ¬ db.Exists row → ∀ column,
      ¬ (row = system ∧ column = Column.systemQProfile) := fun row hRow _ hSame => hRow (hSame.1 ▸ hSystem)
  have hNames : ∀ id, ¬ (id = system ∧ queueKind.nameColumn = Column.systemQProfile) :=
    fun _ hSame => Column.noConfusion hSame.2
  refine ⟨hNamed, ?_, ?_, ?_, exists_write.mpr hPresent, get_write_same hPresent _⟩
  · exact (named_later ids_write hWrite hNames).trans hNamed
  · exact (named_later ids_write hWrite hNames).trans hUnnamed
  · exact (hBuilt.held.later hWrite (hOther default hBuilt.fresh)
      fun pair hPair => hOther pair.2 (hBuilt.rows_fresh hPair)).2

/-- The factory default profile is built next to the default profile, and marked. -/
theorem queueProfilesPublished_of_marked {names : ProfileNames} {built : Database} {default factory : RowId}
    (hDefault : DefaultQueueProfile names entries system default db)
    (hBuilt : QueueProfileAdded names.factoryDefaultName entries db factory built)
    (hNamed : queueKind.named built names.factoryDefaultName = some factory)
    (hMarked : Marked .qProfileHwDefault .qProfileEntryHwDefault [true] [true] factory
      (built.get factory .qProfileQProfileEntries) built after) :
    QueueProfilesPublished names entries system default factory after := by
  have hFrame := hMarked.frame
  have hOld : ∀ row, db.Exists row → ∀ column, ¬ Marks .qProfileHwDefault .qProfileEntryHwDefault
      factory (built.get factory .qProfileQProfileEntries) row column := by
    rintro row hRow column (⟨rfl, -⟩ | ⟨-, pair, hPair, rfl⟩)
    · exact hBuilt.fresh hRow
    · exact hBuilt.rows_fresh hPair hRow
  obtain ⟨hQueues, hHeld⟩ := hDefault.held.later hBuilt.frame (fun _ => id) fun _ _ _ => id
  obtain ⟨hQueues', hHeld'⟩ := hHeld.later hFrame (hOld default hDefault.held.present)
    fun pair hPair => hOld pair.2 (hDefault.held.described.present pair (hQueues ▸ hPair))
  obtain ⟨hFactoryQueues, hFactory⟩ := hBuilt.held.described.later hBuilt.present
    hFrame
    (not_marks nofun nofun)
    fun _ _ => ⟨not_marks nofun nofun, not_marks nofun nofun⟩
  have hNames : ∀ id, ¬ Marks .qProfileHwDefault .qProfileEntryHwDefault factory
      (built.get factory .qProfileQProfileEntries) id queueKind.nameColumn :=
    fun _ => not_marks nofun nofun
  refine ⟨?_, ?_, hHeld'.described, hFactory, ?_, ⟨hMarked.profile, hFactoryQueues ▸ hMarked.rows⟩,
    ⟨hHeld'.unmarked, hHeld'.rowsUnmarked⟩, ?_⟩
  · rw [named_later (hMarked.ids _) hFrame hNames, named_added hBuilt.ids hBuilt.frame, hDefault.named]
    rfl
  · rw [named_later (hMarked.ids _) hFrame hNames, hNamed]
  · rw [hFactoryQueues, hQueues', hQueues]
    intro first hFirst second hSecond hSame
    exact hBuilt.rows_fresh hSecond (hSame ▸ hDefault.held.described.present first hFirst)
  · rw [hFrame.get_eq _ _ (hBuilt.frame.exists_of _ hDefault.systemPresent)
      (hOld system hDefault.systemPresent _), hBuilt.frame.get_eq _ _ hDefault.systemPresent id]
    exact hDefault.system

/-- Both profiles are built, and the second is marked. -/
theorem qosInitQueueProfile_transforms (admits : Admits env permitted) {info : QosInfo}
    {names : ProfileNames} (hInfo : config.qosInfo = some info) (hNames : info.Names names)
    (hDistinct : names.defaultName ≠ names.factoryDefaultName)
    (hDefault : queueKind.named db names.defaultName = none)
    (hFactory : queueKind.named db names.factoryDefaultName = none) (hSystem : db.Exists system) :
    Transforms env permitted txn (qosInitQueueProfile config txn system) db fun _ after =>
      ∃ default factory, QueueProfilesPublished names
        (config.queueProfile.items config.queueProfile.unsignedCount) system default factory after := by
  obtain ⟨trust, defaultName, factoryDefaultName⟩ := info
  obtain ⟨rfl, rfl⟩ := hNames
  rw [qosInitQueueProfile, hInfo]
  refine (qosQueueProfileCreateFactoryDefault_transforms admits hDefault).bind ?_
  intro _ built ⟨default, hBuilt⟩
  obtain ⟨hNamed, hPublished⟩ := defaultQueueProfile_write hDistinct hDefault hFactory hSystem hBuilt
  refine (qosGetQueueProfileRow_transforms admits names.defaultName).bind ?_
  rintro _ _ ⟨rfl, rfl⟩
  rw [hNamed]
  refine transforms_assign admits (fun _ hStored => hStored) ?_
  refine (qosQueueProfileCreateFactoryDefault_transforms admits hPublished.factoryUnnamed).bind ?_
  intro _ rebuilt ⟨factory, hRebuilt⟩
  have hFactoryNamed : queueKind.named rebuilt names.factoryDefaultName = some factory := by
    have hName : queueKind.nameOf rebuilt factory = names.factoryDefaultName := hRebuilt.name
    rw [named_added hRebuilt.ids hRebuilt.frame, hPublished.factoryUnnamed, if_pos hName, Option.none_or]
  refine (qosGetQueueProfileRow_transforms admits names.factoryDefaultName).bind ?_
  rintro _ _ ⟨rfl, rfl⟩
  rw [hFactoryNamed]
  have hTrue : ∀ stored, (Column.shape .qProfileHwDefault).Stored ⟨[true], 1⟩ stored →
      stored = [true] := fun _ hStored => Slice.Stored.eq_array hStored rfl
  have hRowTrue : ∀ stored, (Column.shape .qProfileEntryHwDefault).Stored ⟨[true], 1⟩ stored →
      stored = [true] := fun _ hStored => Slice.Stored.eq_array hStored rfl
  refine (markProfile_transforms admits .qProfileQProfileEntries id hTrue hRowTrue nofun nofun
    hRebuilt.present hRebuilt.held.described.present).mono fun _ after hMarked => ?_
  exact ⟨default, factory,
    queueProfilesPublished_of_marked hPublished hRebuilt hFactoryNamed hMarked⟩

/-- Giving a row an entry whose priority it has changes at most its description. -/
theorem repeatQueueRow_transforms (admits : Admits env permitted) {row : RowId}
    {entry : QueueProfileEntry} (hRow : db.Exists row)
    (hPriority : entry.localPriority ∈ db.get row .qProfileEntryLocalPriorities) :
    Transforms env permitted txn (updateQueueRow entry row) db fun _ after =>
      db.Extends (fun id column => id = row ∧ column = .qProfileEntryDescription) after ∧
        (∀ table, after.ids table = db.ids table) ∧
        after.get row .qProfileEntryDescription =
          entry.description.getD (db.get row .qProfileEntryDescription) := by
  rw [updateQueueRow, addLocalPriority]
  refine transforms_read admits ?_
  simp only [bind_eq, done_bind, hPriority, if_true]
  cases hEntry : entry.description with
  | none => exact transforms_done ⟨.refl _ _, fun _ => rfl, rfl⟩
  | some description =>
      refine transforms_write admits fun value hValue => transforms_done ?_
      exact ⟨extends_write value, fun _ => ids_write, (get_write_same hRow value).trans hValue⟩

/-- The loop repeated: descriptions go through the values they were given. -/
structure QueueProfileRepeated (entries : List QueueProfileEntry) (profile : RowId)
    (before db : Database) : Prop where
  frame : before.Extends (fun id column => column = .qProfileEntryDescription ∧
    ∃ pair ∈ before.get profile .qProfileQProfileEntries, pair.2 = id) db
  ids (table : Table) : db.ids table = before.ids table
  description : ∀ pair ∈ before.get profile .qProfileQProfileEntries,
    db.get pair.2 .qProfileEntryDescription =
      (lastDescription (queueKind.entriesFor entries pair.1)).getD
        (before.get pair.2 .qProfileEntryDescription)

/-- Another entry of the same list changes nothing. -/
theorem QueueProfileRepeated.step {all : List QueueProfileEntry}
    (h : QueueProfileRepeated entries profile before db)
    (described : QueueProfile all profile before) {entry : QueueProfileEntry} {row : RowId}
    (hPair : (entry.queue, row) ∈ before.get profile .qProfileQProfileEntries)
    (hFrame : db.Extends (fun id column => id = row ∧ column = .qProfileEntryDescription) after)
    (hIds : ∀ table, after.ids table = db.ids table)
    (hDescription : after.get row .qProfileEntryDescription =
      entry.description.getD (db.get row .qProfileEntryDescription)) :
    QueueProfileRepeated (entries ++ [entry]) profile before after where
  frame := h.frame.trans hFrame fun _ _ _ hSame => ⟨hSame.2, _, hPair, hSame.1.symm⟩
  ids table := (hIds table).trans (h.ids table)
  description pair hMem := by
    by_cases hQueue : queueKind.queueOf entry = pair.1
    · obtain rfl : pair = (entry.queue, row) :=
        List.inj_on_of_nodup_map described.maps.keysDistinct hMem hPair hQueue.symm
      rw [entriesFor_concat_same hQueue, lastDescription_concat, hDescription, h.description _ hMem]
      cases entry.description <;> rfl
    · have hOther : pair.2 ≠ row := fun hSame => hQueue (congrArg Prod.fst
        (List.inj_on_of_nodup_map described.maps.rowsDistinct hMem hPair hSame)).symm
      rw [entriesFor_concat_other hQueue, ← h.description pair hMem]
      refine hFrame.get_eq _ _ ?_ fun hSame => hOther hSame.1
      exact h.frame.exists_of _ (described.present pair hMem)

theorem repeatRowCommand_transforms (admits : Admits env permitted)
    {all : List QueueProfileEntry} (described : QueueProfile all profile before)
    (hPresent : before.Exists profile) (hNamed : queueKind.named before name = some profile)
    {entry : QueueProfileEntry} (hEntry : entry ∈ all)
    (h : QueueProfileRepeated entries profile before db) :
    Transforms env permitted txn (qosQueueProfileRowCommand txn (some name) entry) db fun _ after =>
      QueueProfileRepeated (entries ++ [entry]) profile before after := by
  have hListed := (described.maps.keys entry.queue).mpr ⟨entry, hEntry, rfl⟩
  have hNames : ∀ id, ¬ (queueKind.nameColumn = .qProfileEntryDescription ∧
      ∃ pair ∈ before.get profile .qProfileQProfileEntries, pair.2 = id) :=
    fun _ hSame => Column.noConfusion hSame.1
  have hQueues : db.get profile .qProfileQProfileEntries =
      before.get profile .qProfileQProfileEntries :=
    h.frame.get_eq _ _ hPresent fun hSame => nomatch hSame.1
  rw [qosQueueProfileRowCommand]
  refine (qosGetQueueProfileRow_transforms admits name).bind ?_
  rintro _ middle ⟨rfl, rfl⟩
  rw [named_later (h.ids _) h.frame hNames, hNamed]
  refine transforms_read admits ?_
  simp only [bind_eq, done_bind]
  rw [hQueues]
  split
  · rename_i row hFound
    have hPair := mem_of_queueRow hFound
    have hRow := described.present _ hPair
    have hPriorities : middle.get row .qProfileEntryLocalPriorities =
        before.get row .qProfileEntryLocalPriorities :=
      h.frame.get_eq _ _ hRow fun hSame => nomatch hSame.1
    have hPriority : entry.localPriority ∈ middle.get row .qProfileEntryLocalPriorities := by
      rw [hPriorities, (described.rows _ hPair).priorities]
      exact ⟨entry, List.mem_filter.mpr ⟨hEntry, decide_eq_true rfl⟩, rfl⟩
    refine (repeatQueueRow_transforms admits (h.frame.exists_of _ hRow) hPriority).mono ?_
    exact fun _ after hAfter => h.step described hPair hAfter.1 hAfter.2.1 hAfter.2.2
  · rename_i hNone
    obtain ⟨pair, hPair, hKey⟩ := List.mem_map.mp hListed
    exact absurd hKey.symm (bne_iff_ne.mp (List.lookup_eq_none_iff.mp hNone pair hPair))

/-- Building a profile again changes nothing. -/
theorem rebuildQueueProfile_transforms (admits : Admits env permitted)
    (described : QueueProfile (config.queueProfile.items config.queueProfile.unsignedCount) profile db)
    (hNamed : queueKind.named db name = some profile) :
    Transforms env permitted txn (qosQueueProfileCreateFactoryDefault config txn (some name)) db
      fun _ after => db.Same after := by
  have hPresent : db.Exists profile := exists_named hNamed
  let invariant (done : List QueueProfileEntry) (middle : Database) : Prop :=
    QueueProfileRepeated done profile db middle
  have hStart : invariant [] db := ⟨.refl _ _, fun _ => rfl, fun _ _ => rfl⟩
  have hFound : Transforms env permitted txn (qosQueueProfileCommand txn (some name)) db
      fun _ after => after = db := by
    rw [qosQueueProfileCommand]
    refine (qosGetQueueProfileRow_transforms admits name).bind ?_
    rintro _ middle ⟨rfl, rfl⟩
    rw [hNamed]
    exact transforms_done rfl
  rw [qosQueueProfileCreateFactoryDefault]
  refine hFound.bind fun _ middle hSame => ?_
  rw [hSame]
  refine (transforms_items config.queueProfile _ ?_ ?_ hStart).mono fun _ after h => ⟨h.ids, ?_⟩
  · intro ii hIndex entry done other hEntry h
    rw [hEntry]
    exact (repeatRowCommand_transforms admits described hPresent hNamed
      (YamlList.mem_items hIndex hEntry) h).bind fun _ _ hAfter => transforms_done hAfter
  · intro ii hEntry
    rw [hEntry]
  · intro id column hId
    by_cases hWritten : column = .qProfileEntryDescription ∧
        ∃ pair ∈ db.get profile .qProfileQProfileEntries, pair.2 = id
    · obtain ⟨rfl, pair, hPair, rfl⟩ := hWritten
      rw [h.description pair hPair, (described.rows pair hPair).description]
      cases lastDescription _ <;> rfl
    · exact h.frame.get_eq id column hId hWritten

/-- The queue profiles are the description's, and building either one again
changes nothing. -/
theorem queueProfiles_published (total : env.Total) {state : State World} (hOpen : state.Opened txn)
    {info : QosInfo} {names : ProfileNames} (hInfo : config.qosInfo = some info)
    (hNames : info.Names names) (hDistinct : names.defaultName ≠ names.factoryDefaultName)
    (hNew : ∀ row ∈ state.view.ids .qProfile, state.view.get row .qProfileName ≠ names.defaultName ∧
      state.view.get row .qProfileName ≠ names.factoryDefaultName)
    (hSystem : state.view.Exists system) :
    (∃ after, Exec (step env) (qosInitQueueProfile config txn system) state () after) ∧
    ∀ after, Exec (step env) (qosInitQueueProfile config txn system) state () after →
      ∃ default factory, QueueProfilesPublished names
          (config.queueProfile.items config.queueProfile.unsignedCount) system default factory
          after.view ∧
        ∀ name, name = names.defaultName ∨ name = names.factoryDefaultName →
          (∃ again, Exec (step env) (qosQueueProfileCreateFactoryDefault config txn (some name)) after ()
            again) ∧
          ∀ again, Exec (step env) (qosQueueProfileCreateFactoryDefault config txn (some name)) after ()
            again → after.view.Same again.view := by
  have hDefault : queueKind.named state.view names.defaultName = none :=
    List.find?_eq_none.mpr fun row hRow hSame => (hNew row hRow).1 (of_decide_eq_true hSame)
  have hFactory : queueKind.named state.view names.factoryDefaultName = none :=
    List.find?_eq_none.mpr fun row hRow hSame => (hNew row hRow).2 (of_decide_eq_true hSame)
  refine ⟨?_, fun after hExec => ?_⟩
  · have hRun : Transforms env.accepting Disciplined txn (qosInitQueueProfile config txn system)
        state.view _ :=
      qosInitQueueProfile_transforms admits_accepting hInfo hNames hDistinct hDefault hFactory hSystem
    obtain ⟨_, after, hExec, -, -⟩ := hRun.exists_exec total hOpen
    exact ⟨after, hExec⟩
  have hRun : Transforms env (fun _ _ => True) txn (qosInitQueueProfile config txn system) state.view _ :=
    qosInitQueueProfile_transforms (admits_any env) hInfo hNames hDistinct hDefault hFactory hSystem
  obtain ⟨hAfter, default, factory, hPublished⟩ := hRun.of_exec hOpen hExec
  refine ⟨default, factory, hPublished, fun name hName => ?_⟩
  obtain ⟨profile, hNamed, hProfile⟩ : ∃ profile, queueKind.named after.view name = some profile ∧
      QueueProfile (config.queueProfile.items config.queueProfile.unsignedCount) profile after.view := by
    rcases hName with rfl | rfl
    · exact ⟨default, hPublished.defaultNamed, hPublished.defaultProfile⟩
    · exact ⟨factory, hPublished.factoryNamed, hPublished.factoryProfile⟩
  constructor
  · have hAgain : Transforms env.accepting Disciplined txn
        (qosQueueProfileCreateFactoryDefault config txn (some name)) after.view _ :=
      rebuildQueueProfile_transforms admits_accepting hProfile hNamed
    obtain ⟨_, again, hExec, -, -⟩ := hAgain.exists_exec total hAfter
    exact ⟨again, hExec⟩
  · intro again hExec
    have hAgain : Transforms env (fun _ _ => True) txn
        (qosQueueProfileCreateFactoryDefault config txn (some name)) after.view _ :=
      rebuildQueueProfile_transforms (admits_any env) hProfile hNamed
    exact (hAgain.of_exec hAfter hExec).2

/-- A switch whose queue profile lists a queue twice, with a missing entry. -/
def queueProfileConfig : Config :=
  { Config.onePort [] with
    qosInfo := some ⟨none, some (.lit "default"), some (.lit "factory-default")⟩
    queueProfile := ⟨3, fun ii =>
      if ii = 0 then some ⟨0, 1, some (.lit "Scavenger")⟩
      else if ii = 2 then some ⟨0, 0, none⟩ else none⟩ }

/-- A list with two entries for one queue. -/
theorem queueProfileConfig_published : ∃ after,
    Exec (step anyEnv) (qosInitQueueProfile queueProfileConfig 0 0) configuring () after ∧
      ∃ default factory, QueueProfilesPublished ⟨.lit "default", .lit "factory-default"⟩
        [⟨0, 1, some (.lit "Scavenger")⟩, ⟨0, 0, none⟩] 0 default factory after.view := by
  have hInfo : queueProfileConfig.qosInfo =
      some ⟨none, some (.lit "default"), some (.lit "factory-default")⟩ := rfl
  have hNames : QosInfo.Names ⟨none, some (.lit "default"), some (.lit "factory-default")⟩
      ⟨.lit "default", .lit "factory-default"⟩ := ⟨rfl, rfl⟩
  have hPublished := queueProfiles_published anyEnv_total configuring_opened hInfo hNames (by decide)
    (List.forall_mem_nil _) configuring_exists
  obtain ⟨after, hExec⟩ := hPublished.1
  obtain ⟨default, factory, hAfter, -⟩ := hPublished.2 after hExec
  exact ⟨after, hExec, default, factory, hAfter⟩

end Published
end OpsSysd.Daemon
