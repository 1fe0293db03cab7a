import OpsSysd.Daemon.Qos
import OpsSysd.Idl.Transforms
import Mathlib.Data.List.Find
import Mathlib.Data.List.Nodup

/-! Profiles: rows found by their name, each with a map from queue numbers to
rows of its own. Queue profiles and schedule profiles are built in the same way,
one entry of the description after the other. -/
namespace OpsSysd.Daemon

open CLib Interaction Interaction.Program Idl

/-- The names of the two profiles, where the description gives both. -/
structure ProfileNames where
  defaultName : CString
  factoryDefaultName : CString

def QosInfo.Names (info : QosInfo) (names : ProfileNames) : Prop :=
  info.defaultName = some names.defaultName ∧
    info.factoryDefaultName = some names.factoryDefaultName

/-- A kind of profile: where it is kept, and what the row of a queue holds after
the entries for that queue. -/
structure ProfileKind (Entry : Type) where
  table : Table
  nameColumn : Column
  queuesColumn : Column
  nameOf : Database → RowId → CString
  queues : Database → RowId → List (Int × RowId)
  queueOf : Entry → Int
  Holds : List Entry → RowId → Database → Prop
  nameColumn_ne : nameColumn ≠ queuesColumn
  nameOf_eq {before after : Database} {row : RowId}
    (h : after.get row nameColumn = before.get row nameColumn) : nameOf after row = nameOf before row
  queues_eq {before after : Database} {row : RowId}
    (h : after.get row queuesColumn = before.get row queuesColumn) :
    queues after row = queues before row
  holds_eq {before after : Database} {row : RowId} {entries : List Entry}
    (h : ∀ column, after.get row column = before.get row column)
    (hHolds : Holds entries row before) : Holds entries row after

namespace ProfileKind

variable {Entry : Type} (kind : ProfileKind Entry)

/-- The row that a search for a name comes to. -/
def named (db : Database) (wanted : CString) : Option RowId :=
  (db.ids kind.table).find? fun row => kind.nameOf db row = wanted

/-- The queues that occur. -/
def Listed (entries : List Entry) (queue : Int) : Prop := ∃ entry ∈ entries, kind.queueOf entry = queue

/-- The entries for a queue. -/
def entriesFor (entries : List Entry) (queue : Int) : List Entry :=
  entries.filter fun entry => kind.queueOf entry = queue

/-- The profile maps these queues, each to a row of its own that was not there
at the start and holds what the entries for it say. -/
structure Built (start : Database) (profile : RowId) (listed : Int → Prop) (entries : List Entry)
    (db : Database) : Prop where
  frame : start.Extends (fun id column => id = profile ∧ column = kind.queuesColumn) db
  profiles : db.ids kind.table = start.ids kind.table
  keys (queue : Int) : queue ∈ (kind.queues db profile).map Prod.fst ↔ listed queue
  keysDistinct : ((kind.queues db profile).map Prod.fst).Nodup
  rowsDistinct : ((kind.queues db profile).map Prod.snd).Nodup
  fresh : ∀ pair ∈ kind.queues db profile, ¬ start.Exists pair.2
  present : ∀ pair ∈ kind.queues db profile, db.Exists pair.2
  holds : ∀ pair ∈ kind.queues db profile, kind.Holds (kind.entriesFor entries pair.1) pair.2 db

/-- The profile maps exactly the queues that occur, each to a row of its own. -/
structure Maps (entries : List Entry) (profile : RowId) (db : Database) : Prop where
  keys (queue : Int) : queue ∈ (kind.queues db profile).map Prod.fst ↔ kind.Listed entries queue
  keysDistinct : ((kind.queues db profile).map Prod.fst).Nodup
  rowsDistinct : ((kind.queues db profile).map Prod.snd).Nodup

end ProfileKind

section Names

variable {Entry : Type} {kind : ProfileKind Entry} {before after : Database} {profile row : RowId}
  {wanted : CString} {touched : RowId → Column → Prop}

/-- A profile that is found has the name. -/
theorem nameOf_named (h : kind.named before wanted = some row) : kind.nameOf before row = wanted := by
  have hName := List.find?_some h
  exact of_decide_eq_true hName

theorem exists_named (h : kind.named before wanted = some row) : before.Exists row :=
  exists_of_mem_ids (List.mem_of_find?_eq_some h)

/-- Rows have the names they had while no name is written. -/
theorem find_named_later (hFrame : before.Extends touched after)
    (hNames : ∀ id, ¬ touched id kind.nameColumn) :
    ((before.ids kind.table).find? fun row => kind.nameOf after row = wanted) =
      kind.named before wanted := by
  refine List.find?_congr fun row hRow => ?_
  have hName : kind.nameOf after row = kind.nameOf before row :=
    kind.nameOf_eq (hFrame.get_eq row _ (exists_of_mem_ids hRow) (hNames row))
  rw [hName]

/-- It is found again if no name has been touched. -/
theorem named_later (hIds : after.ids kind.table = before.ids kind.table)
    (hFrame : before.Extends touched after) (hNames : ∀ id, ¬ touched id kind.nameColumn) :
    kind.named after wanted = kind.named before wanted := by
  rw [ProfileKind.named, hIds]
  exact find_named_later hFrame hNames

/-- A profile added is found by its name, where no other has that name. -/
theorem named_added (hIds : after.ids kind.table = before.ids kind.table ++ [profile])
    (hFrame : before.Extends (fun _ _ => False) after) :
    kind.named after wanted = (kind.named before wanted).or
      (if kind.nameOf after profile = wanted then some profile else none) := by
  rw [ProfileKind.named, hIds, List.find?_append, find_named_later hFrame fun _ => id]
  by_cases hName : kind.nameOf after profile = wanted <;> simp [hName]

/-- Building up a profile does not change which one is found. -/
theorem ProfileKind.Built.named {start db : Database} {listed : Int → Prop} {entries : List Entry}
    (h : kind.Built start profile listed entries db) :
    kind.named db wanted = kind.named start wanted :=
  named_later h.profiles h.frame fun _ hSame => kind.nameColumn_ne hSame.2

end Names

section Building

variable {Entry : Type} {kind : ProfileKind Entry} {start db after : Database} {profile row : RowId}
  {listed : Int → Prop} {entries : List Entry} {entry : Entry} {queue : Int}

/-- A queue that is not listed has no entries. -/
theorem entriesFor_eq_nil (h : ¬ kind.Listed entries queue) : kind.entriesFor entries queue = [] := by
  refine List.filter_eq_nil_iff.mpr fun entry hEntry hQueue => h ⟨entry, hEntry, ?_⟩
  exact of_decide_eq_true hQueue

theorem entriesFor_concat_same (h : kind.queueOf entry = queue) :
    kind.entriesFor (entries ++ [entry]) queue = kind.entriesFor entries queue ++ [entry] := by
  simp [ProfileKind.entriesFor, List.filter_append, h]

theorem entriesFor_concat_other (h : kind.queueOf entry ≠ queue) :
    kind.entriesFor (entries ++ [entry]) queue = kind.entriesFor entries queue := by
  simp [ProfileKind.entriesFor, List.filter_append, h]

/-- The rows of the queues are not the profile's. -/
theorem ProfileKind.Built.ne_profile (h : kind.Built start profile listed entries db)
    (hProfile : start.Exists profile) {pair : Int × RowId} (hPair : pair ∈ kind.queues db profile) :
    pair.2 ≠ profile := fun hSame => h.fresh pair hPair (hSame ▸ hProfile)

/-- A profile that maps no queue yet. -/
theorem ProfileKind.built_nil (hFrame : start.Extends
      (fun id column => id = profile ∧ column = kind.queuesColumn) db)
    (hProfiles : db.ids kind.table = start.ids kind.table) (hQueues : kind.queues db profile = []) :
    kind.Built start profile (kind.Listed []) [] db := by
  refine ⟨hFrame, hProfiles, fun queue => ?_, ?_, ?_, ?_, ?_, ?_⟩
  · simp [hQueues, ProfileKind.Listed]
  all_goals simp [hQueues]

/-- A queue that is not mapped yet is given a row. -/
theorem ProfileKind.Built.insert (h : kind.Built start profile listed entries db)
    (hProfile : start.Exists profile) (hListed : ∀ queue, kind.Listed entries queue → listed queue)
    (hNone : (kind.queues db profile).lookup queue = none) (hRow : ¬ db.Exists row)
    (hFrame : db.Extends (fun id column => id = profile ∧ column = kind.queuesColumn) after)
    (hProfiles : after.ids kind.table = db.ids kind.table) (hPresent : after.Exists row)
    (hQueues : kind.queues after profile = kind.queues db profile ++ [(queue, row)])
    (hHolds : kind.Holds [] row after) :
    kind.Built start profile (fun other => listed other ∨ other = queue) entries after := by
  have hNew : queue ∉ (kind.queues db profile).map Prod.fst := by
    rw [List.lookup_eq_none_iff] at hNone
    intro hMem
    obtain ⟨pair, hPair, hKey⟩ := List.mem_map.mp hMem
    exact bne_iff_ne.mp (hNone pair hPair) hKey.symm
  have hOld : ∀ pair ∈ kind.queues db profile, pair.2 ≠ row :=
    fun pair hPair hSame => hRow (hSame ▸ h.present pair hPair)
  refine ⟨h.frame.trans hFrame fun _ _ _ => id, hProfiles.trans h.profiles, ?_, ?_, ?_, ?_, ?_, ?_⟩
  · intro other
    rw [hQueues, List.map_append, List.mem_append, h.keys, List.map_singleton, List.mem_singleton]
  · rw [hQueues, List.map_append, List.nodup_append]
    refine ⟨h.keysDistinct, List.nodup_singleton _, ?_⟩
    rintro key hKey _ (_ | ⟨_, _, _⟩) rfl
    exact hNew hKey
  · rw [hQueues, List.map_append, List.nodup_append]
    refine ⟨h.rowsDistinct, List.nodup_singleton _, ?_⟩
    rintro other hOther _ (_ | ⟨_, _, _⟩) rfl
    obtain ⟨pair, hPair, hSame⟩ := List.mem_map.mp hOther
    exact hOld pair hPair hSame
  · rw [hQueues]
    refine List.forall_mem_append.mpr ⟨h.fresh, List.forall_mem_singleton.mpr fun hStart => ?_⟩
    exact hRow (h.frame.exists_of row hStart)
  · rw [hQueues]
    refine List.forall_mem_append.mpr ⟨fun pair hPair => ?_, List.forall_mem_singleton.mpr hPresent⟩
    exact hFrame.exists_of _ (h.present pair hPair)
  · rw [hQueues]
    refine List.forall_mem_append.mpr ⟨fun pair hPair => ?_, List.forall_mem_singleton.mpr ?_⟩
    · refine kind.holds_eq (fun column => ?_) (h.holds pair hPair)
      exact hFrame.get_eq _ _ (h.present pair hPair) fun hSame => h.ne_profile hProfile hPair hSame.1
    · have hNoEntry : kind.entriesFor entries queue = [] :=
        entriesFor_eq_nil fun hListed' => hNew ((h.keys queue).mpr (hListed queue hListed'))
      rw [hNoEntry]
      exact hHolds

/-- The row of a queue is given one entry more. -/
theorem ProfileKind.Built.update (h : kind.Built start profile listed entries db)
    (hProfile : start.Exists profile) (hPair : (kind.queueOf entry, row) ∈ kind.queues db profile)
    (hFrame : db.Extends (fun id _ => id = row) after)
    (hProfiles : after.ids kind.table = db.ids kind.table)
    (hHolds : ∀ mine, kind.Holds mine row db → kind.Holds (mine ++ [entry]) row after) :
    kind.Built start profile listed (entries ++ [entry]) after := by
  have hRow : row ≠ profile := h.ne_profile hProfile hPair
  have hFresh : ¬ start.Exists row := h.fresh _ hPair
  have hQueues : kind.queues after profile = kind.queues db profile :=
    kind.queues_eq (hFrame.get_eq _ _ (h.frame.exists_of _ hProfile) hRow.symm)
  refine ⟨?_, hProfiles.trans h.profiles, ?_, ?_, ?_, ?_, ?_, ?_⟩
  · exact h.frame.trans hFrame fun id _ hOld hSame => absurd (hSame ▸ hOld) hFresh
  · exact hQueues ▸ h.keys
  · exact hQueues ▸ h.keysDistinct
  · exact hQueues ▸ h.rowsDistinct
  · exact hQueues ▸ h.fresh
  · rw [hQueues]
    exact fun pair hMem => hFrame.exists_of _ (h.present pair hMem)
  · rw [hQueues]
    intro pair hMem
    by_cases hQueue : kind.queueOf entry = pair.1
    · have hSame : pair = (kind.queueOf entry, row) :=
        List.inj_on_of_nodup_map h.keysDistinct hMem hPair hQueue.symm
      rw [entriesFor_concat_same hQueue, hSame]
      exact hHolds _ (h.holds _ hPair)
    · rw [entriesFor_concat_other hQueue]
      have hOther : pair.2 ≠ row := fun hSame =>
        hQueue (congrArg Prod.fst (List.inj_on_of_nodup_map h.rowsDistinct hMem hPair hSame)).symm
      exact kind.holds_eq (fun column => hFrame.get_eq _ _ (h.present pair hMem) hOther)
        (h.holds pair hMem)

theorem listed_concat : (fun other => kind.Listed entries other ∨ other = kind.queueOf entry) =
    kind.Listed (entries ++ [entry]) := by
  funext other
  rw [@eq_comm _ other]
  simp only [ProfileKind.Listed, List.mem_append, List.mem_singleton, or_and_right, exists_or,
    exists_eq_left]

/-- A queue that is mapped already counts as listed once more. -/
theorem ProfileKind.Built.again (h : kind.Built start profile (kind.Listed entries) entries db)
    (hPair : (kind.queueOf entry, row) ∈ kind.queues db profile) :
    kind.Built start profile (kind.Listed (entries ++ [entry])) entries db := by
  have hListed : kind.Listed entries (kind.queueOf entry) :=
    (h.keys _).mp (@List.mem_map_of_mem _ _ _ _ Prod.fst hPair)
  refine { h with keys := fun queue => (h.keys queue).trans ?_ }
  rw [← listed_concat]
  exact ⟨.inl, fun hQueue => hQueue.elim id fun hSame => hSame ▸ hListed⟩

/-- A queue's row is mapped. -/
theorem mem_of_queueRow {queues : List (Int × RowId)} (h : queueRow queues queue = some row) :
    (queue, row) ∈ queues := by
  obtain ⟨before, after, hSplit, -⟩ := List.lookup_eq_some_iff.mp h
  rw [hSplit]
  exact List.mem_append_right _ List.mem_cons_self

end Building

section Loop

variable {World : Type} {env : Environment World} {permitted : State World → Request → Prop}
  {txn : TxnId} {Entry : Type} {db : Database}

/-- The entries of a yaml list that a loop up to this count meets. -/
def YamlList.items (list : YamlList Entry) (count : Nat) : List Entry :=
  (List.range count).filterMap list.get

theorem YamlList.items_succ (list : YamlList Entry) (count : Nat) :
    list.items (count + 1) = list.items count ++ (list.get count).toList := by
  rw [YamlList.items, List.range_succ, List.filterMap_append, ← YamlList.items]
  cases hEntry : list.get count <;> simp [hEntry]

/-- An entry below the count is among the items. -/
theorem YamlList.mem_items {list : YamlList Entry} {count ii : Nat} {entry : Entry} (hIndex : ii < count)
    (hEntry : list.get ii = some entry) : entry ∈ list.items count :=
  List.mem_filterMap.mpr ⟨ii, List.mem_range.mpr hIndex, hEntry⟩

/-- A loop over a yaml list, whose rounds without an entry do nothing. -/
theorem transforms_items (list : YamlList Entry) {body : Nat → Program Calls PUnit}
    {invariant : List Entry → Database → Prop} (count : Nat)
    (hSome : ∀ ii < count, ∀ entry done middle, list.get ii = some entry → invariant done middle →
      Transforms env permitted txn (body ii) middle fun _ => invariant (done ++ [entry]))
    (hNone : ∀ ii, list.get ii = none → body ii = pure ()) (hStart : invariant [] db) :
    Transforms env permitted txn (forM (List.range count) body) db fun _ =>
      invariant (list.items count) := by
  refine @transforms_forM_range World env permitted txn db body
    (fun ii => invariant (list.items ii)) count ?_ hStart
  intro ii hIndex middle hMiddle
  rw [list.items_succ]
  cases hEntry : list.get ii with
  | none =>
      rw [Option.toList_none, List.append_nil, hNone ii hEntry]
      exact transforms_done hMiddle
  | some entry =>
      rw [Option.toList_some]
      exact hSome ii hIndex entry _ middle hEntry hMiddle

/-- A search by name. -/
theorem findByName_transforms (admits : Admits env permitted) {table : Table}
    {name : RowId → Program Calls CString} {nameOf : RowId → CString}
    (hName : ∀ row, Transforms env permitted txn (name row) db fun result after =>
      after = db ∧ result = nameOf row) (wanted : CString) :
    Transforms env permitted txn (findByName table name (some wanted)) db fun result after =>
      after = db ∧ result = (db.ids table).find? fun row => nameOf row = wanted := by
  have hSearch (ids : List RowId) :
      Transforms env permitted txn (findByName.search name (some wanted) ids) db fun result after =>
        after = db ∧ result = ids.find? fun row => nameOf row = wanted := by
    induction ids with
    | nil => exact transforms_done ⟨rfl, rfl⟩
    | cons row ids ih =>
        rw [findByName.search]
        refine (hName row).bind ?_
        rintro _ _ ⟨rfl, rfl⟩
        change Transforms _ _ _ (if _ then _ else _) _ _
        by_cases hSame : nameOf row = wanted
        · rw [if_pos ((streq_iff _ _).mpr hSame)]
          exact transforms_done ⟨rfl, by simp [hSame]⟩
        · rw [if_neg (mt (streq_iff _ _).mp hSame)]
          exact ih.mono fun _ _ h => ⟨h.1, by simp [hSame, h.2]⟩
  exact transforms_rows admits (hSearch _)

/-- Without a name to compare with, a search ends where there is nothing to search. -/
theorem findByName_unnamed (admits : Admits env permitted) {table : Table}
    {name : RowId → Program Calls CString}
    (hName : ∀ row, Transforms env permitted txn (name row) db fun _ after => after = db)
    (hNull : ∀ state, permitted state (.fault .nullPointer)) :
    Transforms env permitted txn (findByName table name none) db fun result after =>
      after = db ∧ result = none := by
  refine transforms_rows admits ?_
  cases db.ids table with
  | nil => exact transforms_done ⟨rfl, rfl⟩
  | cons row rows =>
      refine (hName row).bind ?_
      rintro _ _ rfl
      exact fun state _ _ => safe_fault.mpr (hNull state)

/-- The cells that are written to mark a profile and the rows it maps. -/
def Marks (mark rowMark : Column) (profile : RowId) (queues : List (Int × RowId)) (id : RowId)
    (column : Column) : Prop :=
  (id = profile ∧ column = mark) ∨ (column = rowMark ∧ ∃ pair ∈ queues, pair.2 = id)

theorem not_marks {mark rowMark column : Column} {profile id : RowId} {queues : List (Int × RowId)}
    (hProfile : column ≠ mark) (hRow : column ≠ rowMark) :
    ¬ Marks mark rowMark profile queues id column := by
  rintro (⟨-, hColumn⟩ | ⟨hColumn, -⟩)
  · exact hProfile hColumn
  · exact hRow hColumn

/-- A profile and its rows, marked. -/
structure Marked (mark rowMark : Column) (value : mark.Val) (rowValue : rowMark.Val)
    (profile : RowId) (queues : List (Int × RowId)) (db after : Database) : Prop where
  frame : db.Extends (Marks mark rowMark profile queues) after
  ids (table : Table) : after.ids table = db.ids table
  profile : after.get profile mark = value
  rows : ∀ pair ∈ queues, after.get pair.2 rowMark = rowValue

/-- The end of `qos_init_queue_profile` and of `qos_init_schedule_profile`. -/
theorem markProfile_transforms (admits : Admits env permitted) {mark rowMark : Column}
    {arg : mark.Arg} {rowArg : rowMark.Arg} {value : mark.Val} {rowValue : rowMark.Val}
    (queuesColumn : Column) (queuesOf : queuesColumn.Val → List (Int × RowId))
    (hArg : ∀ stored, mark.shape.Stored arg stored → stored = value)
    (hRowArg : ∀ stored, rowMark.shape.Stored rowArg stored → stored = rowValue)
    (hMarks : mark ≠ rowMark) (hQueues : queuesColumn ≠ mark) {profile : RowId}
    (hProfile : db.Exists profile)
    (hRows : ∀ pair ∈ queuesOf (db.get profile queuesColumn), db.Exists pair.2) :
    Transforms env permitted txn (do
      write profile mark arg
      let queues ← read profile queuesColumn
      forM (queuesOf queues) fun pair => write pair.2 rowMark rowArg) db fun _ after =>
      Marked mark rowMark value rowValue profile (queuesOf (db.get profile queuesColumn)) db after := by
  refine transforms_write admits fun stored hStored => transforms_read admits ?_
  have hSame : (Op.apply db (.write profile mark stored)).get profile queuesColumn =
      db.get profile queuesColumn := get_write_other stored fun _ => hQueues
  simp only [bind_eq, done_bind]
  rw [hSame]
  refine (transforms_forM_write admits Prod.snd hRowArg _ ?_).mono ?_
  · exact fun pair hPair => exists_write.mpr (hRows pair hPair)
  intro _ after ⟨hFrame, hIds, hMarked⟩
  refine ⟨?_, fun table => (hIds table).trans ids_write, ?_, hMarked⟩
  · refine ((extends_write stored).mono fun _ _ _ => .inl).trans hFrame ?_
    exact fun _ _ _ => .inr
  · refine (hFrame.get_eq _ _ (exists_write.mpr hProfile) fun hColumn => hMarks hColumn.1).trans ?_
    exact (get_write_same hProfile stored).trans (hArg stored hStored)

end Loop
end OpsSysd.Daemon
