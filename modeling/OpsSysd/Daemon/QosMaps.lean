import OpsSysd.Daemon.Qos
import OpsSysd.Idl.Transforms
import OpsSysd.Library.Decimal
import Mathlib.Data.List.Nodup

/-! The CoS and DSCP maps that the initial configuration publishes. The number of
rows is fixed and the number of entries given values comes from the description;
the maps published are the maps described where the two agree. -/
namespace OpsSysd.Daemon

open CLib Interaction Interaction.Program Idl

/-- A list of which every item is there. -/
def YamlList.ofList {Entry : Type} (entries : List Entry) : YamlList Entry where
  count := entries.length
  get ii := entries[ii]?

/-- The numbers of an entry are `int64_t`s. -/
def MapEntry.Fits (entry : MapEntry) : Prop :=
  (-2 ^ 63 ≤ entry.codePoint ∧ entry.codePoint < 2 ^ 63) ∧
    -2 ^ 63 ≤ entry.localPriority ∧ entry.localPriority < 2 ^ 63

/-- Both strings of an entry are there. -/
def MapEntry.Complete (entry : MapEntry) : Prop := entry.color ≠ none ∧ entry.description ≠ none

instance (entry : MapEntry) : Decidable entry.Complete := inferInstanceAs (Decidable (_ ∧ _))

theorem MapEntry.complete_iff {entry : MapEntry} : entry.Complete ↔
    ∃ color description, entry.color = some color ∧ entry.description = some description := by
  simp only [MapEntry.Complete, Option.ne_none_iff_exists', exists_and_left, exists_and_right]

/-- A row of either map: its live columns and its factory defaults. -/
structure MapRow where
  live : MapEntry
  hwDefaults : Smap

def mapRow (columns : MapColumns) (db : Database) (row : RowId) : MapRow where
  live := {
    codePoint := columns.codePoint.value (db.get row columns.codePoint.column)
    localPriority := columns.localPriority.value (db.get row columns.localPriority.column)
    color := some (columns.color.value (db.get row columns.color.column))
    description := some (columns.description.value (db.get row columns.description.column)) }
  hwDefaults := columns.hwDefaults.value (db.get row columns.hwDefaults.column)

def cosMapRow : Database → RowId → MapRow := mapRow cosMapColumns

def dscpMapRow : Database → RowId → MapRow := mapRow dscpMapColumns

/-- The four factory defaults, read back. -/
def factoryDefaults (smap : Smap) : Option MapEntry := do
  let codePoint ← ofDecimal (← smap.lookup qosDefaultCodePointKey)
  let localPriority ← ofDecimal (← smap.lookup qosDefaultLocalPriorityKey)
  let color ← smap.lookup qosDefaultColorKey
  let description ← smap.lookup qosDefaultDescriptionKey
  return ⟨codePoint, localPriority, some color, some description⟩

/-- The row has the entry's values, and restoring its factory defaults changes
none of them. -/
def MapRow.Describes (row : MapRow) (entry : MapEntry) : Prop :=
  row.live = entry ∧ factoryDefaults row.hwDefaults = some row.live

/-- One row for each entry, with that entry's values. -/
structure MapPublished (rowOf : RowId → MapRow) (rows : List RowId) (entries : List MapEntry) :
    Prop where
  distinct : rows.Nodup
  described : List.Forall₂ (fun row entry => (rowOf row).Describes entry) rows entries

section Defaults

/-- A key that is set has the value. -/
theorem lookup_replace_same (smap : Smap) (key value : CString) :
    (smap.replace key value).lookup key = some value := by
  have hNone : (smap.filter fun pair => decide (pair.1 ≠ key)).lookup key = none := by
    refine List.lookup_eq_none_iff.mpr fun pair hPair => ?_
    have hKey : pair.1 ≠ key := of_decide_eq_true (List.mem_filter.mp hPair).2
    exact bne_iff_ne.mpr hKey.symm
  rw [Smap.replace, List.lookup_append, hNone]
  simp

/-- The other keys keep theirs. -/
theorem lookup_replace_other (smap : Smap) {key other : CString} (value : CString)
    (h : other ≠ key) : (smap.replace key value).lookup other = smap.lookup other := by
  have hLast : [(key, value)].lookup other = none := by
    simp [List.lookup_cons, beq_false_of_ne h]
  rw [Smap.replace, List.lookup_append, hLast, Option.or_none]
  induction smap with
  | nil => rfl
  | cons pair smap ih =>
      by_cases hKey : pair.1 = key
      · have hSkip : (other == pair.1) = false := beq_false_of_ne (hKey ▸ h)
        rw [List.filter_cons_of_neg (by simpa using hKey), ih, List.lookup_cons, hSkip]
      · rw [List.filter_cons_of_pos (by simpa using hKey), List.lookup_cons, List.lookup_cons, ih]

/-- A 64-bit number fits the buffer it is written to. -/
theorem ofDecimal_snprintf {n : Int} (hLower : -2 ^ 63 ≤ n) (hUpper : n < 2 ^ 63) :
    ofDecimal (snprintf qosCliStringBufferSize (decimal n)) = some n := by
  have hLength : (decimal n).bytes.length ≤ qosCliStringBufferSize - 1 := by
    have hChars := congrArg List.length (CString.chars_lit (ascii_toString n))
    rw [CString.chars, List.length_map] at hChars
    have hShort := length_toString_le hLower hUpper
    rw [← hChars] at hShort
    exact Nat.le_trans hShort (by decide)
  have hWhole : snprintf qosCliStringBufferSize (decimal n) = decimal n :=
    CString.ext (List.take_of_length_le hLength)
  rw [hWhole]
  exact ofDecimal_toString n

/-- The factory defaults of an entry are read back as that entry. -/
theorem factoryDefaults_hwDefaults {entry : MapEntry} (h : entry.Fits) {color description : CString}
    (hColor : entry.color = some color) (hDescription : entry.description = some description)
    (smap : Smap) : factoryDefaults (hwDefaults smap entry color description) = some entry := by
  have hCodePointItem : (hwDefaults smap entry color description).lookup qosDefaultCodePointKey =
      some (snprintf qosCliStringBufferSize (decimal entry.codePoint)) := by
    rw [hwDefaults, lookup_replace_other _ _ (by decide), lookup_replace_other _ _ (by decide),
      lookup_replace_other _ _ (by decide), lookup_replace_same]
  have hLocalPriorityItem : (hwDefaults smap entry color description).lookup
      qosDefaultLocalPriorityKey =
        some (snprintf qosCliStringBufferSize (decimal entry.localPriority)) := by
    rw [hwDefaults, lookup_replace_other _ _ (by decide), lookup_replace_other _ _ (by decide),
      lookup_replace_same]
  have hColorItem : (hwDefaults smap entry color description).lookup qosDefaultColorKey =
      some color := by
    rw [hwDefaults, lookup_replace_other _ _ (by decide), lookup_replace_same]
  have hDescriptionItem : (hwDefaults smap entry color description).lookup qosDefaultDescriptionKey =
      some description := by
    rw [hwDefaults, lookup_replace_same]
  simp only [factoryDefaults, hCodePointItem, hLocalPriorityItem, hColorItem, hDescriptionItem,
    ofDecimal_snprintf h.1.1 h.1.2, ofDecimal_snprintf h.2.1 h.2.2, Option.bind_eq_bind,
    Option.bind_some, Option.pure_def]
  rw [← hColor, ← hDescription]

end Defaults

section Rows

variable {World : Type} {env : Environment World} {permitted : State World → Request → Prop}
  {txn : TxnId} {db : Database} {system : RowId} {config : Config} {columns : MapColumns}

/-- They are five columns. -/
def MapColumns.Distinct (columns : MapColumns) : Prop := columns.all.Nodup

instance (columns : MapColumns) : Decidable columns.Distinct :=
  inferInstanceAs (Decidable (List.Nodup _))

/-- The setter gives a row an entry's values and touches no other row. -/
theorem setMapEntry_transforms (admits : Admits env permitted) (hDistinct : columns.Distinct)
    {row : RowId} (hRow : db.Exists row) {entry : MapEntry} {color description : CString}
    (hColor : entry.color = some color) (hDescription : entry.description = some description) :
    Transforms env permitted txn (setMapEntry columns row entry) db fun _ after =>
      db.Extends (fun id _ => id = row) after ∧
        mapRow columns after row =
          ⟨entry, hwDefaults (mapRow columns db row).hwDefaults entry color description⟩ := by
  obtain ⟨codePoint, localPriority, _, _⟩ := entry
  obtain rfl := hColor
  obtain rfl := hDescription
  simp only [MapColumns.Distinct, MapColumns.all, List.nodup_cons, List.mem_cons, not_or, List.not_mem_nil,
    not_false_eq_true, and_true, List.nodup_nil] at hDistinct
  obtain ⟨⟨hCode₁, hCode₂, hCode₃, hCode₄⟩, ⟨hPriority₁, hPriority₂, hPriority₃⟩,
    ⟨hColor₁, hColor₂⟩, hDescription₁⟩ := hDistinct
  refine transforms_write admits fun storedCode hCode => ?_
  refine transforms_write admits fun storedPriority hPriority => ?_
  refine transforms_write admits fun storedColor hColor => ?_
  refine transforms_write admits fun storedDescription hDescription => ?_
  apply transforms_read admits
  refine transforms_write admits fun storedDefaults hDefaults => ?_
  rw [ColumnOf.stored_arg] at hCode hPriority hColor hDescription hDefaults
  refine transforms_done ⟨⟨fun id h => by simpa using h, fun id column _ hOther => ?_⟩, ?_⟩
  · simp [get_write_other, hOther]
  · have hRead : (mapRow columns db row).hwDefaults =
        columns.hwDefaults.value (db.get row columns.hwDefaults.column) := rfl
    simp_all [mapRow, get_write_other, Shape.Stored, Ne.symm]

/-- A row's cells decide what it is in the map. -/
theorem mapRow_congr {after : Database} {row : RowId}
    (h : ∀ column ∈ columns.all, after.get row column = db.get row column) :
    mapRow columns after row = mapRow columns db row := by
  simp only [MapColumns.all, List.forall_mem_cons] at h
  simp only [mapRow, h]

/-- A setter that comes to a missing string goes no further. -/
theorem setMapEntry_stops (admits : Admits env permitted) (row : RowId) {entry : MapEntry}
    (hIncomplete : ¬ entry.Complete) (hNull : ∀ state, permitted state (.fault .nullPointer)) :
    Transforms env permitted txn (setMapEntry columns row entry) db fun _ _ => False := by
  have hFault {Result : Type} {next : Empty → Program Calls Result} {middle : Database} :
      Transforms env permitted txn (.call (.fault .nullPointer) next) middle fun _ _ => False :=
    fun state _ _ => safe_fault.mpr (hNull state)
  refine transforms_write admits fun _ _ => transforms_write admits fun _ _ => ?_
  cases hColor : entry.color with
  | none => exact hFault
  | some color =>
      refine transforms_write admits fun _ _ => ?_
      cases hDescription : entry.description with
      | none => exact hFault
      | some description =>
          exact absurd (MapEntry.complete_iff.mpr ⟨color, description, hColor, hDescription⟩) hIncomplete

/-- The body of the loop over the entries. -/
def initMapEntry (entries : YamlList MapEntry) (set : RowId → MapEntry → Program Calls Unit)
    (mapRows : List RowId) (ii : Nat) : Program Calls Unit := do
  match mapRows[ii]? with
  | none => fault .outOfBounds
  | some row =>
      let entry ← orFault (entries.get ii)
      set row entry

/-- The loop sets one row after the other, by the index. -/
theorem initDefaultMap_eq {entries : YamlList MapEntry} {mapRows : List RowId}
    (set : RowId → MapEntry → Program Calls Unit) : initDefaultMap entries set mapRows =
      forM (List.range entries.unsignedCount) (initMapEntry entries set mapRows) := rfl

/-- The entry of this index is there, with both its strings. -/
def YamlList.Settable (entries : YamlList MapEntry) (ii : Nat) : Prop :=
  ∃ entry, entries.get ii = some entry ∧ entry.Complete

/-- The faults are permitted that a loop over this many of the entries comes to. -/
structure LoopFaults (permitted : State World → Request → Prop) (entries : YamlList MapEntry)
    (size count : Nat) : Prop where
  overrun : ∀ ii < count, (∀ earlier < ii, entries.Settable earlier) → size ≤ ii →
    ∀ state, permitted state (.fault .outOfBounds)
  missing : ∀ ii < count, ¬ entries.Settable ii → ∀ state, permitted state (.fault .nullPointer)

/-- This many of the entries have been given to rows, each to the one of its index. -/
def MapFilled (columns : MapColumns) (entries : YamlList MapEntry) (count : Nat)
    (mapRows : List RowId) (db : Database) : Prop :=
  ∀ ii < count, ∃ row entry, mapRows[ii]? = some row ∧ entries.get ii = some entry ∧
    entry.Complete ∧ (entry.Fits → (mapRow columns db row).Describes entry)

variable {entries : YamlList MapEntry} {mapRows : List RowId} {count : Nat}

/-- An entry that has been set could be. -/
theorem MapFilled.settable (h : MapFilled columns entries count mapRows db) {ii : Nat}
    (hIndex : ii < count) : entries.Settable ii := by
  obtain ⟨_, entry, _, hEntry, hComplete, _⟩ := h ii hIndex
  exact ⟨entry, hEntry, hComplete⟩

/-- What is written elsewhere leaves the rows as they are. -/
theorem MapFilled.later {after : Database} (h : MapFilled columns entries count mapRows db)
    (hRows : ∀ row ∈ mapRows, mapRow columns after row = mapRow columns db row) :
    MapFilled columns entries count mapRows after := by
  intro ii hIndex
  obtain ⟨row, entry, hRow, hEntry, hComplete, hDescribes⟩ := h ii hIndex
  refine ⟨row, entry, hRow, hEntry, hComplete, fun hFits => ?_⟩
  rw [hRows row (List.mem_of_getElem? hRow)]
  exact hDescribes hFits

/-- What the loop over the entries has done when it has come to this one. -/
structure Initialised (columns : MapColumns) (db : Database) (entries : YamlList MapEntry)
    (mapRows : List RowId) (count : Nat) (middle : Database) : Prop where
  frame : db.Extends (fun id _ => id ∈ mapRows) middle
  filled : MapFilled columns entries count mapRows middle

/-- One entry is given to its row, or the loop ends with it. -/
theorem initMapEntry_transforms (admits : Admits env permitted) (hColumns : columns.Distinct)
    (hRows : ∀ row ∈ mapRows, db.Exists row) {ii : Nat}
    (hOverrun : mapRows.length ≤ ii → ∀ state, permitted state (.fault .outOfBounds))
    (hMissing : ¬ entries.Settable ii → ∀ state, permitted state (.fault .nullPointer)) :
    Transforms env permitted txn (initMapEntry entries (setMapEntry columns) mapRows ii) db
      fun _ after => ∃ row entry, mapRows[ii]? = some row ∧ entries.get ii = some entry ∧
        entry.Complete ∧ db.Extends (fun id _ => id = row) after ∧
        (entry.Fits → (mapRow columns after row).Describes entry) := by
  rw [initMapEntry]
  by_cases hIndex : ii < mapRows.length
  case neg =>
    rw [List.getElem?_eq_none (Nat.le_of_not_lt hIndex)]
    exact fun state _ _ => safe_fault.mpr (hOverrun (Nat.le_of_not_lt hIndex) state)
  rw [List.getElem?_eq_getElem hIndex]
  cases hEntry : entries.get ii with
  | none =>
      have hNull := hMissing fun ⟨entry, hSome, _⟩ => nomatch hEntry.symm.trans hSome
      exact fun state _ _ => safe_fault.mpr (hNull state)
  | some entry =>
      by_cases hComplete : entry.Complete
      · obtain ⟨color, description, hColor, hDescription⟩ := MapEntry.complete_iff.mp hComplete
        have hSet := @setMapEntry_transforms _ env permitted txn db columns admits hColumns
          mapRows[ii] (hRows _ (List.getElem_mem hIndex)) entry color description hColor hDescription
        refine hSet.mono fun _ after ⟨hAfter, hValues⟩ => ⟨_, entry, rfl, rfl, hComplete, hAfter, ?_⟩
        intro hFits
        rw [MapRow.Describes, hValues]
        exact ⟨rfl, factoryDefaults_hwDefaults hFits hColor hDescription _⟩
      · have hNull := hMissing fun ⟨other, hSome, hOther⟩ =>
          hComplete (Option.some.inj (hEntry.symm.trans hSome) ▸ hOther)
        exact (setMapEntry_stops admits mapRows[ii] hComplete hNull).mono fun _ _ => False.elim

/-- The entries are given to the first rows, one to each. -/
theorem initMapEntries_transforms (admits : Admits env permitted) (hColumns : columns.Distinct)
    (hDistinct : mapRows.Nodup) (hRows : ∀ row ∈ mapRows, db.Exists row)
    (hFaults : LoopFaults permitted entries mapRows.length count) :
    Transforms env permitted txn
      (forM (List.range count) (initMapEntry entries (setMapEntry columns) mapRows)) db
      fun _ => Initialised columns db entries mapRows count := by
  refine transforms_forM_range count ?_ ⟨.refl _ _, nofun⟩
  intro ii hIndex middle h
  have hMiddle : ∀ row ∈ mapRows, middle.Exists row := fun row hRow => h.frame.exists_of row (hRows row hRow)
  refine (initMapEntry_transforms admits hColumns hMiddle
    (hFaults.overrun ii hIndex fun _ => h.filled.settable) (hFaults.missing ii hIndex)).mono ?_
  rintro _ after ⟨row, entry, hRow, hEntry, hComplete, hAfter, hDescribes⟩
  have hMem : row ∈ mapRows := List.mem_of_getElem? hRow
  refine ⟨h.frame.trans hAfter fun id _ _ hId => hId ▸ hMem, fun earlier hEarlier => ?_⟩
  rcases Nat.lt_succ_iff_lt_or_eq.mp hEarlier with hBefore | rfl
  · obtain ⟨other, before, hOther, hGet, hWhole, hHeld⟩ := h.filled earlier hBefore
    refine ⟨other, before, hOther, hGet, hWhole, fun hFits => ?_⟩
    -- two indexes of the array are two rows
    have hNe : other ≠ row := by
      rintro rfl
      have hLength : earlier < mapRows.length := (List.getElem?_eq_some_iff.mp hOther).1
      exact Nat.ne_of_lt hBefore ((List.getElem?_inj hLength hDistinct).mp (hOther.trans hRow.symm))
    have hSame : mapRow columns after other = mapRow columns middle other :=
      mapRow_congr fun column _ => hAfter.get_eq _ column (hMiddle other (List.mem_of_getElem? hOther)) hNe
    rw [hSame]
    exact hHeld hFits
  · exact ⟨row, entry, hRow, hEntry, hComplete, hDescribes⟩

/-- A map of this many rows has been added, and the entries given to the first
of them. -/
structure MapAdded (columns : MapColumns) (size : Nat) (system : RowId) (listed : Column)
    (db : Database) (entries : YamlList MapEntry) (mapRows : List RowId) (after : Database) : Prop where
  size : mapRows.length = size
  distinct : mapRows.Nodup
  fresh : ∀ row ∈ mapRows, ¬ db.Exists row
  present : ∀ row ∈ mapRows, after.Exists row
  frame : db.Extends (fun id column => id = system ∧ column = listed) after
  filled : MapFilled columns entries entries.unsignedCount mapRows after

/-- Rows that are in the map already keep what they are given. -/
theorem MapAdded.later {size : Nat} {listed : Column} {middle after : Database}
    {touched : RowId → Column → Prop}
    (h : MapAdded columns size system listed db entries mapRows middle) (hSystem : db.Exists system)
    (hLater : middle.Extends touched after) (hTouched : ∀ id column, touched id column → id = system) :
    MapFilled columns entries entries.unsignedCount mapRows after := by
  refine h.filled.later fun row hRow => mapRow_congr fun column _ => ?_
  refine hLater.get_eq _ column (h.present _ hRow) fun hTouch => ?_
  exact h.fresh _ hRow (hTouched _ _ hTouch ▸ hSystem)

/-- The rows of a map stay filled when the System row lists them. -/
theorem MapAdded.write {size : Nat} {listed : Column} {middle : Database} (hSystem : db.Exists system)
    (h : MapAdded columns size system listed db entries mapRows middle) (value : listed.Val) :
    MapAdded columns size system listed db entries mapRows
      ((Op.write system listed value).apply middle) where
  size := h.size
  distinct := h.distinct
  fresh := h.fresh
  present row hRow := exists_write.mpr (h.present row hRow)
  frame := h.frame.trans (extends_write value) fun _ _ _ => id
  filled := h.later hSystem (extends_write value) fun _ _ => And.left

/-- The rows of a map are inserted, given their values and listed. -/
theorem qosInitMap_transforms (admits : Admits env permitted) (hColumns : columns.Distinct)
    {size : Nat} (hFirst : (entries.get 0).isSome)
    (hFaults : LoopFaults permitted entries size entries.unsignedCount) (table : Table)
    (listed : ColumnOf .references) (hSystem : db.Exists system) :
    Transforms env permitted txn
      (qosInitMap entries (setMapEntry columns) txn table size listed system) db
      fun _ after => MapAdded columns size system listed.column db entries
        (listed.value (after.get system listed.column)) after := by
  rw [qosInitMap, if_pos hFirst]
  refine (transforms_mapM_insertRow admits (List.range size) table).bind ?_
  rintro mapRows middle ⟨hLength, hInserted⟩
  rw [List.length_range] at hLength
  rw [initDefaultMap_eq]
  refine (initMapEntries_transforms admits hColumns hInserted.distinct hInserted.present
    (hLength ▸ hFaults)).bind fun _ last hLast => ?_
  have hFrame : db.Extends (fun id column => id = system ∧ column = listed.column) last := by
    refine (hInserted.frame.trans (hLast.frame.mono fun id _ _ hId => hId) ?_).mono ?_
    · exact fun id _ hOld hId => hInserted.fresh id hId hOld
    · exact fun _ _ _ => False.elim
  have hAdded : MapAdded columns size system listed.column db entries mapRows last := by
    refine ⟨hLength, hInserted.distinct, hInserted.fresh, ?_, hFrame, hLast.filled⟩
    exact fun row hRow => hLast.frame.exists_of row (hInserted.present row hRow)
  refine transforms_write admits fun stored hStored => transforms_done ?_
  have hListed := Slice.Stored.eq_array ((ColumnOf.stored_arg _ _ _).mp hStored) hLength
  rw [get_write_same (hFrame.exists_of system hSystem), hListed]
  exact hAdded.write hSystem stored

theorem cosMapColumns_distinct : cosMapColumns.Distinct := by decide

theorem dscpMapColumns_distinct : dscpMapColumns.Distinct := by decide

theorem qosInitCosMap_transforms (admits : Admits env permitted) (hFirst : (config.cosMap.get 0).isSome)
    (hFaults : LoopFaults permitted config.cosMap qosCosMapEntryCount config.cosMap.unsignedCount)
    (hSystem : db.Exists system) :
    Transforms env permitted txn (qosInitCosMap config txn system) db fun _ after =>
      MapAdded cosMapColumns qosCosMapEntryCount system .systemQosCosMapEntries db config.cosMap
        (after.get system .systemQosCosMapEntries) after :=
  qosInitMap_transforms admits cosMapColumns_distinct hFirst hFaults .qosCosMapEntry
    ⟨.systemQosCosMapEntries, rfl⟩ hSystem

theorem qosInitDscpMap_transforms (admits : Admits env permitted) (hFirst : (config.dscpMap.get 0).isSome)
    (hFaults : LoopFaults permitted config.dscpMap qosDscpMapEntryCount config.dscpMap.unsignedCount)
    (hSystem : db.Exists system) :
    Transforms env permitted txn (qosInitDscpMap config txn system) db fun _ after =>
      MapAdded dscpMapColumns qosDscpMapEntryCount system .systemQosDscpMapEntries db config.dscpMap
        (after.get system .systemQosDscpMapEntries) after :=
  qosInitMap_transforms admits dscpMapColumns_distinct hFirst hFaults .qosDscpMapEntry
    ⟨.systemQosDscpMapEntries, rfl⟩ hSystem

end Rows

section Lists

variable {columns : MapColumns} {entries : List MapEntry} {mapRows : List RowId} {db : Database}

theorem unsignedCount_ofList {Entry : Type} {entries : List Entry} (h : entries.length < 2 ^ 32) :
    (YamlList.ofList entries).unsignedCount = entries.length := by
  have hMod : ((entries.length : Int) % 2 ^ 32) = entries.length := by omega
  rw [YamlList.unsignedCount, YamlList.ofList, hMod, Int.toNat_natCast]

theorem isSome_ofList {Entry : Type} {entries : List Entry} (h : 1 ≤ entries.length) :
    ((YamlList.ofList entries).get 0).isSome := by
  rw [show (YamlList.ofList entries).get 0 = entries[0]? from rfl, List.getElem?_eq_getElem h]
  rfl

/-- A loop over such a list that has room comes to no fault. -/
theorem loopFaults_ofList {World : Type} {permitted : State World → Request → Prop} {size : Nat}
    (hSize : entries.length ≤ size) (hSmall : size < 2 ^ 32)
    (hComplete : ∀ entry ∈ entries, entry.Complete) :
    LoopFaults permitted (.ofList entries) size (YamlList.ofList entries).unsignedCount := by
  rw [unsignedCount_ofList (Nat.lt_of_le_of_lt hSize hSmall)]
  refine ⟨fun ii hIndex _ hPast => ?_, fun ii hIndex hUnset => absurd ?_ hUnset⟩
  · exact absurd (Nat.lt_of_lt_of_le hIndex hSize) (Nat.not_lt.mpr hPast)
  · exact ⟨entries[ii], List.getElem?_eq_getElem hIndex, hComplete _ (List.getElem_mem hIndex)⟩

/-- Each row describes the entry of its index. -/
theorem MapFilled.describes
    (h : MapFilled columns (.ofList entries) (YamlList.ofList entries).unsignedCount mapRows db)
    (hSmall : entries.length < 2 ^ 32) (hFits : ∀ entry ∈ entries, entry.Fits) (index : Nat)
    (hEntry : index < entries.length) (hRow : index < mapRows.length) :
    (mapRow columns db mapRows[index]).Describes entries[index] := by
  rw [unsignedCount_ofList hSmall] at h
  obtain ⟨row, entry, hRow', hEntry', -, hDescribes⟩ := h index hEntry
  obtain rfl : mapRows[index] = row :=
    Option.some.inj ((List.getElem?_eq_getElem hRow).symm.trans hRow')
  obtain rfl : entries[index] = entry :=
    Option.some.inj ((List.getElem?_eq_getElem hEntry).symm.trans hEntry')
  exact hDescribes (hFits _ (List.getElem_mem hEntry))

/-- The rows published are the entries described where there are as many. -/
theorem mapPublished_iff {rowOf : RowId → MapRow} {size : Nat} (hSize : mapRows.length = size)
    (hDistinct : mapRows.Nodup)
    (hDescribed : ∀ index (hEntry : index < entries.length) (hRow : index < mapRows.length),
      (rowOf mapRows[index]).Describes entries[index]) :
    MapPublished rowOf mapRows entries ↔ entries.length = size := by
  constructor
  · exact fun hPublished => hPublished.described.length_eq.symm.trans hSize
  · intro hLength
    refine ⟨hDistinct, List.forall₂_iff_get.mpr ⟨hSize.trans hLength.symm, ?_⟩⟩
    exact fun index hRow hEntry => hDescribed index hEntry hRow

end Lists

section Published

variable {World : Type} {env : Environment World} {txn : TxnId} {system : RowId} {config : Config}
  {cos dscp : List MapEntry} {state : State World}

/-- The two maps of the initial configuration. -/
def qosInitMaps (config : Config) (txn : TxnId) (system : RowId) : Program Calls Unit := do
  qosInitDscpMap config txn system
  qosInitCosMap config txn system

/-- The System row refers to the maps described. -/
structure MapsPublished (db : Database) (system : RowId) (cos dscp : List MapEntry) : Prop where
  cos : MapPublished (cosMapRow db) (db.get system .systemQosCosMapEntries) cos
  dscp : MapPublished (dscpMapRow db) (db.get system .systemQosDscpMapEntries) dscp

/-- A description of these maps, within the size of the tables. -/
structure DescribesMaps (config : Config) (cos dscp : List MapEntry) : Prop where
  cosMap : config.cosMap = .ofList cos
  dscpMap : config.dscpMap = .ofList dscp
  cosNonempty : 1 ≤ cos.length
  cosSize : cos.length ≤ qosCosMapEntryCount
  dscpNonempty : 1 ≤ dscp.length
  dscpSize : dscp.length ≤ qosDscpMapEntryCount
  cosFits : ∀ entry ∈ cos, entry.Fits
  dscpFits : ∀ entry ∈ dscp, entry.Fits
  cosComplete : ∀ entry ∈ cos, entry.Complete
  dscpComplete : ∀ entry ∈ dscp, entry.Complete

/-- Both maps are published exactly if both are full. -/
theorem qosInitMaps_transforms {permitted : State World → Request → Prop}
    (admits : Admits env permitted) (describes : DescribesMaps config cos dscp) {db : Database}
    (hSystem : db.Exists system) :
    Transforms env permitted txn (qosInitMaps config txn system) db fun _ after =>
      MapsPublished after system cos dscp ↔
        cos.length = qosCosMapEntryCount ∧ dscp.length = qosDscpMapEntryCount := by
  have hDscpFirst : (config.dscpMap.get 0).isSome :=
    describes.dscpMap ▸ isSome_ofList describes.dscpNonempty
  have hCosFirst : (config.cosMap.get 0).isSome := describes.cosMap ▸ isSome_ofList describes.cosNonempty
  have hDscpFaults := @loopFaults_ofList dscp World permitted _ describes.dscpSize (by decide)
    describes.dscpComplete
  have hCosFaults := @loopFaults_ofList cos World permitted _ describes.cosSize (by decide)
    describes.cosComplete
  refine (qosInitDscpMap_transforms admits hDscpFirst (describes.dscpMap ▸ hDscpFaults) hSystem).bind
    fun _ middle hMiddle => ?_
  have hSystem' := hMiddle.frame.exists_of system hSystem
  refine (qosInitCosMap_transforms admits hCosFirst (describes.cosMap ▸ hCosFaults) hSystem').mono
    fun _ after hAfter => ?_
  have hCosFilled := hAfter.filled
  have hDscpFilled := hMiddle.later hSystem hAfter.frame fun _ _ => And.left
  rw [describes.cosMap] at hCosFilled
  rw [describes.dscpMap] at hDscpFilled
  have hCosSmall : cos.length < 2 ^ 32 := Nat.lt_of_le_of_lt describes.cosSize (by decide)
  have hDscpSmall : dscp.length < 2 ^ 32 := Nat.lt_of_le_of_lt describes.dscpSize (by decide)
  have hColumn : after.get system .systemQosDscpMapEntries =
      middle.get system .systemQosDscpMapEntries :=
    hAfter.frame.get_eq _ _ hSystem' fun hSame => nomatch hSame.2
  have hCosPublished : MapPublished (cosMapRow after) (after.get system .systemQosCosMapEntries) cos ↔
      cos.length = qosCosMapEntryCount :=
    mapPublished_iff hAfter.size hAfter.distinct (hCosFilled.describes hCosSmall describes.cosFits)
  have hDscpPublished : MapPublished (dscpMapRow after) (after.get system .systemQosDscpMapEntries)
      dscp ↔ dscp.length = qosDscpMapEntryCount := by
    rw [hColumn]
    exact mapPublished_iff hMiddle.size hMiddle.distinct
      (hDscpFilled.describes hDscpSmall describes.dscpFits)
  exact ⟨fun h => ⟨hCosPublished.mp h.cos, hDscpPublished.mp h.dscp⟩,
    fun h => ⟨hCosPublished.mpr h.1, hDscpPublished.mpr h.2⟩⟩

/-- The maps published are the maps described exactly where the description fills
the tables. -/
theorem mapsPublished_iff (total : env.Total) (describes : DescribesMaps config cos dscp)
    (hOpen : state.Opened txn) (hSystem : state.view.Exists system) :
    (∃ after, Exec (step env) (qosInitMaps config txn system) state () after) ∧
    ((∀ after, Exec (step env) (qosInitMaps config txn system) state () after →
      MapsPublished after.view system cos dscp) ↔
      cos.length = qosCosMapEntryCount ∧ dscp.length = qosDscpMapEntryCount) := by
  have hSome : Transforms env.accepting Disciplined txn (qosInitMaps config txn system) state.view _ :=
    qosInitMaps_transforms admits_accepting describes hSystem
  have hAny : Transforms env (fun _ _ => True) txn (qosInitMaps config txn system) state.view _ :=
    qosInitMaps_transforms (admits_any env) describes hSystem
  obtain ⟨_, after, hExec, -, hPublished⟩ := hSome.exists_exec total hOpen
  refine ⟨⟨after, hExec⟩, fun hAll => hPublished.mp (hAll after hExec), ?_⟩
  exact fun hFull other hOther => (hAny.of_exec hOpen hOther).2.mpr hFull

/-- The entry for a code point of the shipped maps. -/
def bestEffort (codePoint : Nat) : MapEntry :=
  ⟨codePoint, 1, some (.lit "green"), some (.lit "Best_Effort")⟩

/-- A switch with a CoS map and a DSCP map of this many entries. -/
def mapsConfig (cos dscp : Nat) : Config :=
  { Config.onePort [] with
    cosMap := .ofList ((List.range cos).map bestEffort)
    dscpMap := .ofList ((List.range dscp).map bestEffort) }

theorem mapsConfig_describes {cos dscp : Nat} (hCos : 1 ≤ cos ∧ cos ≤ qosCosMapEntryCount)
    (hDscp : 1 ≤ dscp ∧ dscp ≤ qosDscpMapEntryCount) :
    DescribesMaps (mapsConfig cos dscp) ((List.range cos).map bestEffort)
      ((List.range dscp).map bestEffort) := by
  have hFits : ∀ count ≤ qosDscpMapEntryCount, ∀ entry ∈ (List.range count).map bestEffort,
      entry.Fits := by
    intro count hCount entry hEntry
    obtain ⟨codePoint, hMem, rfl⟩ := List.mem_map.mp hEntry
    have hBound : codePoint < qosDscpMapEntryCount :=
      Nat.lt_of_lt_of_le (List.mem_range.mp hMem) hCount
    simp only [MapEntry.Fits, bestEffort, qosDscpMapEntryCount] at hBound ⊢
    omega
  have hComplete : ∀ count, ∀ entry ∈ (List.range count).map bestEffort, entry.Complete := by
    intro count entry hEntry
    obtain ⟨codePoint, -, rfl⟩ := List.mem_map.mp hEntry
    exact ⟨nofun, nofun⟩
  have hLength (count : Nat) : ((List.range count).map bestEffort).length = count := by simp
  exact ⟨rfl, rfl, (hLength cos).symm ▸ hCos.1, (hLength cos).symm ▸ hCos.2,
    (hLength dscp).symm ▸ hDscp.1, (hLength dscp).symm ▸ hDscp.2,
    hFits cos (hCos.2.trans (by decide)), hFits dscp hDscp.2, hComplete cos, hComplete dscp⟩

/-- Where the description has 8 and 64 entries. -/
theorem fullMaps_published :
    (∃ after, Exec (step anyEnv) (qosInitMaps (mapsConfig 8 64) 0 0) configuring () after) ∧
    ∀ after, Exec (step anyEnv) (qosInitMaps (mapsConfig 8 64) 0 0) configuring () after →
      MapsPublished after.view 0 ((List.range 8).map bestEffort) ((List.range 64).map bestEffort) := by
  have hDescribes := @mapsConfig_describes 8 64 (by decide) (by decide)
  have hPublished := mapsPublished_iff anyEnv_total hDescribes configuring_opened configuring_exists
  exact ⟨hPublished.1, hPublished.2.mpr ⟨by simp [qosCosMapEntryCount], by simp [qosDscpMapEntryCount]⟩⟩

/-- Rows that were never given values are published with the one described. -/
theorem oneEntryConfig_unpublished :
    ¬ ∀ after, Exec (step anyEnv) (qosInitMaps (mapsConfig 1 1) 0 0) configuring () after →
      MapsPublished after.view 0 ((List.range 1).map bestEffort) ((List.range 1).map bestEffort) := by
  intro hAll
  have hDescribes := @mapsConfig_describes 1 1 (by decide) (by decide)
  have hTransforms : Transforms anyEnv.accepting Disciplined 0 (qosInitMaps (mapsConfig 1 1) 0 0)
      configuring.view _ :=
    qosInitMaps_transforms admits_accepting hDescribes configuring_exists
  obtain ⟨_, after, hExec, -, hPublished⟩ := hTransforms.exists_exec anyEnv_total configuring_opened
  exact absurd (hPublished.mp (hAll after hExec)).1 (by decide)

end Published
end OpsSysd.Daemon
