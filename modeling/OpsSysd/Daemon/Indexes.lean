import OpsSysd.Daemon.QosMaps
import OpsSysd.Daemon.SplitPorts

/-! The fixed arrays that the initial configuration fills from lists of any
length: the rows of the CoS map, the rows of the DSCP map, and the subports of
an interface. The bounds of the loops come from the description. -/
namespace OpsSysd.Daemon

open CLib Interaction Interaction.Program Idl

/-- Every index used on the three arrays is inside them. The functions start
with a transaction open, and the split is set on the interfaces added for it. -/
structure IndexesInside {World : Type} (env : Environment World) (config : Config) (txn : TxnId) :
    Prop where
  cosMap : ∀ system state, state.Opened txn → NoOverrun env (qosInitCosMap config txn system) state
  dscpMap : ∀ system state, state.Opened txn → NoOverrun env (qosInitDscpMap config txn system) state
  subports : ∀ subsys ∈ config.subsystems, ∀ rows state, rows.length = subsys.interfaces.length →
    state.Opened txn → PortsAdded (rows.zip subsys.interfaces) state.view →
      NoOverrun env (sysdSetSplittablePortInfo rows subsys) state

/-- There are no more entries than rows, or one of those for the rows cannot be
set and ends the loop before them. -/
def EntriesFit (entries : YamlList MapEntry) (size : Nat) : Prop :=
  entries.unsignedCount ≤ size ∨ ∃ ii < size, ¬ entries.Settable ii

/-- An interface of this name has a subport or a parent. -/
def resolvable (interfaces : List Port) (name : CString) : Bool :=
  interfaces.any fun intf => intf.splittable && intf.name = name

/-- What the description must say for every index to be inside its array: of the
subports of a port, fewer than the array holds resolve, the last one aside. -/
structure CountsFit (config : Config) : Prop where
  cosMap : EntriesFit config.cosMap qosCosMapEntryCount
  dscpMap : EntriesFit config.dscpMap qosDscpMapEntryCount
  subports : ∀ subsys ∈ config.subsystems, ∀ intf ∈ subsys.interfaces,
    intf.subports.dropLast.countP (resolvable subsys.interfaces) < sysdMaxSplitPorts

section Maps

variable {World : Type} {env : Environment World} {permitted : State World → Request → Prop}
  {txn : TxnId} {db : Database} {entries : YamlList MapEntry} {mapRows : List RowId}
  {columns : MapColumns} {state : State World}

/-- Where the entries fit, no index passes the rows. -/
theorem initDefaultMap_inside (admits : Admits env permitted) (hColumns : columns.Distinct)
    (hDistinct : mapRows.Nodup) (hRows : ∀ row ∈ mapRows, db.Exists row)
    (hFit : EntriesFit entries mapRows.length) (hNull : ∀ state, permitted state (.fault .nullPointer)) :
    Transforms env permitted txn (initDefaultMap entries (setMapEntry columns) mapRows) db
      fun _ _ => True := by
  have hFaults : LoopFaults permitted entries mapRows.length entries.unsignedCount := by
    refine ⟨fun ii hCount hEarlier hPast => absurd hPast (Nat.not_le.mpr ?_), fun _ _ _ => hNull⟩
    rcases hFit with hShort | ⟨missing, hMissing, hUnset⟩
    · exact Nat.lt_of_lt_of_le hCount hShort
    · refine Nat.lt_of_le_of_lt (Nat.le_of_not_lt fun hLess => ?_) hMissing
      exact hUnset (hEarlier missing hLess)
  rw [initDefaultMap_eq]
  exact (initMapEntries_transforms admits hColumns hDistinct hRows hFaults).mono fun _ _ _ => trivial

/-- Some run gets past the entries that can be set, to the first that ends the loop. -/
theorem initDefaultMap_faults (total : env.Total) (hColumns : columns.Distinct)
    (hOpen : state.Opened txn) (hDistinct : mapRows.Nodup)
    (hRows : ∀ row ∈ mapRows, state.view.Exists row) {ii : Nat}
    (hCount : ii < entries.unsignedCount)
    (hBefore : ∀ earlier < ii, earlier < mapRows.length ∧ entries.Settable earlier) {kind : Fault}
    (hFault : ∀ middle : State World, middle.Opened txn → ∃ last,
      Reaches (step env) (initMapEntry entries (setMapEntry columns) mapRows ii) middle (.fault kind)
        last) :
    ∃ last, Reaches (step env) (initDefaultMap entries (setMapEntry columns) mapRows) state
      (.fault kind) last := by
  obtain ⟨rest, hRest⟩ := Nat.exists_eq_add_of_lt hCount
  have hFaults : LoopFaults (@Disciplined World) entries mapRows.length ii :=
    ⟨fun earlier hLess _ hPast => absurd (hBefore earlier hLess).1 (Nat.not_lt.mpr hPast),
      fun earlier hLess hUnset => absurd (hBefore earlier hLess).2 hUnset⟩
  have hFirst : Transforms env.accepting Disciplined txn
      (forM (List.range ii) (initMapEntry entries (setMapEntry columns) mapRows)) state.view _ :=
    initMapEntries_transforms admits_accepting hColumns hDistinct hRows hFaults
  rw [initDefaultMap_eq, hRest, Nat.add_assoc, List.range_add, List.forM_append]
  refine hFirst.reaches_bind total hOpen fun _ middle hMiddle _ => ?_
  rw [List.range_succ_eq_map, List.map_cons, List.forM_cons, Nat.add_zero]
  obtain ⟨last, hReaches⟩ := hFault middle hMiddle
  exact ⟨last, hReaches.bind_left⟩

/-- Where the entries do not fit, that is the index after the last row. -/
theorem initDefaultMap_overruns (total : env.Total) (hColumns : columns.Distinct)
    (hOpen : state.Opened txn) (hDistinct : mapRows.Nodup)
    (hRows : ∀ row ∈ mapRows, state.view.Exists row) (hFit : ¬ EntriesFit entries mapRows.length) :
    ∃ last, Reaches (step env) (initDefaultMap entries (setMapEntry columns) mapRows) state
      (.fault .outOfBounds) last := by
  rw [EntriesFit, not_or, Nat.not_le] at hFit
  refine initDefaultMap_faults total hColumns hOpen hDistinct hRows hFit.1 (fun earlier hLess => ?_) ?_
  · exact ⟨hLess, by_contra fun hUnset => hFit.2 ⟨earlier, hLess, hUnset⟩⟩
  · intro middle _
    rw [initMapEntry, List.getElem?_eq_none (Nat.le_refl _)]
    exact ⟨middle, .here _ _ _⟩

/-- The rows of a map are inserted, and given values where the entries fit. -/
theorem qosInitMap_noOverrun_iff (total : env.Total) (hColumns : columns.Distinct) (table : Table)
    {size : Nat} (hSize : 0 < size) (listed : ColumnOf .references) (system : RowId)
    (hOpen : state.Opened txn) :
    NoOverrun env (qosInitMap entries (setMapEntry columns) txn table size listed system) state ↔
      EntriesFit entries size := by
  rw [qosInitMap]
  by_cases hFirst : (entries.get 0).isSome
  · rw [if_pos hFirst]
    constructor
    · refine fun hInside => by_contra fun hFit => not_noOverrun.mpr ?_ hInside
      have hInsert : Transforms env.accepting Disciplined txn
          ((List.range size).mapM fun _ => insertRow txn table) state.view _ :=
        transforms_mapM_insertRow admits_accepting (List.range size) table
      refine hInsert.reaches_bind total hOpen ?_
      rintro mapRows middle hMiddle ⟨hLength, hInserted⟩
      rw [List.length_range] at hLength
      obtain ⟨last, hReaches⟩ :=
        initDefaultMap_overruns total hColumns hMiddle hInserted.distinct hInserted.present
          (hLength ▸ hFit)
      exact ⟨last, hReaches.bind_left⟩
    · intro hFit
      have admits := admits_inside env
      refine Transforms.noOverrun ?_ hOpen
      refine (transforms_mapM_insertRow admits _ table).bind ?_
      rintro mapRows middle ⟨hLength, hInserted⟩
      rw [List.length_range] at hLength
      refine (initDefaultMap_inside admits hColumns hInserted.distinct hInserted.present
        (hLength ▸ hFit) fun _ => by simp).bind ?_
      exact fun _ after _ => transforms_write admits fun _ _ => transforms_done trivial
  · rw [if_neg hFirst]
    have hNone : entries.get 0 = none := Option.not_isSome_iff_eq_none.mp hFirst
    have hUnset : ¬ entries.Settable 0 := by
      rintro ⟨entry, hSome, -⟩
      exact Option.some_ne_none entry (hSome.symm.trans hNone)
    exact ⟨fun _ => .inr ⟨0, hSize, hUnset⟩, fun _ _ hReaches => by cases hReaches⟩

end Maps

section Subports

variable {World : Type} {env : Environment World} {txn : TxnId} {state : State World}
  {ports : PortRows} {hash : RowHash} {names : List CString} {found : List RowId}

/-- With every subport but the last looked up, there must be room for one more. -/
theorem subportsFit_iff {count : Nat} (hCount : count < sysdMaxSplitPorts) :
    SubportsFit hash names count ↔
      count + (names.dropLast.filterMap hash.find).length < sysdMaxSplitPorts := by
  constructor
  · intro h
    rcases List.eq_nil_or_concat names with rfl | ⟨before, name, rfl⟩
    · exact hCount
    · rw [List.concat_eq_append, List.dropLast_concat]
      exact h before name [] (List.concat_eq_append ..)
  · rintro h before name after rfl
    refine Nat.lt_of_le_of_lt (Nat.add_le_add_left ?_ count) h
    rw [List.dropLast_append_cons, List.filterMap_append, List.length_append]
    exact Nat.le_add_right _ _

/-- The hash finds the names that interfaces with a subport or a parent have. -/
theorem isSome_find_splitHash {rows : List RowId} {interfaces : List Port}
    (hLength : rows.length = interfaces.length) (name : CString) :
    ((splitHash (rows.zip interfaces) []).find name).isSome = resolvable interfaces name := by
  have hResolves : Resolves (rows.zip interfaces) name ↔ resolvable interfaces name = true := by
    have hSnd := List.map_snd_zip (Nat.le_of_eq hLength.symm)
    rw [resolvable, ← hSnd, List.any_map, List.any_eq_true, hSnd]
    simp [Resolves]
  rw [Bool.eq_iff_iff, ← hResolves, Option.isSome_iff_ne_none, ne_eq, find_splitHash_eq_none, not_not]

/-- A subport without room for it is written past the end. -/
theorem findSubports_overruns (hFit : ¬ SubportsFit hash names found.length) :
    Reaches (step env) (findSubports hash names found found.length) state (.fault .outOfBounds) state := by
  induction names generalizing found with
  | nil => exact absurd (fun _ _ _ h => by simp at h) hFit
  | cons name names ih =>
      by_cases hRoom : sysdMaxSplitPorts ≤ found.length
      · rw [findSubports, if_pos hRoom]
        exact .here _ _ _
      rw [findSubports, if_neg hRoom]
      have hRest : ∀ count, count = found.length + ([name].filterMap hash.find).length →
          ¬ SubportsFit hash names count := by
        rintro count rfl hNames
        refine hFit fun before next after hSplit => ?_
        cases before with
        | nil => exact Nat.lt_of_not_le hRoom
        | cons first before =>
            injection hSplit with hFirst hSplit
            have hNext := hNames before next after hSplit
            rw [hFirst] at hNext
            rwa [← List.singleton_append, List.filterMap_append, List.length_append, ← Nat.add_assoc]
      cases hFind : hash.find name with
      | some row =>
          have hCount : (found ++ [row]).length =
              found.length + ([name].filterMap hash.find).length := by
            rw [List.filterMap_cons_some hFind, List.length_append]
            rfl
          have hLonger := @ih (found ++ [row]) (hRest _ hCount)
          rw [List.length_append, List.length_singleton] at hLonger
          exact hLonger
      | none =>
          refine ih (hRest _ ?_)
          rw [List.filterMap_cons_none hFind]
          rfl

/-- Setting the split of a port comes to its subports, whatever its parent. -/
theorem setSplitInfo_overruns (hOpen : state.Opened txn) {port : RowId × Port}
    (hFit : ¬ SubportsFit hash port.2.subports 0) :
    ∃ last, Reaches (step env) (setSplitInfo hash port.1 port.2) state (.fault .outOfBounds) last := by
  have hSome : port.2.subports ≠ [] := fun hNone =>
    hFit fun _ _ _ h => by simp [hNone] at h
  have hLoop (middle : State World) : Reaches (step env) (setSplitChildren hash port.1 port.2) middle
      (.fault .outOfBounds) middle := by
    rw [setSplitChildren, if_pos hSome]
    exact (@findSubports_overruns World env middle hash port.2.subports [] hFit).bind_left
  rw [setSplitInfo]
  cases port.2.parentPort with
  | none => exact ⟨state, hLoop state⟩
  | some parentPort =>
      cases hFind : hash.find parentPort with
      | none =>
          simp only [hFind]
          exact ⟨state, hLoop state⟩
      | some parent =>
          simp only [hFind]
          obtain ⟨current, hCurrent, -⟩ := hOpen
          have hStep : step env state (.write port.1 .interfaceSplitParent (some parent)) ()
              (state.push current (.write port.1 .interfaceSplitParent (some parent))) := by
            simp only [step, hCurrent]
            exact ⟨some parent, rfl, rfl⟩
          exact ⟨_, .later hStep (hLoop _)⟩

theorem PortsAdded.sublist {db : Database} {part : PortRows} (h : PortsAdded ports db)
    (hPart : part.Sublist ports) : PortsAdded part db where
  rows := h.rows.sublist (hPart.map Prod.fst)
  named := ⟨fun port hPort => h.named.present port (hPart.subset hPort),
    fun port hPort => h.named.name port (hPart.subset hPort)⟩
  unsplit port hPort := h.unsplit port (hPart.subset hPort)

/-- Some run comes to the first port whose subports do not fit. -/
theorem splitInfo_overruns (total : env.Total) (hOpen : state.Opened txn)
    (added : PortsAdded ports state.view)
    (hFit : ¬ ∀ port ∈ ports, SubportsFit hash port.2.subports 0) :
    ∃ last, Reaches (step env) (forM ports fun port => setSplitInfo hash port.1 port.2) state
      (.fault .outOfBounds) last := by
  classical
  have hFind : (ports.find? fun port => ¬ SubportsFit hash port.2.subports 0).isSome := by
    push Not at hFit
    simpa using hFit
  obtain ⟨port, hPort⟩ := Option.isSome_iff_exists.mp hFind
  obtain ⟨hLong, done, rest, rfl, hDone⟩ := List.find?_eq_some_iff_append.mp hPort
  have hBefore : Transforms env.accepting Disciplined txn
      (forM done fun port => setSplitInfo hash port.1 port.2) state.view _ :=
    splitInfo_transforms admits_accepting (added.sublist (List.sublist_append_left _ _))
      fun other hOther => by simpa using hDone other hOther
  rw [List.forM_append]
  refine hBefore.reaches_bind total hOpen fun _ middle hMiddle _ => ?_
  obtain ⟨last, hReaches⟩ := setSplitInfo_overruns hMiddle (of_decide_eq_true hLong)
  rw [List.forM_cons]
  exact ⟨last, hReaches.bind_left⟩

/-- The subports of every port fit exactly where few enough of their names are
found. -/
theorem subportsFit_splitHash_iff {interfaces : List Port} {rows : List RowId}
    (hLength : rows.length = interfaces.length) :
    (∀ port ∈ rows.zip interfaces, SubportsFit (splitHash (rows.zip interfaces) []) port.2.subports 0) ↔
      ∀ intf ∈ interfaces, intf.subports.dropLast.countP (resolvable interfaces) < sysdMaxSplitPorts := by
  have hFound : (fun name => ((splitHash (rows.zip interfaces) []).find name).isSome) =
      resolvable interfaces := funext (isSome_find_splitHash hLength)
  have hPort (intf : Port) : SubportsFit (splitHash (rows.zip interfaces) []) intf.subports 0 ↔
      intf.subports.dropLast.countP (resolvable interfaces) < sysdMaxSplitPorts := by
    rw [subportsFit_iff (by decide), Nat.zero_add, List.length_filterMap_eq_countP, hFound]
  have hSnd := List.map_snd_zip (Nat.le_of_eq hLength.symm)
  simp only [hPort]
  rw [← hSnd, List.forall_mem_map, hSnd]

/-- Where they fit, the split is set. -/
theorem sysdSetSplittablePortInfo_inside {permitted : State World → Request → Prop} {db : Database}
    (admits : Admits env permitted) {subsys : Subsystem} {rows : List RowId}
    (hLength : rows.length = subsys.interfaces.length)
    (added : PortsAdded (rows.zip subsys.interfaces) db)
    (hFit : ∀ intf ∈ subsys.interfaces,
      intf.subports.dropLast.countP (resolvable subsys.interfaces) < sysdMaxSplitPorts) :
    Transforms env permitted txn (sysdSetSplittablePortInfo rows subsys) db fun _ _ => True := by
  rw [sysdSetSplittablePortInfo]
  refine (hashSplittable_transforms admits added.named []).bind ?_
  rintro hash middle ⟨rfl, rfl⟩
  refine (splitInfo_transforms admits added ?_).mono fun _ _ _ => trivial
  exact (subportsFit_splitHash_iff hLength).mpr hFit

theorem sysdSetSplittablePortInfo_noOverrun_iff (total : env.Total) {subsys : Subsystem}
    {rows : List RowId} (hLength : rows.length = subsys.interfaces.length)
    (hOpen : state.Opened txn) (added : PortsAdded (rows.zip subsys.interfaces) state.view) :
    NoOverrun env (sysdSetSplittablePortInfo rows subsys) state ↔
      ∀ intf ∈ subsys.interfaces,
        intf.subports.dropLast.countP (resolvable subsys.interfaces) < sysdMaxSplitPorts := by
  constructor
  · rw [← subportsFit_splitHash_iff hLength, sysdSetSplittablePortInfo]
    refine fun hInside => by_contra fun hLong => not_noOverrun.mpr ?_ hInside
    have hHash : Transforms env.accepting Disciplined txn
        (hashSplittable (rows.zip subsys.interfaces) []) state.view _ :=
      hashSplittable_transforms admits_accepting added.named []
    refine hHash.reaches_bind total hOpen fun hash middle hMiddle h => ?_
    obtain ⟨hSame, rfl⟩ := h
    exact splitInfo_overruns total hMiddle (hSame ▸ added) hLong
  · exact fun hAll => Transforms.noOverrun
      (sysdSetSplittablePortInfo_inside (admits_inside env) hLength added hAll) hOpen

end Subports

section Counts

variable {World : Type} {env : Environment World} {config : Config} {txn : TxnId}
  {state : State World}

/-- Interfaces can be added: only their speeds can keep them from being, and the
split does not depend on those. -/
theorem exists_portsAdded (total : env.Total) (hOpen : state.Opened txn) (config : Config)
    (subsys : Subsystem) : ∃ (rows : List RowId) (after : State World),
      rows.length = subsys.interfaces.length ∧ after.Opened txn ∧
        PortsAdded (rows.zip subsys.interfaces) after.view := by
  let slow : Port → Port := fun intf => { intf with speeds := [] }
  have hSpeeds : ∀ intf ∈ subsys.interfaces.map slow,
      ¬ speedsBufferSize ≤ intf.speedsText.length := by
    intro intf hIntf
    obtain ⟨fast, -, rfl⟩ := List.mem_map.mp hIntf
    exact Nat.not_le.mpr (Nat.succ_pos 127)
  have hInterfaces : Transforms env.accepting Disciplined txn
      ((subsys.interfaces.map slow).mapM (sysdInitialInterfaceAdd config txn
        { subsys with interfaces := subsys.interfaces.map slow })) state.view _ :=
    interfaces_transforms admits_accepting config fun intf hIntf hLong =>
      absurd hLong (hSpeeds intf hIntf)
  obtain ⟨rows, after, -, hAfter, hLength, added⟩ := hInterfaces.exists_exec total hOpen
  change PortsAdded (rows.zip (subsys.interfaces.map slow)) after.view at added
  rw [List.zip_map_right] at added
  refine ⟨rows, after, hLength.trans (List.length_map _), hAfter, ?_, ⟨?_, ?_⟩, ?_⟩
  · have hRows := added.rows
    rwa [List.map_map] at hRows
  · exact fun port hPort => added.named.present (Prod.map id slow port) (List.mem_map_of_mem hPort)
  · exact fun port hPort => added.named.name (Prod.map id slow port) (List.mem_map_of_mem hPort)
  · exact fun port hPort => added.unsplit (Prod.map id slow port) (List.mem_map_of_mem hPort)

theorem qosInitCosMap_noOverrun_iff (total : env.Total) (hOpen : state.Opened txn) (system : RowId) :
    NoOverrun env (qosInitCosMap config txn system) state ↔
      EntriesFit config.cosMap qosCosMapEntryCount :=
  qosInitMap_noOverrun_iff total cosMapColumns_distinct .qosCosMapEntry (Nat.succ_pos 7)
    ⟨.systemQosCosMapEntries, rfl⟩ system hOpen

theorem qosInitDscpMap_noOverrun_iff (total : env.Total) (hOpen : state.Opened txn) (system : RowId) :
    NoOverrun env (qosInitDscpMap config txn system) state ↔
      EntriesFit config.dscpMap qosDscpMapEntryCount :=
  qosInitMap_noOverrun_iff total dscpMapColumns_distinct .qosDscpMapEntry (Nat.succ_pos 63)
    ⟨.systemQosDscpMapEntries, rfl⟩ system hOpen

/-- The indexes stay inside the arrays exactly where the counts fit. -/
theorem indexesInside_iff (total : env.Total) (hOpen : state.Opened txn) :
    IndexesInside env config txn ↔ CountsFit config := by
  constructor
  · rintro ⟨hCos, hDscp, hSubports⟩
    refine ⟨(qosInitCosMap_noOverrun_iff total hOpen 0).mp (hCos 0 state hOpen),
      (qosInitDscpMap_noOverrun_iff total hOpen 0).mp (hDscp 0 state hOpen), ?_⟩
    intro subsys hSubsys
    obtain ⟨rows, after, hLength, hAfter, added⟩ := exists_portsAdded total hOpen config subsys
    exact (sysdSetSplittablePortInfo_noOverrun_iff total hLength hAfter added).mp
      (hSubports subsys hSubsys rows after hLength hAfter added)
  · rintro ⟨hCos, hDscp, hSubports⟩
    refine ⟨fun system middle hMiddle => ?_, fun system middle hMiddle => ?_, ?_⟩
    · exact (qosInitCosMap_noOverrun_iff total hMiddle system).mpr hCos
    · exact (qosInitDscpMap_noOverrun_iff total hMiddle system).mpr hDscp
    · intro subsys hSubsys rows middle hLength hMiddle added
      exact (sysdSetSplittablePortInfo_noOverrun_iff total hLength hMiddle added).mpr
        (hSubports subsys hSubsys)

/-- A switch whose CoS map has one entry more than there are rows. -/
def nineEntryConfig : Config :=
  { Config.onePort [] with cosMap := .ofList ((List.range 9).map bestEffort) }

theorem nineEntryConfig_indexesInside_iff :
    IndexesInside anyEnv nineEntryConfig 0 ↔ CountsFit nineEntryConfig :=
  indexesInside_iff anyEnv_total configuring_opened

/-- The ninth entry is written past the end of the rows. -/
theorem nineEntryConfig_overruns : ¬ IndexesInside anyEnv nineEntryConfig 0 := by
  intro hInside
  have hFit := (qosInitCosMap_noOverrun_iff anyEnv_total configuring_opened 0).mp
    (hInside.cosMap 0 configuring configuring_opened)
  rcases hFit with hShort | ⟨ii, hLess, hUnset⟩
  · exact absurd hShort (by decide)
  · have hSettable : nineEntryConfig.cosMap.Settable ii := by
      have hGet : nineEntryConfig.cosMap.get ii = some (bestEffort ii) := by
        have hIndex : ii < 9 := Nat.lt_of_lt_of_le hLess (by decide)
        simp [nineEntryConfig, YamlList.ofList, hIndex]
      exact ⟨bestEffort ii, hGet, Option.some_ne_none _, Option.some_ne_none _⟩
    exact hUnset hSettable

end Counts
end OpsSysd.Daemon
