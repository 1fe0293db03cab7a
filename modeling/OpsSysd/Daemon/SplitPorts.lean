import OpsSysd.Daemon.Interfaces
import OpsSysd.Idl.Transforms
import Mathlib.Data.List.Nodup

/-! The split-port columns of the interfaces of a subsystem. A parent refers to
its subports and a subport to its parent through the names in the description,
and only interfaces that take part in a split can be referred to. -/
namespace OpsSysd.Daemon

open CLib Interaction Interaction.Program Idl

/-- The interfaces of a subsystem, each with its row. -/
abbrev PortRows := List (RowId × Port)

/-- The row of the splittable interface of this name. -/
def splitRow (ports : PortRows) (name : CString) : Option RowId :=
  (ports.find? fun port => port.2.splittable && port.2.name = name).map Prod.fst

/-- The rows and the names tell the interfaces apart. -/
structure Distinct (ports : PortRows) : Prop where
  rows : (ports.map Prod.fst).Nodup
  names : (ports.map fun port => port.2.name).Nodup

/-- The rows hold the names. -/
structure Named (ports : PortRows) (db : Database) : Prop where
  present : ∀ port ∈ ports, db.Exists port.1
  name : ∀ port ∈ ports, db.get port.1 .interfaceName = port.2.name

/-- The two columns say what the description says. -/
structure SplitRelated (ports : PortRows) (db : Database) : Prop where
  parent : ∀ subport ∈ ports, ∀ row, db.get subport.1 .interfaceSplitParent = some row ↔
    ∃ port ∈ ports, port.1 = row ∧ subport.2.parentPort = some port.2.name ∧
      port.2.splittable = true
  children : ∀ port ∈ ports, db.get port.1 .interfaceSplitChildren =
    port.2.subports.filterMap (splitRow ports)

/-- A subport is listed by its parent exactly where it names that parent. -/
structure MutuallyConsistent (ports : PortRows) : Prop where
  subports : ∀ port ∈ ports, ∀ name ∈ port.2.subports,
    ∃ subport ∈ ports, subport.2.name = name ∧ subport.2.parentPort = some port.2.name
  parents : ∀ subport ∈ ports, ∀ name, subport.2.parentPort = some name →
    ∃ port ∈ ports, port.2.name = name ∧ subport.2.name ∈ port.2.subports

/-- The two columns are inverse to each other, every name in the description is
found, and other interfaces have neither column. -/
structure SplitInverse (ports : PortRows) (db : Database) : Prop where
  inverse : ∀ port ∈ ports, ∀ subport ∈ ports,
    db.get subport.1 .interfaceSplitParent = some port.1 ↔
      subport.1 ∈ db.get port.1 .interfaceSplitChildren
  parentFound : ∀ subport ∈ ports,
    (db.get subport.1 .interfaceSplitParent).isSome = subport.2.parentPort.isSome
  childrenFound : ∀ port ∈ ports,
    (db.get port.1 .interfaceSplitChildren).length = port.2.subports.length
  apart : ∀ port ∈ ports, port.2.splittable = false →
    db.get port.1 .interfaceSplitParent = none ∧ db.get port.1 .interfaceSplitChildren = []

section Names

variable {ports : PortRows} {name : CString} {row : RowId} {port other : RowId × Port}

/-- No two ports have one name. -/
theorem Distinct.same_name (distinct : Distinct ports) (hPort : port ∈ ports) (hOther : other ∈ ports)
    (hName : port.2.name = other.2.name) : port = other :=
  List.inj_on_of_nodup_map distinct.names hPort hOther hName

/-- Or one row. -/
theorem Distinct.same_row (distinct : Distinct ports) (hPort : port ∈ ports) (hOther : other ∈ ports)
    (hRow : port.1 = other.1) : port = other :=
  List.inj_on_of_nodup_map distinct.rows hPort hOther hRow

/-- A name resolves to the row of the one splittable interface that has it. -/
theorem splitRow_eq_some (distinct : Distinct ports) :
    splitRow ports name = some row ↔
      ∃ port ∈ ports, port.2.splittable = true ∧ port.2.name = name ∧ port.1 = row := by
  rw [splitRow, Option.map_eq_some_iff]
  constructor
  · rintro ⟨port, hFind, rfl⟩
    have hPort := List.find?_some hFind
    simp only [Bool.and_eq_true, decide_eq_true_eq] at hPort
    exact ⟨port, List.mem_of_find?_eq_some hFind, hPort.1, hPort.2, rfl⟩
  · rintro ⟨port, hPort, hSplittable, rfl, rfl⟩
    cases hFind : ports.find? fun other => other.2.splittable && other.2.name = port.2.name with
    | none =>
        have hNone := List.find?_eq_none.mp hFind port hPort
        simp [hSplittable] at hNone
    | some other =>
        have hOther := List.find?_some hFind
        simp only [Bool.and_eq_true, decide_eq_true_eq] at hOther
        exact ⟨other, rfl, congrArg Prod.fst
          (distinct.same_name (List.mem_of_find?_eq_some hFind) hPort hOther.2)⟩

/-- The hash of the splittable interfaces, the latest addition first. -/
def splitHash (ports : PortRows) (hash : RowHash) : RowHash :=
  ports.foldl (fun hash port =>
    if port.2.splittable then (port.2.name, port.1) :: hash else hash) hash

/-- The splittable ports are added to what the hash map has. -/
theorem mem_splitHash (ports : PortRows) (hash : RowHash) (entry : CString × RowId) :
    entry ∈ splitHash ports hash ↔
      (∃ port ∈ ports, port.2.splittable = true ∧ (port.2.name, port.1) = entry) ∨ entry ∈ hash := by
  induction ports generalizing hash with
  | nil => simp [splitHash]
  | cons port ports ih =>
      rw [splitHash, List.foldl_cons, ← splitHash, ih]
      by_cases hSplittable : port.2.splittable = true
      · simp only [hSplittable, if_true, List.mem_cons, exists_eq_or_imp, true_and]
        rw [or_assoc, or_left_comm, @eq_comm _ entry]
      · simp [hSplittable]

/-- Some interface that takes part in a split has this name. -/
def Resolves (ports : PortRows) (name : CString) : Prop :=
  ∃ port ∈ ports, port.2.splittable = true ∧ port.2.name = name

theorem find_splitHash_mem (h : (splitHash ports []).find name = some row) :
    ∃ port ∈ ports, port.2.splittable = true ∧ port.2.name = name ∧ port.1 = row := by
  obtain ⟨before, after, hSplit, -⟩ := List.lookup_eq_some_iff.mp h
  have hMem : (name, row) ∈ splitHash ports [] := by
    rw [hSplit]
    exact List.mem_append_right _ List.mem_cons_self
  obtain ⟨port, hPort, hSplittable, hEntry⟩ | hNone := (mem_splitHash ports [] _).mp hMem
  · exact ⟨port, hPort, hSplittable, congrArg Prod.fst hEntry, congrArg Prod.snd hEntry⟩
  · exact absurd hNone List.not_mem_nil

/-- A name is not found exactly if it does not resolve. -/
theorem find_splitHash_eq_none : (splitHash ports []).find name = none ↔ ¬ Resolves ports name := by
  refine List.lookup_eq_none_iff.trans ⟨?_, fun h entry hEntry => ?_⟩
  · rintro h ⟨port, hPort, hSplittable, rfl⟩
    have hMem : (port.2.name, port.1) ∈ splitHash ports [] :=
      (mem_splitHash ports [] _).mpr (.inl ⟨port, hPort, hSplittable, rfl⟩)
    simpa using h _ hMem
  · obtain ⟨port, hPort, hSplittable, rfl⟩ | hNone := (mem_splitHash ports [] _).mp hEntry
    · exact bne_iff_ne.mpr fun hName => h ⟨port, hPort, hSplittable, hName.symm⟩
    · exact absurd hNone List.not_mem_nil

/-- With distinct names the hash finds what the description means. -/
theorem find_splitHash (distinct : Distinct ports) (name : CString) :
    (splitHash ports []).find name = splitRow ports name := by
  cases hFind : (splitHash ports []).find name with
  | some row => exact ((splitRow_eq_some distinct).mpr (find_splitHash_mem hFind)).symm
  | none =>
      refine (Option.eq_none_iff_forall_ne_some.mpr fun row hRow => ?_).symm
      obtain ⟨port, hPort, hSplittable, hName, -⟩ := (splitRow_eq_some distinct).mp hRow
      exact find_splitHash_eq_none.mp hFind ⟨port, hPort, hSplittable, hName⟩

end Names

section Columns

variable {World : Type} {env : Environment World} {permitted : State World → Request → Prop}
  {txn : TxnId} {db : Database} {ports : PortRows} {hash : RowHash} {found : List RowId}
  {names : List CString}

/-- Filling it changes nothing. -/
theorem hashSplittable_transforms (admits : Admits env permitted) (named : Named ports db)
    (hash : RowHash) :
    Transforms env permitted txn (hashSplittable ports hash) db fun result after =>
      after = db ∧ result = splitHash ports hash := by
  induction ports generalizing hash with
  | nil => exact transforms_done ⟨rfl, rfl⟩
  | cons port ports ih =>
      have hRest : Named ports db := ⟨fun other hOther => named.present other (.tail _ hOther),
        fun other hOther => named.name other (.tail _ hOther)⟩
      rw [hashSplittable, splitHash, List.foldl_cons, ← splitHash]
      by_cases hSplittable : port.2.splittable = true
      · rw [if_pos hSplittable, if_pos hSplittable]
        refine transforms_read admits ?_
        have hName : db.get port.1 .interfaceName = port.2.name := named.name port List.mem_cons_self
        change Transforms _ _ _ (hashSplittable ports ((db.get port.1 .interfaceName, port.1) :: hash)) _ _
        rw [hName]
        exact ih hRest _
      · rw [if_neg hSplittable, if_neg hSplittable]
        exact ih hRest hash

/-- Before each name, fewer subports have been found than the array holds. -/
def SubportsFit (hash : RowHash) (names : List CString) (count : Nat) : Prop :=
  ∀ before name after, names = before ++ name :: after →
    count + (before.filterMap hash.find).length < sysdMaxSplitPorts

/-- The subports are found in their order, and the index counts them. -/
theorem findSubports_transforms (hFit : SubportsFit hash names found.length) :
    Transforms env permitted txn (findSubports hash names found found.length) db fun result after =>
      after = db ∧ result.1 = found ++ names.filterMap hash.find ∧ result.1.length = result.2 := by
  induction names generalizing found with
  | nil => exact transforms_done ⟨rfl, (List.append_nil _).symm, rfl⟩
  | cons name names ih =>
      have hRoom : found.length < sysdMaxSplitPorts := hFit [] name names rfl
      rw [findSubports, if_neg (Nat.not_le.mpr hRoom)]
      cases hFind : hash.find name with
      | some row =>
          have hRest : SubportsFit hash names (found ++ [row]).length := by
            intro before next after hSplit
            have hNext := hFit (name :: before) next after (by rw [hSplit]; rfl)
            rw [List.filterMap_cons_some hFind, List.length_cons] at hNext
            rw [List.length_append, List.length_singleton]
            omega
          have hFound := @ih (found ++ [row]) hRest
          rw [List.length_append, List.length_singleton] at hFound
          refine hFound.mono fun result after ⟨hAfter, hRows, hCount⟩ => ⟨hAfter, hRows.trans ?_, hCount⟩
          rw [List.filterMap_cons_some hFind, List.append_assoc]
          rfl
      | none =>
          have hRest : SubportsFit hash names found.length := by
            intro before next after hSplit
            have hNext := hFit (name :: before) next after (by rw [hSplit]; rfl)
            rwa [List.filterMap_cons_none hFind] at hNext
          rw [List.filterMap_cons_none hFind]
          exact ih hRest

/-- A row that no split has set. -/
structure Unsplit (db : Database) (row : RowId) : Prop where
  parent : db.get row .interfaceSplitParent = none
  children : db.get row .interfaceSplitChildren = []

/-- What one round of the second loop sets. -/
structure SplitSet (hash : RowHash) (port : RowId × Port) (db : Database) : Prop where
  parent : db.get port.1 .interfaceSplitParent = port.2.parentPort.bind hash.find
  children : db.get port.1 .interfaceSplitChildren = port.2.subports.filterMap hash.find

/-- The columns of a row are its own. -/
theorem SplitSet.later {port : RowId × Port} {after : Database} {touched : RowId → Column → Prop}
    (h : SplitSet hash port db) (hExists : db.Exists port.1) (hLater : db.Extends touched after)
    (hOther : ∀ column, ¬ touched port.1 column) : SplitSet hash port after where
  parent := (hLater.get_eq _ _ hExists (hOther _)).trans h.parent
  children := (hLater.get_eq _ _ hExists (hOther _)).trans h.children

/-- A row stays unsplit while others are split. -/
theorem Unsplit.later {row : RowId} {after : Database} {touched : RowId → Column → Prop}
    (h : Unsplit db row) (hExists : db.Exists row) (hLater : db.Extends touched after)
    (hOther : ∀ column, ¬ touched row column) : Unsplit after row where
  parent := (hLater.get_eq _ _ hExists (hOther _)).trans h.parent
  children := (hLater.get_eq _ _ hExists (hOther _)).trans h.children

/-- The children, once the parent is set. -/
theorem setSplitChildren_transforms (admits : Admits env permitted) {port : RowId × Port}
    {middle : Database} (hExists : middle.Exists port.1)
    (hFrame : db.Extends (fun id _ => id = port.1) middle)
    (hParent : middle.get port.1 .interfaceSplitParent = port.2.parentPort.bind hash.find)
    (hChildren : middle.get port.1 .interfaceSplitChildren = [])
    (hFit : SubportsFit hash port.2.subports 0) :
    Transforms env permitted txn (setSplitChildren hash port.1 port.2) middle fun _ after =>
      db.Extends (fun id _ => id = port.1) after ∧ SplitSet hash port after := by
  rw [setSplitChildren]
  by_cases hNone : port.2.subports = []
  · rw [if_neg (not_not.mpr hNone)]
    refine transforms_done ⟨hFrame, hParent, ?_⟩
    rw [hNone]
    exact hChildren
  · rw [if_pos hNone]
    refine (findSubports_transforms hFit).bind fun subports after ⟨hAfter, hSubports, hCount⟩ => ?_
    subst hAfter
    refine transforms_write admits fun value hValue => transforms_done ⟨?_, ?_, ?_⟩
    · exact hFrame.trans (extends_write value) fun _ _ _ => And.left
    · refine (get_write_other value ?_).trans hParent
      exact fun _ => nofun
    · rw [get_write_same hExists, Slice.Stored.eq_array hValue hCount, hSubports]
      rfl

/-- A port gets its children or its parent, in its own row. -/
theorem setSplitInfo_transforms (admits : Admits env permitted) {port : RowId × Port}
    (hExists : db.Exists port.1) (hUnsplit : Unsplit db port.1)
    (hFit : SubportsFit hash port.2.subports 0) :
    Transforms env permitted txn (setSplitInfo hash port.1 port.2) db fun _ after =>
      db.Extends (fun id _ => id = port.1) after ∧ SplitSet hash port after := by
  have hUnset (hNone : none = port.2.parentPort.bind hash.find) :=
    @setSplitChildren_transforms World env permitted txn db hash admits port db hExists (.refl _ db)
      (hUnsplit.parent.trans hNone) hUnsplit.children hFit
  rw [setSplitInfo]
  cases hPort : port.2.parentPort with
  | none => exact hUnset (by rw [hPort]; rfl)
  | some parentPort =>
      have hBind : port.2.parentPort.bind hash.find = hash.find parentPort := by rw [hPort]; rfl
      cases hFind : hash.find parentPort with
      | none =>
          simp only [hFind]
          exact hUnset (hBind.trans hFind).symm
      | some parent =>
          simp only [hFind]
          refine transforms_write admits fun value hValue => ?_
          refine setSplitChildren_transforms admits (exists_write.mpr hExists) ?_ ?_ ?_ hFit
          · exact (extends_write value).mono fun _ _ _ => And.left
          · rw [get_write_same hExists, hBind, hFind]
            exact hValue
          · refine (get_write_other value ?_).trans hUnsplit.children
            exact fun _ => nofun

/-- The interfaces as they are when their split columns are set. -/
structure PortsAdded (ports : PortRows) (db : Database) : Prop where
  rows : (ports.map Prod.fst).Nodup
  named : Named ports db
  unsplit : ∀ port ∈ ports, Unsplit db port.1

/-- Every port is set in its own round, and by no other. -/
theorem splitInfo_transforms (admits : Admits env permitted) (added : PortsAdded ports db)
    (hFit : ∀ port ∈ ports, SubportsFit hash port.2.subports 0) :
    Transforms env permitted txn (forM ports fun port => setSplitInfo hash port.1 port.2) db
      fun _ after => ∀ port ∈ ports, SplitSet hash port after := by
  have hLoop := @transforms_forM World env permitted txn db (RowId × Port)
    (fun port => setSplitInfo hash port.1 port.2)
    (fun done rest middle => ports = done ++ rest ∧
      (∀ port ∈ ports, middle.Exists port.1) ∧ (∀ port ∈ done, SplitSet hash port middle) ∧
        ∀ port ∈ rest, Unsplit middle port.1)
    ?_ ports [] ⟨rfl, added.named.present, nofun, added.unsplit⟩
  · exact hLoop.mono fun _ after h port hPort => h.2.2.1 port hPort
  intro done port rest middle ⟨hPorts, hExists, hDone, hRest⟩
  have hRows := added.rows
  have hMem : port ∈ ports := hPorts ▸ List.mem_append_right _ List.mem_cons_self
  rw [hPorts, List.map_append, List.map_cons, List.nodup_middle, List.nodup_cons] at hRows
  have hOther : ∀ other ∈ done ++ rest, other.1 ≠ port.1 := fun other hOther hSame =>
    hRows.1 (hSame ▸ List.map_append ▸ List.mem_map_of_mem hOther)
  refine (setSplitInfo_transforms admits (hExists port hMem) (hRest port List.mem_cons_self)
    (hFit port hMem)).mono fun _ after ⟨hFrame, hSet⟩ => ⟨?_, ?_, ?_, ?_⟩
  · rw [hPorts, List.append_assoc, List.singleton_append]
  · exact fun other hPort => hFrame.exists_of _ (hExists other hPort)
  · intro other hDoneOrLast
    rcases List.mem_append.mp hDoneOrLast with hBefore | hLast
    · have hNe := hOther other (List.mem_append_left _ hBefore)
      have hOld := hExists other (hPorts ▸ List.mem_append_left _ hBefore)
      exact (hDone other hBefore).later hOld hFrame fun _ => hNe
    · rwa [List.mem_singleton.mp hLast]
  · intro other hLater
    have hNe := hOther other (List.mem_append_right _ hLater)
    have hOld := hExists other (hPorts ▸ List.mem_append_right _ (.tail _ hLater))
    exact (hRest other (.tail _ hLater)).later hOld hFrame fun _ => hNe

end Columns

section Relation

variable {World : Type} {env : Environment World} {permitted : State World → Request → Prop}
  {txn : TxnId} {db : Database} {ports : PortRows} {subsys : Subsystem} {rows : List RowId}
  {config : Config}

/-- A port's subports fit the array when there are at most as many as it holds. -/
theorem subportsFit_of_length {hash : RowHash} {names : List CString}
    (h : names.length ≤ sysdMaxSplitPorts) : SubportsFit hash names 0 := by
  rintro before name after rfl
  have hFound := List.length_filterMap_le hash.find before
  rw [List.length_append, List.length_cons] at h
  omega

/-- The ports whose rows are these have the names of the description. -/
theorem names_zip (hLength : rows.length = subsys.interfaces.length) :
    (rows.zip subsys.interfaces).map (fun port => port.2.name) = subsys.interfaces.map Port.name := by
  calc (rows.zip subsys.interfaces).map (fun port => port.2.name)
    _ = ((rows.zip subsys.interfaces).map Prod.snd).map Port.name := List.map_map.symm
    _ = subsys.interfaces.map Port.name :=
        congrArg (List.map Port.name) (List.map_snd_zip (Nat.le_of_eq hLength.symm))

theorem sysdSetSplittablePortInfo_transforms (admits : Admits env permitted)
    (distinct : Distinct (rows.zip subsys.interfaces))
    (added : PortsAdded (rows.zip subsys.interfaces) db)
    (hSubports : ∀ intf ∈ subsys.interfaces, intf.subports.length ≤ sysdMaxSplitPorts) :
    Transforms env permitted txn (sysdSetSplittablePortInfo rows subsys) db fun _ after =>
      SplitRelated (rows.zip subsys.interfaces) after := by
  rw [sysdSetSplittablePortInfo]
  refine (hashSplittable_transforms admits added.named []).bind fun hash middle ⟨hDb, hHash⟩ => ?_
  subst hDb hHash
  have hFit : ∀ port ∈ rows.zip subsys.interfaces,
      SubportsFit (splitHash (rows.zip subsys.interfaces) []) port.2.subports 0 :=
    fun port hPort => subportsFit_of_length (hSubports _ (List.of_mem_zip hPort).2)
  have hFind : (splitHash (rows.zip subsys.interfaces) []).find = splitRow (rows.zip subsys.interfaces) :=
    funext (find_splitHash distinct)
  refine (splitInfo_transforms admits added hFit).mono fun _ after h => ⟨?_, ?_⟩
  · intro subport hSubport row
    rw [(h subport hSubport).parent, hFind, Option.bind_eq_some_iff]
    constructor
    · rintro ⟨name, hName, hRow⟩
      obtain ⟨port, hPort, hSplittable, rfl, rfl⟩ := (splitRow_eq_some distinct).mp hRow
      exact ⟨port, hPort, rfl, hName, hSplittable⟩
    · rintro ⟨port, hPort, rfl, hName, hSplittable⟩
      exact ⟨_, hName, (splitRow_eq_some distinct).mpr ⟨port, hPort, hSplittable, rfl, rfl⟩⟩
  · exact fun port hPort => hFind ▸ (h port hPort).children

/-- A port with subports can be split. -/
theorem Port.splittable_of_subports {intf : Port} {name : CString} (h : name ∈ intf.subports) :
    intf.splittable = true := by
  simp [Port.splittable, List.ne_nil_of_mem h]

theorem Port.splittable_of_parentPort {intf : Port} {name : CString} (h : intf.parentPort = some name) :
    intf.splittable = true := by
  simp [Port.splittable, h]

/-- In a consistent description the two columns are inverse to each other. -/
theorem SplitRelated.splitInverse (distinct : Distinct ports) (consistent : MutuallyConsistent ports)
    (related : SplitRelated ports db) : SplitInverse ports db where
  inverse port hPort subport hSubport := by
    rw [related.parent subport hSubport, related.children port hPort, List.mem_filterMap]
    constructor
    · rintro ⟨parent, hParent, hRow, hName, -⟩
      obtain rfl := distinct.same_row hParent hPort hRow
      obtain ⟨parent', hParent', hSame, hListed⟩ := consistent.parents subport hSubport _ hName
      obtain rfl := distinct.same_name hParent' hPort hSame
      refine ⟨subport.2.name, hListed, (splitRow_eq_some distinct).mpr ⟨subport, hSubport, ?_, rfl, rfl⟩⟩
      exact Port.splittable_of_parentPort hName
    · rintro ⟨name, hListed, hRow⟩
      obtain ⟨listed, hMem, -, rfl, hSame⟩ := (splitRow_eq_some distinct).mp hRow
      obtain rfl := distinct.same_row hMem hSubport hSame
      obtain ⟨listed', hMem', hName, hParent⟩ := consistent.subports port hPort _ hListed
      obtain rfl := distinct.same_name hMem' hSubport hName
      exact ⟨port, hPort, rfl, hParent, Port.splittable_of_subports hListed⟩
  parentFound subport hSubport := by
    rw [Bool.eq_iff_iff, Option.isSome_iff_exists, Option.isSome_iff_exists]
    constructor
    · rintro ⟨row, hRow⟩
      obtain ⟨port, -, -, hName, -⟩ := (related.parent subport hSubport row).mp hRow
      exact ⟨_, hName⟩
    · rintro ⟨name, hName⟩
      obtain ⟨port, hPort, rfl, hListed⟩ := consistent.parents subport hSubport name hName
      refine ⟨port.1, (related.parent subport hSubport _).mpr ⟨port, hPort, rfl, hName, ?_⟩⟩
      exact Port.splittable_of_subports hListed
  childrenFound port hPort := by
    rw [related.children port hPort]
    have hAll : ∀ name ∈ port.2.subports, (splitRow ports name).isSome := by
      intro name hName
      obtain ⟨subport, hSubport, rfl, hParent⟩ := consistent.subports port hPort name hName
      have hSplittable := Port.splittable_of_parentPort hParent
      exact Option.isSome_iff_exists.mpr
        ⟨_, (splitRow_eq_some distinct).mpr ⟨subport, hSubport, hSplittable, rfl, rfl⟩⟩
    exact List.filterMap_length_eq_length.mpr hAll
  apart port hPort hApart := by
    have hNames : port.2.subports = [] ∧ port.2.parentPort = none := by
      simpa [Port.splittable] using hApart
    refine ⟨Option.eq_none_iff_forall_ne_some.mpr fun row hRow => ?_, ?_⟩
    · obtain ⟨parent, -, -, hName, -⟩ := (related.parent port hPort row).mp hRow
      exact nomatch hNames.2.symm.trans hName
    · rw [related.children port hPort, hNames.1]
      rfl

/-- A row of this interface, as it is inserted. -/
structure InterfaceRow (intf : Port) (row : RowId) (db : Database) : Prop where
  name : db.get row .interfaceName = intf.name
  unsplit : Unsplit db row

/-- An interface stays as described when other rows are added. -/
theorem InterfaceRow.later {intf : Port} {row : RowId} {after : Database}
    (h : InterfaceRow intf row db) (hExists : db.Exists row)
    (hLater : db.Extends (fun _ _ => False) after) : InterfaceRow intf row after where
  name := (hLater.get_eq _ _ hExists id).trans h.name
  unsplit := h.unsplit.later hExists hLater fun _ => id

theorem InterfaceRow.write {intf : Port} {row : RowId} {column : Column} (value : column.Val)
    (h : InterfaceRow intf row db) (hName : Column.interfaceName ≠ column)
    (hParent : Column.interfaceSplitParent ≠ column)
    (hChildren : Column.interfaceSplitChildren ≠ column) :
    InterfaceRow intf row ((Op.write row column value).apply db) where
  name := (get_write_other value fun _ => hName).trans h.name
  unsplit := ⟨(get_write_other value fun _ => hParent).trans h.unsplit.parent,
    (get_write_other value fun _ => hChildren).trans h.unsplit.children⟩

/-- An interface is added as described, not yet split. -/
theorem sysdInitialInterfaceAdd_transforms (admits : Admits env permitted) (config : Config)
    (intf : Port) (hSpeeds : speedsBufferSize ≤ intf.speedsText.length →
      ∀ state, permitted state (.fault .outOfBounds)) :
    Transforms env permitted txn (sysdInitialInterfaceAdd config txn subsys intf) db
      fun row after => AddedRow (InterfaceRow intf) db row after := by
  rw [sysdInitialInterfaceAdd]
  refine transforms_insertRow admits fun row hFresh => ?_
  refine transforms_write admits fun name hName => transforms_write admits fun type _ => ?_
  refine transforms_write admits fun adminState _ => ?_
  have hInserted := @AddedRow.of_insert db row .interface hFresh
  have hNamed : InterfaceRow intf row (Op.apply (Op.apply db (.insert row .interface))
      (.write row .interfaceName name)) := by
    refine ⟨(get_write_same hInserted.present name).trans hName, ⟨?_, ?_⟩⟩
    · refine (get_write_other name ?_).trans (get_insert_same hFresh)
      exact fun _ => nofun
    · refine (get_write_other name ?_).trans (get_insert_same hFresh)
      exact fun _ => nofun
  have hAdded := ((hInserted.write hNamed).write (hNamed.write type nofun nofun nofun)).write
    ((hNamed.write type nofun nofun nofun).write adminState nofun nofun nofun)
  have hInfo (info : Smap) : Transforms env permitted txn
      (.call (.write row .interfaceHwIntfInfo info) fun _ => .done row)
      (Op.apply (Op.apply (Op.apply (Op.apply db (.insert row .interface))
        (.write row .interfaceName name)) (.write row .interfaceType type))
        (.write row .interfaceAdminState adminState))
      fun row after => AddedRow (InterfaceRow intf) db row after :=
    transforms_write admits fun value _ => transforms_done <|
      hAdded.write (hAdded.holds.write value nofun nofun nofun)
  by_cases hLong : speedsBufferSize ≤ intf.speedsText.length
  · simp only [hLong, if_true]
    split
    · exact fun state _ _ => safe_fault.mpr (hSpeeds hLong state)
    · exact fun state _ _ => safe_fault.mpr (hSpeeds hLong state)
  · simp only [hLong, if_false]
    split
    · exact hInfo _
    · exact hInfo _

/-- The loop of `sysd_initial_subsystem_add` leaves the interfaces ready for the
split to be set. -/
theorem interfaces_transforms (admits : Admits env permitted) (config : Config)
    (hSpeeds : ∀ intf ∈ subsys.interfaces,
      speedsBufferSize ≤ intf.speedsText.length →
        ∀ state, permitted state (.fault .outOfBounds)) :
    Transforms env permitted txn
      (subsys.interfaces.mapM (sysdInitialInterfaceAdd config txn subsys)) db fun rows after =>
        rows.length = subsys.interfaces.length ∧ PortsAdded (rows.zip subsys.interfaces) after := by
  have hBody : ∀ intf ∈ subsys.interfaces, ∀ middle, Transforms env permitted txn
      (sysdInitialInterfaceAdd config txn subsys intf) middle fun row after =>
        AddedRow (InterfaceRow intf) middle row after :=
    fun intf hIntf _ => sysdInitialInterfaceAdd_transforms admits config intf (hSpeeds intf hIntf)
  refine (transforms_mapM hBody fun _ _ _ _ h => h.later).mono fun rows after ⟨hInserted, hRows⟩ => ?_
  have hRow : ∀ port ∈ rows.zip subsys.interfaces, InterfaceRow port.2 port.1 after :=
    fun port hPort => (List.forall₂_iff_zip.mp hRows).2 hPort
  have hDistinct : ((rows.zip subsys.interfaces).map Prod.fst).Nodup := by
    rw [List.map_fst_zip (Nat.le_of_eq hRows.length_eq)]
    exact hInserted.distinct
  refine ⟨hRows.length_eq, hDistinct, ⟨?_, ?_⟩, ?_⟩
  · exact fun port hPort => hInserted.present _ (List.of_mem_zip hPort).1
  · exact fun port hPort => (hRow port hPort).name
  · exact fun port hPort => (hRow port hPort).unsplit

/-- The split columns of the interfaces that were added are what the description
says, whatever the order of the ports. -/
theorem splitRelated_of_interfaces (total : env.Total) {state middle : State World}
    (hOpen : state.Opened txn) (hNames : (subsys.interfaces.map Port.name).Nodup)
    (hSubports : ∀ intf ∈ subsys.interfaces, intf.subports.length ≤ sysdMaxSplitPorts)
    (hAdded : Exec (step env) (subsys.interfaces.mapM (sysdInitialInterfaceAdd config txn subsys))
      state rows middle) :
    rows.length = subsys.interfaces.length ∧
      (∃ after, Exec (step env) (sysdSetSplittablePortInfo rows subsys) middle () after) ∧
      ∀ after, Exec (step env) (sysdSetSplittablePortInfo rows subsys) middle () after →
        SplitRelated (rows.zip subsys.interfaces) after.view ∧
          (MutuallyConsistent (rows.zip subsys.interfaces) →
            SplitInverse (rows.zip subsys.interfaces) after.view) := by
  have hInterfaces : Transforms env (fun _ _ => True) txn
      (subsys.interfaces.mapM (sysdInitialInterfaceAdd config txn subsys)) state.view _ :=
    interfaces_transforms (admits_any env) config fun _ _ _ _ => trivial
  obtain ⟨hMiddle, hLength, added⟩ := hInterfaces.of_exec hOpen hAdded
  have distinct : Distinct (rows.zip subsys.interfaces) := ⟨added.rows, names_zip hLength ▸ hNames⟩
  refine ⟨hLength, ?_, fun after hExec => ?_⟩
  · have hSet : Transforms env.accepting Disciplined txn (sysdSetSplittablePortInfo rows subsys)
        middle.view _ := sysdSetSplittablePortInfo_transforms admits_accepting distinct added hSubports
    obtain ⟨_, after, hExec, -, -⟩ := hSet.exists_exec total hMiddle
    exact ⟨after, hExec⟩
  · have hSet : Transforms env (fun _ _ => True) txn (sysdSetSplittablePortInfo rows subsys)
        middle.view _ :=
      sysdSetSplittablePortInfo_transforms (admits_any env) distinct added hSubports
    have hRelated := (hSet.of_exec hMiddle hExec).2
    exact ⟨hRelated, fun consistent => hRelated.splitInverse distinct consistent⟩

/-- A port that can be split in two, and its halves. -/
def splitSubsystem : Subsystem where
  name := .lit "base"
  interfaces := [⟨.lit "1", false, .lit "QSFP", 40, [40], 0, 1, [], [.lit "1-1", .lit "1-2"], none⟩,
    ⟨.lit "1-1", false, .lit "QSFP", 10, [10], 0, 1, [], [], some (.lit "1")⟩,
    ⟨.lit "1-2", false, .lit "QSFP", 10, [10], 0, 2, [], [], some (.lit "1")⟩]
  intfCmnInfo := ⟨3, 40, 9192, 256, 8, 0⟩
  fruEeprom := ⟨.lit "", 0, none, none, [0, 0, 0, 0, 0, 1], 16, none, .lit "", none, none, none,
    none, none, none⟩
  nxtMacAddr := 3
  numFreeMacs := 14
  mgmtMacAddr := 1
  systemMacAddr := 2

/-- The halves of the port are added and related to it. -/
theorem splitSubsystem_related : ∃ rows middle,
    Exec (step anyEnv) (splitSubsystem.interfaces.mapM
      (sysdInitialInterfaceAdd (.onePort []) 0 splitSubsystem)) configuring rows middle ∧
      ∀ after, Exec (step anyEnv) (sysdSetSplittablePortInfo rows splitSubsystem) middle () after →
        SplitRelated (rows.zip splitSubsystem.interfaces) after.view := by
  have hSpeeds : ∀ intf ∈ splitSubsystem.interfaces,
      ¬ speedsBufferSize ≤ intf.speedsText.length := by decide
  have hInterfaces : Transforms anyEnv.accepting Disciplined 0 (splitSubsystem.interfaces.mapM
      (sysdInitialInterfaceAdd (.onePort []) 0 splitSubsystem)) configuring.view _ :=
    interfaces_transforms admits_accepting (.onePort []) fun intf hIntf hLong =>
      absurd hLong (hSpeeds intf hIntf)
  obtain ⟨rows, middle, hExec, -, -⟩ := hInterfaces.exists_exec anyEnv_total configuring_opened
  refine ⟨rows, middle, hExec, fun after hAfter => ?_⟩
  exact ((splitRelated_of_interfaces anyEnv_total configuring_opened (by decide) (by decide) hExec).2.2 after
    hAfter).1

end Relation
end OpsSysd.Daemon
