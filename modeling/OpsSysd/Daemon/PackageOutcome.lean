import OpsSysd.Daemon.PackageTable
import OpsSysd.Idl.Transforms
import OpsSysd.Daemon.Pass

/-! What the Package_Info table holds after a population that meets failures: a
document may be cut short, rows may be refused and commits may be lost. Batches
succeed or fail as a whole, but independently of each other. -/
namespace OpsSysd.Daemon

open CLib Interaction Interaction.Program Idl

/-- The scalars of a record, keys included. -/
def scalarsPerRecord : Nat := 10

/-- A record of which only so many values have come; a missing value leaves its
column as it is. -/
def Record.upTo (record : Record) (values : Nat) : Record where
  pkg := record.pkg
  pv := if 2 ≤ values then record.pv else .lit ""
  srcRev := if 3 ≤ values then record.srcRev else .lit "INVALID"
  srcUrl := if 4 ≤ values then record.srcUrl else .lit ""
  type := if 5 ≤ values then record.type else .lit ""

/-- The records of a document as far as its first scalars give them. -/
def given : List Record → Nat → List Record
  | [], _ => []
  | record :: records, count =>
      if scalarsPerRecord ≤ count then record :: given records (count - scalarsPerRecord)
      else if 2 ≤ count then [record.upTo (count / 2)]
      else []

/-- No more records are given than there are. -/
theorem given_length_le (records : List Record) (count : Nat) :
    (given records count).length ≤ records.length := by
  induction records generalizing count with
  | nil => exact Nat.le_refl 0
  | cons record records ih =>
      rw [given]
      split
      · exact Nat.succ_le_succ (ih _)
      · split
        · exact Nat.succ_le_succ (Nat.zero_le _)
        · exact Nat.zero_le _

/-- Before the value of its PKG nothing of a record is given. -/
theorem given_nothing {record : Record} {count : Nat} (h : count < 2) : given [record] count = [] := by
  rw [given, if_neg (by unfold scalarsPerRecord; omega), if_neg (by omega)]

/-- After it the values that have come are. -/
theorem given_part {record : Record} {count : Nat} (hSome : 2 ≤ count)
    (hCount : count < scalarsPerRecord) : given [record] count = [record.upTo (count / 2)] := by
  rw [given, if_neg (by omega), if_pos hSome]

/-- The batches that so many records fill, the last one perhaps in part. -/
def batchesOf (count : Nat) : Nat :=
  (count + (pkgInfoEntriesPerCommit - 1)) / pkgInfoEntriesPerCommit

/-- How the transactions fare: whether the commit of a batch is applied, and
whether the IDL may refuse a row of it. -/
structure Choices where
  applied : Nat → Bool
  refuses : Nat → Bool

/-- The table, and the commits made so far. -/
structure Population where
  table : List Package
  commits : Nat

/-- A database whose commits and insertions fare as chosen. -/
def populationEnv (events : List YamlEvent) (choices : Choices) : Environment Population where
  run population _ population' _ := population' = population
  commit population _ ops status population' _ :=
    (status = .success → choices.applied population.commits = true) ∧
      population' = ⟨if choices.applied population.commits then population.table ++ packagesOf ops
        else population.table, population.commits + 1⟩
  insertFails population _ := choices.refuses population.commits = true
  discards _ _ _ _ := True
  symlinkFails _ _ := True
  osRelease _ _ := True
  versionDetail _ answer := answer = some events

/-- The table has a complete row for every record, or none at all. -/
def AllOrNothing (records : List Record) (table : List Package) : Prop :=
  table = records.map Record.package ∨ table = []

/-- Either no commit is applied, or all are and every record is given in full;
and no row is refused after a batch that has been applied. -/
structure Consistent (choices : Choices) (records : List Record) (count : Nat) : Prop where
  commits : (∀ batch < batchesOf (given records count).length, choices.applied batch = false) ∨
    (∀ batch < batchesOf (given records count).length, choices.applied batch = true) ∧
      (given records count).map Record.package = records.map Record.package
  refusals : ∀ batch < batchesOf (given records count).length, choices.refuses batch = true →
    ∀ earlier < batch, choices.applied earlier = false

/-- The packages of the batches that are applied. -/
def survivors (choices : Choices) (records : List Record) : List Package :=
  (records.zipIdx.filter fun numbered =>
    choices.applied (numbered.2 / pkgInfoEntriesPerCommit)).map fun numbered => numbered.1.package

section Survivors

variable {choices : Choices} {records pending : List Record}

theorem map_package_zipIdx (records : List Record) (start : Nat) :
    (records.zipIdx start).map (fun numbered => numbered.1.package) =
      records.map Record.package := by
  rw [← List.zipIdx_map_fst start records, List.map_map, List.zipIdx_map_fst]
  rfl

/-- A batch survives as a whole or not at all. -/
theorem survivors_append (hFull : records.length % pkgInfoEntriesPerCommit = 0)
    (hShort : pending.length ≤ pkgInfoEntriesPerCommit) :
    survivors choices (records ++ pending) = survivors choices records ++
      if choices.applied (records.length / pkgInfoEntriesPerCommit) then pending.map Record.package
      else [] := by
  have hBatch : ∀ numbered ∈ pending.zipIdx records.length,
      numbered.2 / pkgInfoEntriesPerCommit = records.length / pkgInfoEntriesPerCommit := by
    intro numbered hNumbered
    have hLower := List.le_snd_of_mem_zipIdx hNumbered
    have hUpper := List.snd_lt_add_of_mem_zipIdx hNumbered
    unfold pkgInfoEntriesPerCommit at *
    omega
  rw [survivors, List.zipIdx_append, List.filter_append, List.map_append, Nat.zero_add, survivors]
  congr 1
  cases hApplied : choices.applied (records.length / pkgInfoEntriesPerCommit) with
  | true =>
      have hAll : ∀ numbered ∈ pending.zipIdx records.length,
          choices.applied (numbered.2 / pkgInfoEntriesPerCommit) = true :=
        fun numbered hNumbered => hBatch numbered hNumbered ▸ hApplied
      rw [List.filter_eq_self.mpr hAll, map_package_zipIdx]
      rfl
  | false =>
      have hNone : ∀ numbered ∈ pending.zipIdx records.length,
          ¬ choices.applied (numbered.2 / pkgInfoEntriesPerCommit) = true := by
        intro numbered hNumbered
        rw [hBatch numbered hNumbered, hApplied]
        exact Bool.false_ne_true
      rw [List.filter_eq_nil_iff.mpr hNone]
      rfl

/-- What is left after full batches is one more. -/
theorem batchesOf_append (hFull : records.length % pkgInfoEntriesPerCommit = 0)
    (hNonempty : pending ≠ []) (hShort : pending.length ≤ pkgInfoEntriesPerCommit) :
    batchesOf (records ++ pending).length = batchesOf records.length + 1 := by
  have hPositive := List.length_pos_iff.mpr hNonempty
  rw [List.length_append]
  unfold batchesOf pkgInfoEntriesPerCommit at *
  omega

/-- Full batches are counted by their size. -/
theorem batchesOf_full (hFull : records.length % pkgInfoEntriesPerCommit = 0) :
    batchesOf records.length = records.length / pkgInfoEntriesPerCommit := by
  unfold batchesOf pkgInfoEntriesPerCommit at *
  omega

/-- The batches are those of the records. -/
theorem lt_batchesOf_iff {batch count : Nat} :
    batch < batchesOf count ↔ ∃ index < count, index / pkgInfoEntriesPerCommit = batch := by
  constructor
  · refine fun h => ⟨batch * pkgInfoEntriesPerCommit, ?_, ?_⟩ <;>
      unfold batchesOf pkgInfoEntriesPerCommit at * <;> omega
  · rintro ⟨index, hIndex, rfl⟩
    unfold batchesOf pkgInfoEntriesPerCommit at *
    omega

/-- What holds of every batch holds of the batch of every record. -/
theorem forall_batch_iff {holds : Nat → Prop} :
    (∀ batch < batchesOf records.length, holds batch) ↔
      ∀ numbered ∈ records.zipIdx, holds (numbered.2 / pkgInfoEntriesPerCommit) := by
  constructor
  · intro h numbered hNumbered
    have hIndex : numbered.2 < records.length := by
      simpa using List.snd_lt_add_of_mem_zipIdx hNumbered
    exact h _ (lt_batchesOf_iff.mpr ⟨_, hIndex, rfl⟩)
  · intro h batch hBatch
    obtain ⟨index, hIndex, rfl⟩ := lt_batchesOf_iff.mp hBatch
    exact h (records[index], index) (List.mk_mem_zipIdx_iff_getElem?.mpr (by simp [hIndex]))

/-- Nothing survives exactly if no batch is applied. -/
theorem survivors_eq_nil_iff : survivors choices records = [] ↔
    ∀ batch < batchesOf records.length, choices.applied batch = false := by
  rw [forall_batch_iff, survivors, List.map_eq_nil_iff, List.filter_eq_nil_iff]
  simp only [Bool.not_eq_true]

theorem survivors_length_le : (survivors choices records).length ≤ records.length := by
  rw [survivors, List.length_map]
  exact (List.length_filter_le _ _).trans_eq List.length_zipIdx

/-- Everything does if all are. -/
theorem survivors_of_applied (h : ∀ batch < batchesOf records.length, choices.applied batch = true) :
    survivors choices records = records.map Record.package := by
  rw [forall_batch_iff] at h
  rw [survivors, List.filter_eq_self.mpr h, map_package_zipIdx]

/-- And only then. -/
theorem applied_of_length (h : (survivors choices records).length = records.length) :
    ∀ batch < batchesOf records.length, choices.applied batch = true := by
  rw [forall_batch_iff]
  rw [survivors, List.length_map, ← @List.length_zipIdx _ records 0] at h
  exact List.length_filter_eq_length_iff.mp h

end Survivors

section Cut

variable {World : Type} {env : Environment World} {kept : List Record → World → Prop}
  {permitted : State World → Request → Prop} {parser : PackageParser} {state : State World}
  {committed pending : List Record} {ops : List Op} {row : RowId} {cells : Cells}

/-- A document that ends within a pair. -/
theorem parseScalars_take (key : Key) (hKey : key ≠ .value) {value : CString}
    (hValue : ∀ key, key ≠ .value → value ≠ Key.str key) (rest : List CString)
    (parser : PackageParser) (count : Nat) :
    parseScalars ((key.str :: value :: rest).take count) parser =
      match count with
      | 0 => .done (some parser)
      | 1 => .done (some { parser with currentState := key })
      | more + 2 => handleValue value { parser with currentState := key } >>=
          unlessReturned (parseScalars (rest.take more)) := by
  match count with
  | 0 => rfl
  | 1 =>
      rw [List.take_succ_cons, List.take_zero, parseScalars, handleScalar_key hKey]
      rfl
  | more + 2 => exact parseScalars_pair key hKey hValue (rest.take more) parser

theorem BetweenRecords.of_key {records : List Record} (h : BetweenRecords kept records parser state)
    (key : Key) : BetweenRecords kept records { parser with currentState := key } state := by
  obtain ⟨committed, pending, hRecords, hCount, hFull, hShort, hCommitted, hPending⟩ := h
  refine ⟨committed, pending, hRecords, hCount, hFull, hShort, hCommitted, ?_⟩
  cases hPending with
  | closed hParser hState => exact .closed hParser hState
  | opened hParser hState hNonempty hOps => exact .opened hParser hState hNonempty hOps

/-- After full batches no transaction is open. -/
theorem BetweenRecords.boundary {records : List Record} (h : BetweenRecords kept records parser state)
    (hFull : records.length % pkgInfoEntriesPerCommit = 0) :
    parser.recordCount = records.length ∧ state.txn = none ∧ kept records state.world := by
  obtain ⟨committed, pending, rfl, hCount, hCommitted, hShort, hKept, hPending⟩ := h
  cases hPending with
  | closed hParser hState => exact ⟨hCount, hState, by rwa [List.append_nil]⟩
  | opened hParser hState hNonempty hOps =>
      have hPositive := List.length_pos_iff.mpr hNonempty
      rw [List.length_append] at hFull
      unfold pkgInfoEntriesPerCommit at *
      omega

/-- A record cut short is committed as far as it has come. -/
theorem Begun.safe_commitLastBatch (h : Begun kept committed pending ops row cells parser state)
    (keeps : Keeps env kept) (permits : Permits permitted) (record : Record)
    (hCells : packageOf ((Row.fresh row .packageInfo).setAll cells) = record.package) :
    Safe (step env) permitted (commitLastBatch (some parser))
      (fun _ after => after.txn = none ∧ kept (committed ++ pending ++ [record]) after.world) state := by
  obtain ⟨txn, hParser, hState⟩ := h.opened
  have hShort : (pending ++ [record]).length ≤ pkgInfoEntriesPerCommit := by
    rw [List.length_append, List.length_singleton]
    exact h.short
  rw [commitLastBatch, hParser]
  refine safe_commit_open hState (permits _ _ ⟨_, hState, rfl⟩) fun status world link hCommit => ?_
  refine safe_txnDestroy.mpr ⟨permits _ _ ?_, rfl, ?_⟩
  · rintro ⟨current, hCurrent, -⟩
    cases hCurrent
  · rw [List.append_assoc]
    refine keeps.commit h.committed h.full (by simp) hShort ?_ hCommit
    rw [List.map_append, ← h.packages, List.map_singleton, ← hCells]
    exact packagesOf_row h.unused cells

/-- What a finished row says of a record whose URL has not come yet. -/
theorem packageOf_versioned (record : Record) (row : RowId) :
    packageOf ((Row.fresh row .packageInfo).setAll
      ([⟨.packageInfoName, record.pkg⟩] ++ [⟨.packageInfoVersion, record.pv⟩] ++
        if record.srcRev = .lit "INVALID" then [] else [⟨.packageInfoVersion, record.srcRev⟩])) =
      (record.upTo 3).package := by
  by_cases hInvalid : record.srcRev = .lit "INVALID" <;>
    simp [hInvalid, Row.setAll, packageOf, Row.set, Function.update, Record.package,
      Record.version, Record.upTo, Row.fresh, Shape.default]

/-- A row whose type is not set is the package of the record up to the type. -/
theorem packageOf_located (record : Record) (row : RowId) :
    packageOf ((Row.fresh row .packageInfo).setAll
      ([⟨.packageInfoName, record.pkg⟩] ++ [⟨.packageInfoVersion, record.pv⟩] ++
        (if record.srcRev = .lit "INVALID" then [] else
          [⟨.packageInfoVersion, record.srcRev⟩]) ++
        [⟨.packageInfoSrcUrl, record.srcUrl⟩])) =
      (record.upTo 4).package := by
  by_cases hInvalid : record.srcRev = .lit "INVALID" <;>
    simp [hInvalid, Row.setAll, packageOf, Row.set, Function.update, Record.package,
      Record.version, Record.upTo, Row.fresh, Shape.default]

/-- A record of which only the first scalars come, between two others. -/
theorem BetweenRecords.safe_cut {records : List Record} {record : Record}
    (h : BetweenRecords kept records parser state) (keeps : Keeps env kept)
    (permits : Permits permitted) (plain : record.Plain) {count : Nat}
    (hCount : count < scalarsPerRecord) {post : Unit → State World → Prop}
    (hRefused : 2 ≤ count → ∀ txn state, Refused env kept records txn state →
      Safe (step env) permitted (txnDestroy txn >>= fun _ => commitLastBatch none) post state)
    (hPost : ∀ after, after.txn = none ∧ kept (records ++ given [record] count) after.world →
      post () after) :
    Safe (step env) permitted
      (parseScalars (record.scalars.take count) parser >>= commitLastBatch) post state := by
  have hPlain : ∀ value ∈ record.values, ∀ key, key ≠ .value → value ≠ Key.str key := plain
  simp only [Record.values, List.mem_cons, List.not_mem_nil, or_false, forall_eq_or_imp,
    forall_eq] at hPlain
  obtain ⟨hPkg, hPv, hSrcRev, hSrcUrl, hType⟩ := hPlain
  have hBefore : ∀ parser, count < 2 → BetweenRecords kept records parser state →
      Safe (step env) permitted (commitLastBatch (some parser)) post state := by
    intro parser hFew h
    refine (h.safe_commitLastBatch keeps permits).mono fun _ after hAfter => hPost after ?_
    rwa [given_nothing hFew, List.append_nil]
  have hWithin : ∀ committed pending ops row cells parser state, 2 ≤ count →
      records = committed ++ pending → Begun kept committed pending ops row cells parser state →
      packageOf ((Row.fresh row .packageInfo).setAll cells) = (record.upTo (count / 2)).package →
      Safe (step env) permitted (commitLastBatch (some parser)) post state := by
    rintro committed pending ops row cells parser state hSome rfl hBegun hCells
    refine (hBegun.safe_commitLastBatch keeps permits _ hCells).mono fun _ after hAfter => ?_
    refine hPost after ?_
    rwa [given_part hSome hCount]
  rw [Record.scalars, parseScalars_take .pkg (by simp) hPkg]
  rcases count with _ | _ | count
  · exact hBefore _ (by decide) h
  · exact hBefore _ (by decide) (h.of_key .pkg)
  rw [bind_assoc]
  refine h.safe_pkg permits record.pkg (hRefused (by omega)) ?_
  intro committed pending ops row parser state hRecords hBegun
  change Safe _ _ (parseScalars _ parser >>= commitLastBatch) _ _
  rw [parseScalars_take .pv (by simp) hPv]
  rcases count with _ | _ | count
  · exact hWithin _ _ _ _ _ _ _ (by decide) hRecords hBegun rfl
  · exact hWithin _ _ _ _ _ _ _ (by decide) hRecords (hBegun.of_key .pv) rfl
  rw [bind_assoc]
  refine (hBegun.of_key .pv).safe_column permits .packageInfoVersion record.pv ?_
  rintro _ parser state rfl hBegun
  change Safe _ _ (parseScalars _ parser >>= commitLastBatch) _ _
  rw [parseScalars_take .srcRev (by simp) hSrcRev]
  rcases count with _ | _ | count
  · exact hWithin _ _ _ _ _ _ _ (by decide) hRecords hBegun rfl
  · exact hWithin _ _ _ _ _ _ _ (by decide) hRecords (hBegun.of_key .srcRev) rfl
  rw [bind_assoc]
  refine hBegun.safe_srcRev permits record.srcRev fun parser state hBegun => ?_
  change Safe _ _ (parseScalars _ parser >>= commitLastBatch) _ _
  rw [parseScalars_take .srcUrl (by simp) hSrcUrl]
  have hVersion := packageOf_versioned record row
  rcases count with _ | _ | count
  · exact hWithin _ _ _ _ _ _ _ (by decide) hRecords hBegun hVersion
  · exact hWithin _ _ _ _ _ _ _ (by decide) hRecords (hBegun.of_key .srcUrl) hVersion
  rw [bind_assoc]
  refine (hBegun.of_key .srcUrl).safe_column permits .packageInfoSrcUrl record.srcUrl ?_
  rintro _ parser state rfl hBegun
  change Safe _ _ (parseScalars _ parser >>= commitLastBatch) _ _
  rw [parseScalars_take .type (by simp) hType]
  have hUrl := packageOf_located record row
  rcases count with _ | _ | count
  · exact hWithin _ _ _ _ _ _ _ (by decide) hRecords hBegun hUrl
  · exact hWithin _ _ _ _ _ _ _ (by decide) hRecords (hBegun.of_key .type) hUrl
  · exact absurd hCount (by unfold scalarsPerRecord; omega)

/-- The first scalars of a document: those of complete records, and a part of
the next one. -/
theorem take_scalars (records : List Record) (count : Nat) :
    ∃ full part tail, (records.flatMap Record.scalars).take count =
        full.flatMap Record.scalars ++ part ∧ given records count = full ++ tail ∧
      (∀ record ∈ full, record ∈ records) ∧
      (part = [] ∧ tail = [] ∨ ∃ record ∈ records, ∃ rest < scalarsPerRecord,
        part = record.scalars.take rest ∧ tail = given [record] rest) := by
  induction records generalizing count with
  | nil => exact ⟨[], [], [], by simp, rfl, nofun, .inl ⟨rfl, rfl⟩⟩
  | cons record records ih =>
      rw [List.flatMap_cons, given]
      by_cases hFull : scalarsPerRecord ≤ count
      · obtain ⟨full, part, tail, hTake, hGiven, hRecords, hTail⟩ := ih (count - scalarsPerRecord)
        refine ⟨record :: full, part, tail, ?_, by rw [if_pos hFull, hGiven]; rfl, ?_, ?_⟩
        · have hLength : record.scalars.length = scalarsPerRecord := rfl
          rw [List.take_append, List.take_of_length_le (hLength ▸ hFull), hLength, hTake,
            List.flatMap_cons, List.append_assoc]
        · rintro other (_ | ⟨_, hOther⟩)
          · exact List.mem_cons_self
          · exact List.mem_cons_of_mem _ (hRecords other hOther)
        · rcases hTail with hNone | ⟨last, hLast, hRest⟩
          · exact .inl hNone
          · exact .inr ⟨last, List.mem_cons_of_mem _ hLast, hRest⟩
      · have hCount : count < scalarsPerRecord := Nat.lt_of_not_le hFull
        have hLength : count ≤ record.scalars.length := Nat.le_of_lt hCount
        refine ⟨[], record.scalars.take count, given [record] count, ?_, ?_, nofun, .inr ?_⟩
        · exact List.take_append_of_le_length hLength
        · rw [if_neg hFull, List.nil_append, given, if_neg hFull]
        · exact ⟨record, List.mem_cons_self, count, hCount, rfl, rfl⟩

/-- Where another record is given, its name comes after the scalars of those
before it. -/
theorem take_scalars_before {records before later : List Record} {next : Record} {count : Nat}
    (h : given records count = before ++ next :: later) :
    (∀ record ∈ before, record ∈ records) ∧ ∃ record ∈ records, ∃ rest,
      (records.flatMap Record.scalars).take count =
        before.flatMap Record.scalars ++ Key.pkg.str :: record.pkg :: rest := by
  induction records generalizing count before with
  | nil => simp [given] at h
  | cons record records ih =>
      rw [given] at h
      have hHead : 2 ≤ count → ((record :: records).flatMap Record.scalars).take count =
          Key.pkg.str :: record.pkg ::
            (record.scalars.tail.tail ++ records.flatMap Record.scalars).take (count - 2) := by
        intro hSome
        obtain ⟨more, rfl⟩ := Nat.exists_eq_add_of_le hSome
        rw [Nat.add_comm 2 more]
        rfl
      by_cases hFull : scalarsPerRecord ≤ count
      · rw [if_pos hFull] at h
        have hLength : record.scalars.length = scalarsPerRecord := rfl
        cases before with
        | nil =>
            have hSome : 2 ≤ count := Nat.le_trans (by decide) hFull
            exact ⟨nofun, record, List.mem_cons_self, _, hHead hSome⟩
        | cons first before =>
            obtain ⟨rfl, hRest⟩ := List.cons.inj h
            obtain ⟨hBefore, last, hLast, rest, hTake⟩ := ih hRest
            refine ⟨?_, last, List.mem_cons_of_mem _ hLast, rest, ?_⟩
            · rintro other (_ | ⟨_, hOther⟩)
              · exact List.mem_cons_self
              · exact List.mem_cons_of_mem _ (hBefore other hOther)
            · rw [List.flatMap_cons, List.take_append, List.take_of_length_le (hLength ▸ hFull),
                hLength, hTake, List.flatMap_cons, List.append_assoc]
      · rw [if_neg hFull] at h
        by_cases hSome : 2 ≤ count
        · rw [if_pos hSome] at h
          obtain ⟨rfl, -⟩ | ⟨rest, -, hNil⟩ := List.cons_eq_append_iff.mp h
          · exact ⟨nofun, record, List.mem_cons_self, _, hHead hSome⟩
          · exact absurd hNil (by simp)
        · rw [if_neg hSome] at h
          exact absurd h.symm (by simp)

/-- The scalars may be parsed in two parts. -/
theorem parseScalars_append (first second : List CString) (parser : PackageParser) :
    parseScalars (first ++ second) parser =
      parseScalars first parser >>= unlessReturned (parseScalars second) := by
  induction first generalizing parser with
  | nil => rfl
  | cons scalar first ih =>
      rw [List.cons_append, parseScalars, parseScalars, bind_assoc]
      refine congrArg (handleScalar scalar parser >>= ·) (funext fun result => ?_)
      cases result with
      | none => rfl
      | some parser => exact ih parser

/-- The first row of a batch may be refused. -/
theorem exec_refused {value : CString} (hValue : ∀ key, key ≠ .value → value ≠ Key.str key)
    (hFull : parser.recordCount % pkgInfoEntriesPerCommit = 0) (hClosed : state.txn = none)
    (hFails : env.insertFails state.world .packageInfo) (rest : List CString) :
    ∃ after, Exec (step env) (parseScalars (Key.pkg.str :: value :: rest) parser >>= commitLastBatch)
      state () after ∧ after.world = state.world := by
  rw [parseScalars_pair .pkg nofun hValue]
  change ∃ after, Exec _ (((beginRecord value { parser with currentState := .pkg }) >>= _) >>= _)
    _ _ after ∧ _
  rw [beginRecord, if_pos hFull]
  refine ⟨{ state with txn := none, nextTxn := state.nextTxn + 1 }, ?_, rfl⟩
  refine .call ⟨hClosed, rfl, rfl⟩ (.call ⟨_, rfl, rfl, .inl ⟨rfl, hFails, rfl⟩⟩ ?_)
  refine .call (show step _ _ (.txnDestroy _) () { state with txn := none, nextTxn := _ } from ?_)
    (.done _ _)
  simp [step, Option.filter]

/-- A document cut anywhere: what is given is kept, unless a row is refused. -/
theorem BetweenRecords.safe_given (h : BetweenRecords kept [] parser state) (keeps : Keeps env kept)
    (permits : Permits permitted) {records : List Record} (plain : ∀ record ∈ records, record.Plain)
    (count : Nat) {post : Unit → State World → Prop}
    (hRefused : ∀ before next later, given records count = before ++ next :: later →
      ∀ txn state, Refused env kept before txn state →
        Safe (step env) permitted (txnDestroy txn >>= fun _ => commitLastBatch none) post state)
    (hPost : ∀ after, kept (given records count) after.world → post () after) :
    Safe (step env) permitted
      (parseScalars ((records.flatMap Record.scalars).take count) parser >>= commitLastBatch)
      post state := by
  obtain ⟨full, part, tail, hTake, hGiven, hFull, hTail⟩ := take_scalars records count
  rw [hTake]
  refine h.safe_records keeps permits (fun record hRecord => plain record (hFull record hRecord))
    part ?_ fun parser state h' => ?_
  · rintro before record later rfl txn state hRow
    refine hRefused before record (later ++ tail) (by rw [hGiven]; simp) txn state ?_
    rwa [List.nil_append] at hRow
  rw [List.nil_append] at h'
  rcases hTail with ⟨rfl, rfl⟩ | ⟨record, hRecord, rest, hRest, rfl, rfl⟩
  · refine (h'.safe_commitLastBatch keeps permits).mono fun _ after hAfter => hPost after ?_
    rw [hGiven, List.append_nil]
    exact hAfter.2
  · refine h'.safe_cut keeps permits (plain record hRecord) hRest (fun hSome txn state hRow => ?_) ?_
    · rw [given_part hSome hRest] at hGiven
      exact hRefused full _ [] hGiven txn state hRow
    · exact fun after hAfter => hPost after (hGiven ▸ hAfter.2)

end Cut

section Outcomes

variable {events : List YamlEvent} {choices : Choices} {records : List Record} {count : Nat}
  {state : State Population}

/-- The table holds what has survived of these records. -/
structure Survived (choices : Choices) (records : List Record) (population : Population) : Prop where
  commits : population.commits = batchesOf records.length
  table : population.table = survivors choices records

/-- What survives of a batch is decided by the choice for it. -/
theorem populationEnv_keeps (events : List YamlEvent) (choices : Choices) :
    Keeps (populationEnv events choices) (Survived choices) where
  commit hKept hFull hNonempty hShort hOps := by
    rintro ⟨-, rfl⟩
    refine ⟨by rw [batchesOf_append hFull hNonempty hShort, ← hKept.commits], ?_⟩
    rw [survivors_append hFull hShort, ← batchesOf_full hFull, ← hKept.commits, ← hKept.table, hOps]
    cases choices.applied _ with
    | true => rfl
    | false => exact (List.append_nil _).symm

/-- Where a part of the records is missing, the table is all or nothing only if
it is empty. -/
theorem Survived.split_allOrNothing {before rest given : List Record} {population : Population}
    (h : Survived choices before population) (hSplit : given = before ++ rest) (hRest : rest ≠ [])
    (hGiven : given.length ≤ records.length) :
    AllOrNothing records population.table ↔
      ∀ batch < batchesOf before.length, choices.applied batch = false := by
  rw [AllOrNothing, h.table, survivors_eq_nil_iff]
  refine or_iff_right fun hWhole => ?_
  have hLength := congrArg List.length hWhole
  have hBefore := @survivors_length_le choices before
  have hPositive := List.length_pos_iff.mpr hRest
  rw [List.length_map] at hLength
  rw [hSplit, List.length_append] at hGiven
  omega

/-- A table that is kept is so where no row is refused. -/
theorem Keeps.accepting {World : Type} {env : Environment World}
    {kept : List Record → World → Prop} (keeps : Keeps env kept) : Keeps env.accepting kept where
  commit hKept hFull hNonempty hShort hOps hCommit :=
    keeps.commit hKept hFull hNonempty hShort hOps hCommit

theorem populationEnv_total (events : List YamlEvent) (choices : Choices) :
    (populationEnv events choices).Total where
  run population link := ⟨population, link, rfl⟩
  commit _ link _ := ⟨.error, _, link, nofun, rfl⟩
  osRelease _ := ⟨none, trivial⟩
  versionDetail _ := ⟨some events, rfl⟩

/-- What a population can end with: everything that was given was put into some
batch, or a row was refused and its batch dropped. -/
inductive Outcome (choices : Choices) (given : List Record) (population : Population) : Prop where
  | finished (survived : Survived choices given population)
  | refused {before rest : List Record} (split : given = before ++ rest) (nonempty : rest ≠ [])
      (full : before.length % pkgInfoEntriesPerCommit = 0)
      (refuses : choices.refuses (before.length / pkgInfoEntriesPerCommit) = true)
      (survived : Survived choices before population)

/-- Every population ends so. -/
theorem safe_population (plain : ∀ record ∈ records, record.Plain)
    (hDelivered : delivered events = (records.flatMap Record.scalars).take count)
    (hClosed : state.txn = none) (hStart : state.world = ⟨[], 0⟩) :
    Safe (step (populationEnv events choices)) anyCall sysdAddPackageInfo
      (fun _ after => Outcome choices (given records count) after.world) state := by
  have hKept : Survived choices [] state.world := hStart ▸ ⟨rfl, rfl⟩
  refine safe_openVersionDetail.mpr ⟨trivial, ?_⟩
  rintro _ rfl
  change Safe _ _ (parseEvents events .initial >>= commitLastBatch) _ _
  rw [parseEvents_eq_parseScalars, hDelivered]
  refine (betweenRecords_start hClosed hKept).safe_given (populationEnv_keeps events choices)
    (fun _ _ _ => trivial) plain count ?_ fun after hAfter => .finished hAfter
  rintro before next later hGiven txn state
    ⟨-, hFails, committed, pending, rfl, hFull, -, hSurvived⟩
  have hRefuses : choices.refuses (committed.length / pkgInfoEntriesPerCommit) = true := by
    rw [← batchesOf_full hFull, ← hSurvived.commits]
    exact hFails
  rw [List.append_assoc] at hGiven
  exact safe_txnDestroy.mpr ⟨trivial, .refused hGiven (by simp) hFull hRefuses hSurvived⟩

/-- And it can end with everything given put into some batch. -/
theorem exists_finished (plain : ∀ record ∈ records, record.Plain)
    (hDelivered : delivered events = (records.flatMap Record.scalars).take count)
    (hClosed : state.txn = none) (hStart : state.world = ⟨[], 0⟩) :
    ∃ after, Exec (step (populationEnv events choices)) sysdAddPackageInfo state () after ∧
      Survived choices (given records count) after.world := by
  have hKept : Survived choices [] state.world := hStart ▸ ⟨rfl, rfl⟩
  have hSafe : Safe (step (populationEnv events choices).accepting) Disciplined sysdAddPackageInfo
      (fun _ after => Survived choices (given records count) after.world) state := by
    refine safe_openVersionDetail.mpr ⟨trivial, ?_⟩
    rintro _ rfl
    change Safe _ _ (parseEvents events .initial >>= commitLastBatch) _ _
    rw [parseEvents_eq_parseScalars, hDelivered]
    refine (betweenRecords_start hClosed hKept).safe_given (populationEnv_keeps events choices).accepting
      (fun _ _ => id) plain count ?_ fun after hAfter => hAfter
    exact fun _ _ _ _ _ _ hRow => hRow.2.1.elim
  obtain ⟨result, after, hExec, hSurvived⟩ := hSafe.exec (step_total (populationEnv_total _ _).accepting)
  exact ⟨after, hExec.widen step_accepting, hSurvived⟩

/-- And, where rows may be refused in a batch, with what the batches before it
have left. -/
theorem exists_refused (plain : ∀ record ∈ records, record.Plain)
    (hDelivered : delivered events = (records.flatMap Record.scalars).take count)
    (hClosed : state.txn = none) (hStart : state.world = ⟨[], 0⟩) {batch : Nat}
    (hBatch : batch < batchesOf (given records count).length)
    (hRefuses : choices.refuses batch = true) :
    ∃ before rest after, given records count = before ++ rest ∧
      before.length = batch * pkgInfoEntriesPerCommit ∧ rest ≠ [] ∧
      Exec (step (populationEnv events choices)) sysdAddPackageInfo state () after ∧
      Survived choices before after.world := by
  have hSmall : batch * pkgInfoEntriesPerCommit < (given records count).length := by
    unfold batchesOf pkgInfoEntriesPerCommit at *
    omega
  have hSplit := List.take_append_drop (batch * pkgInfoEntriesPerCommit) (given records count)
  rw [List.drop_eq_getElem_cons hSmall] at hSplit
  have hLength : ((given records count).take (batch * pkgInfoEntriesPerCommit)).length =
      batch * pkgInfoEntriesPerCommit := List.length_take_of_le (Nat.le_of_lt hSmall)
  generalize (given records count).take (batch * pkgInfoEntriesPerCommit) = before at *
  obtain ⟨hBefore, record, hRecord, rest, hTake⟩ := take_scalars_before hSplit.symm
  have hFull : before.length % pkgInfoEntriesPerCommit = 0 := by
    rw [hLength, Nat.mul_mod_left]
  -- the batches before this one are populated without a refusal
  have hReach : Safe (step (populationEnv events choices).accepting) Disciplined
      (parseScalars (before.flatMap Record.scalars) .initial)
      (fun result after => ∃ parser, result = some parser ∧
        BetweenRecords (Survived choices) before parser after) state := by
    have hKept : Survived choices [] state.world := hStart ▸ ⟨rfl, rfl⟩
    rw [← bind_done (parseScalars _ _), ← List.append_nil (before.flatMap _)]
    refine (betweenRecords_start hClosed hKept).safe_records
      (populationEnv_keeps events choices).accepting (fun _ _ => id)
      (fun record hRecord => plain record (hBefore record hRecord)) [] ?_ ?_
    · exact fun _ _ _ _ _ _ hRow => hRow.2.1.elim
    · exact fun parser after h => ⟨parser, rfl, h⟩
  obtain ⟨result, middle, hExec, parser, rfl, hMiddle⟩ :=
    hReach.exec (step_total (populationEnv_total _ _).accepting)
  obtain ⟨hCount, hState, hSurvived⟩ := hMiddle.boundary hFull
  have hFails : (populationEnv events choices).insertFails middle.world .packageInfo := by
    change choices.refuses middle.world.commits = true
    rw [hSurvived.commits, batchesOf_full hFull, hLength, Nat.mul_div_cancel _ (by decide)]
    exact hRefuses
  have hPkg : ∀ key, key ≠ .value → record.pkg ≠ Key.str key :=
    plain record hRecord record.pkg List.mem_cons_self
  obtain ⟨after, hRefused, hWorld⟩ := exec_refused hPkg (hCount ▸ hFull) hState hFails rest
  refine ⟨before, _ :: _, after, hSplit.symm, hLength, List.cons_ne_nil _ _, ?_, ?_⟩
  · refine .call ⟨rfl, rfl⟩ ?_
    change Exec _ (parseEvents events .initial >>= commitLastBatch) _ _ _
    rw [parseEvents_eq_parseScalars, hDelivered, hTake, parseScalars_append, bind_assoc]
    exact (hExec.widen step_accepting).bind hRefused
  · exact hWorld ▸ hSurvived

/-- The table is filled completely or left empty, in every population of a
document, exactly where the outcomes are consistent. -/
theorem allOrNothing_iff_consistent (plain : ∀ record ∈ records, record.Plain)
    (hDelivered : delivered events = (records.flatMap Record.scalars).take count)
    (hClosed : state.txn = none) (hStart : state.world = ⟨[], 0⟩) :
    (∀ after, Exec (step (populationEnv events choices)) sysdAddPackageInfo state () after →
      AllOrNothing records after.world.table) ↔ Consistent choices records count := by
  have hGiven : (given records count).length ≤ records.length := given_length_le records count
  constructor
  · intro hAll
    refine ⟨?_, fun batch hBatch hRefuses => ?_⟩
    · obtain ⟨after, hExec, hSurvived⟩ := exists_finished plain hDelivered hClosed hStart
      have hTable := hAll after hExec
      rw [AllOrNothing, hSurvived.table, survivors_eq_nil_iff] at hTable
      refine hTable.symm.imp_right fun hWhole => ?_
      have hLength : (survivors choices (given records count)).length = records.length := by
        rw [hWhole, List.length_map]
      have hApplied := applied_of_length (Nat.le_antisymm survivors_length_le (hLength ▸ hGiven))
      exact ⟨hApplied, (survivors_of_applied hApplied).symm.trans hWhole⟩
    · obtain ⟨before, rest, after, hSplit, hLength, hRest, hExec, hSurvived⟩ :=
        exists_refused plain hDelivered hClosed hStart hBatch hRefuses
      have hNone := (hSurvived.split_allOrNothing hSplit hRest hGiven).mp (hAll after hExec)
      intro earlier hEarlier
      refine hNone earlier ?_
      rw [hLength]
      unfold batchesOf pkgInfoEntriesPerCommit
      omega
  · intro hConsistent after hExec
    cases (safe_iff.mp (safe_population plain hDelivered hClosed hStart)).2 _ _ hExec with
    | finished hSurvived =>
        rw [AllOrNothing, hSurvived.table, survivors_eq_nil_iff]
        refine hConsistent.commits.symm.imp_left fun hWhole => ?_
        exact (survivors_of_applied hWhole.1).trans hWhole.2
    | @refused before rest hSplit hRest hFull hRefuses hSurvived =>
        refine (hSurvived.split_allOrNothing hSplit hRest hGiven).mpr fun earlier hEarlier => ?_
        have hLength := congrArg List.length hSplit
        have hPositive := List.length_pos_iff.mpr hRest
        rw [List.length_append] at hLength
        rw [batchesOf_full hFull] at hEarlier
        refine hConsistent.refusals _ (lt_batchesOf_iff.mpr ⟨before.length, ?_, rfl⟩) hRefuses
          earlier hEarlier
        omega

end Outcomes

/-- Commits are applied, and rows are accepted. -/
def Choices.allWell : Choices where
  applied _ := true
  refuses _ := false

/-- A document of two records that breaks off after the first. -/
def brokenEvents : List YamlEvent :=
  ((sampleRecords.flatMap Record.scalars).take scalarsPerRecord).map .scalar

theorem brokenEvents_allOrNothing_iff :
    (∀ after, Exec (step (populationEnv brokenEvents .allWell)) sysdAddPackageInfo
      (State.boot ⟨[], 0⟩) () after → AllOrNothing sampleRecords after.world.table) ↔
      Consistent .allWell sampleRecords scalarsPerRecord :=
  allOrNothing_iff_consistent sampleRecords_plain rfl rfl rfl

/-- The row of the first record stays, and no later pass completes the table. -/
theorem brokenEvents_incomplete :
    ¬ ∀ after, Exec (step (populationEnv brokenEvents .allWell)) sysdAddPackageInfo
      (State.boot ⟨[], 0⟩) () after → AllOrNothing sampleRecords after.world.table := by
  intro hAll
  obtain ⟨after, hExec, hSurvived⟩ := @exists_finished brokenEvents .allWell sampleRecords
    scalarsPerRecord (State.boot ⟨[], 0⟩) sampleRecords_plain rfl rfl rfl
  have hTable : after.world.table.length = 1 := by rw [hSurvived.table]; rfl
  rcases hAll after hExec with hWhole | hNone
  · rw [hWhole] at hTable
    exact absurd hTable (by decide)
  · rw [hNone] at hTable
    exact absurd hTable (by decide)
end OpsSysd.Daemon
