import OpsSysd.Daemon.PackageInfo
import OpsSysd.Idl.Discipline

/-! What the package parser commits for a document of complete records. Between
two records the open transaction, if there is one, holds the records since the
last full batch. -/
namespace OpsSysd.Daemon

open CLib Interaction Interaction.Program Idl

/-- A record of the document: the value under each key. -/
structure Record where
  pkg : CString
  pv : CString
  srcRev : CString
  srcUrl : CString
  type : CString

namespace Record

def values (record : Record) : List CString :=
  [record.pkg, record.pv, record.srcRev, record.srcUrl, record.type]

/-- The record's scalars, keys included. -/
def scalars (record : Record) : List CString :=
  [Key.pkg.str, record.pkg, Key.pv.str, record.pv, Key.srcRev.str, record.srcRev,
    Key.srcUrl.str, record.srcUrl, Key.type.str, record.type]

/-- No value is a key word. -/
def Plain (record : Record) : Prop :=
  ∀ value ∈ record.values, ∀ key, key ≠ .value → value ≠ Key.str key

def version (record : Record) : CString :=
  if record.srcRev = .lit "INVALID" then record.pv else record.srcRev

end Record

/-- The columns of a Package_Info row. -/
structure Package where
  name : CString
  version : CString
  srcUrl : CString
  srcType : CString

def Record.package (record : Record) : Package where
  name := record.pkg
  version := record.version
  srcUrl := record.srcUrl
  srcType := record.type

def packageOf (row : Row) : Package where
  name := row.cells .packageInfoName
  version := row.cells .packageInfoVersion
  srcUrl := row.cells .packageInfoSrcUrl
  srcType := row.cells .packageInfoSrcType

/-- The packages that a transaction adds. -/
def packagesOf (ops : List Op) : List Package :=
  ((applyOps [] ops).rows .packageInfo).map packageOf

/-- There is a package for each inserted row. -/
theorem packagesOf_length (ops : List Op) :
    (packagesOf ops).length = (insertions .packageInfo ops).length := by
  have hIds := ids_applyOps [] ops .packageInfo
  have hLength := congrArg List.length hIds
  simpa [Database.ids, Database.rows, packagesOf] using hLength

section Scalars

def scalarsOf (events : List YamlEvent) : List CString :=
  events.filterMap fun event =>
    match event with
    | .scalar value => some value
    | _ => none

/-- A document of records: its scalars up to the end of the stream are theirs. -/
def DocumentOf (events : List YamlEvent) (records : List Record) : Prop :=
  ∃ before after, events = before ++ .streamEnd :: after ∧ .streamEnd ∉ before ∧
    scalarsOf before = records.flatMap Record.scalars

/-- The event loop sees the scalars only. -/
def parseScalars : List CString → PackageParser → Program Calls (Option PackageParser)
  | [], parser => return some parser
  | value :: rest, parser => handleScalar value parser >>= unlessReturned (parseScalars rest)

/-- The scalars before the end of the stream. -/
def delivered (events : List YamlEvent) : List CString :=
  scalarsOf (events.takeWhile (· ≠ .streamEnd))

/-- The parser sees the scalars up to the end of the stream. -/
theorem parseEvents_eq_parseScalars (events : List YamlEvent) (parser : PackageParser) :
    parseEvents events parser = parseScalars (delivered events) parser := by
  induction events generalizing parser with
  | nil => rfl
  | cons event events ih =>
      cases event with
      | streamEnd => rfl
      | other => exact ih parser
      | scalar value =>
          have hNext : parseEvents events = parseScalars (delivered events) := funext ih
          rw [parseEvents, hNext]
          rfl

/-- Nothing is delivered after it. -/
theorem delivered_append (before after : List YamlEvent) (h : .streamEnd ∉ before) :
    delivered (before ++ .streamEnd :: after) = scalarsOf before := by
  have hBefore : ∀ event ∈ before, decide (event ≠ YamlEvent.streamEnd) = true :=
    fun event hEvent => decide_eq_true fun hEnd => h (hEnd ▸ hEvent)
  rw [delivered, List.takeWhile_append_of_pos hBefore]
  simp

/-- A key is recognised. -/
theorem checkKey_str {key : Key} (h : key ≠ .value) :
    packageInfoMappingCheckKey key.str = key := by
  cases key with
  | value => exact absurd rfl h
  | _ => rfl

/-- A plain value is none. -/
theorem checkKey_plain {value : CString} (h : ∀ key, key ≠ .value → value ≠ Key.str key) :
    packageInfoMappingCheckKey value = .value := by
  rw [packageInfoMappingCheckKey, List.find?_eq_none.mpr]
  · rfl
  · intro key hKey hSame
    refine h key ?_ ((streq_iff _ _).mp hSame).symm
    rintro rfl
    simp at hKey

/-- A key only changes what is expected next. -/
theorem handleScalar_key {key : Key} (h : key ≠ .value) (parser : PackageParser) :
    handleScalar key.str parser = .done (some { parser with currentState := key }) := by
  rw [handleScalar, checkKey_str h]
  cases key with
  | value => exact absurd rfl h
  | _ => rfl

/-- A value is handled by what is expected. -/
theorem handleScalar_value {value : CString} (h : ∀ key, key ≠ .value → value ≠ Key.str key)
    (parser : PackageParser) : handleScalar value parser = handleValue value parser := by
  rw [handleScalar, checkKey_plain h]

/-- A key word followed by a plain value. -/
theorem parseScalars_pair (key : Key) (hKey : key ≠ .value) {value : CString}
    (hValue : ∀ key, key ≠ .value → value ≠ Key.str key) (rest : List CString)
    (parser : PackageParser) :
    parseScalars (key.str :: value :: rest) parser =
      handleValue value { parser with currentState := key } >>= unlessReturned (parseScalars rest) := by
  rw [parseScalars, handleScalar_key hKey, done_bind, unlessReturned, parseScalars,
    handleScalar_value hValue]

end Scalars

section Rows

/-- A row id that the open transaction has not handed out. -/
def Unused (ops : List Op) (id : RowId) : Prop := ∀ row ∈ applyOps [] ops, row.id ≠ id

/-- The columns set for a record, in order. -/
def Record.cells (record : Record) : Cells :=
  [⟨.packageInfoName, record.pkg⟩, ⟨.packageInfoVersion, record.pv⟩] ++
  (if record.srcRev = .lit "INVALID" then [] else [⟨.packageInfoVersion, record.srcRev⟩]) ++
  [⟨.packageInfoSrcUrl, record.srcUrl⟩, ⟨.packageInfoSrcType, record.type⟩]

/-- A row with the record's cells is the record's package. -/
theorem packageOf_cells (row : Row) (record : Record) :
    packageOf (row.setAll record.cells) = record.package := by
  by_cases hInvalid : record.srcRev = .lit "INVALID" <;>
    simp [Record.cells, hInvalid, Row.setAll, packageOf, Row.set, Function.update, Record.package,
      Record.version]

/-- What the parser asks for while it reads one record. -/
def recordOps (id : RowId) (record : Record) : List Op :=
  .insert id .packageInfo :: writeAll id record.cells

/-- A row inserted under an unused id adds one package. -/
theorem packagesOf_row {ops : List Op} {id : RowId} (hUnused : Unused ops id) (cells : Cells) :
    packagesOf (ops ++ .insert id .packageInfo :: writeAll id cells) =
      packagesOf ops ++ [packageOf ((Row.fresh id .packageInfo).setAll cells)] := by
  have hRow : applyOps [] (ops ++ .insert id .packageInfo :: writeAll id cells) =
      applyOps [] ops ++ [(Row.fresh id .packageInfo).setAll cells] := by
    rw [applyOps_append]
    exact @applyOps_writeAll _ (Row.fresh id .packageInfo) hUnused cells
  have hTable : ((Row.fresh id .packageInfo).setAll cells).table = .packageInfo :=
    Row.setAll_table _ _
  rw [packagesOf, hRow, Database.rows, List.filter_append, List.map_append,
    List.filter_cons_of_pos (by simpa using hTable), List.filter_nil, List.map_singleton]
  rfl

/-- The operations for a record add its package. -/
theorem packagesOf_record {ops : List Op} {id : RowId} (hUnused : Unused ops id) (record : Record) :
    packagesOf (ops ++ recordOps id record) = packagesOf ops ++ [record.package] := by
  rw [recordOps, packagesOf_row hUnused, packageOf_cells]

end Rows

section Batches

variable {World : Type} {env : Environment World} {kept : List Record → World → Prop}
  {parser : PackageParser} {state : State World}

/-- A commit adds a batch to what is kept; every batch before it was full. -/
structure Keeps (env : Environment World) (kept : List Record → World → Prop) : Prop where
  commit {records pending : List Record} {world world' : World} {link link' : Link}
    {ops : List Op} {status : TxnStatus} (hKept : kept records world)
    (hFull : records.length % pkgInfoEntriesPerCommit = 0) (hNonempty : pending ≠ [])
    (hShort : pending.length ≤ pkgInfoEntriesPerCommit)
    (hOps : packagesOf ops = pending.map Record.package)
    (hCommit : env.commit world link ops status world' link') : kept (records ++ pending) world'

/-- The row of the next record has been refused. -/
def Refused (env : Environment World) (kept : List Record → World → Prop) (records : List Record)
    (txn : TxnId) (state : State World) : Prop :=
  state.Opened txn ∧ env.insertFails state.world .packageInfo ∧
    ∃ committed pending, records = committed ++ pending ∧
      committed.length % pkgInfoEntriesPerCommit = 0 ∧ pending.length < pkgInfoEntriesPerCommit ∧
      kept committed state.world

/-- What the IDL's rules allow is permitted. -/
def Permits (permitted : State World → Request → Prop) : Prop :=
  ∀ state request, Disciplined state request → permitted state request

/-- The records of the open batch. -/
inductive Pending (parser : PackageParser) (state : State World) : List Record → Prop where
  | closed (hParser : parser.txn = none) (hState : state.txn = none) : Pending parser state []
  | opened {txn : TxnId} {ops : List Op} {pending : List Record} (hParser : parser.txn = some txn)
      (hState : state.txn = some ⟨txn, ops⟩) (hNonempty : pending ≠ [])
      (hOps : packagesOf ops = pending.map Record.package) : Pending parser state pending

/-- What holds between two records. -/
def BetweenRecords (kept : List Record → World → Prop) (records : List Record) (parser : PackageParser)
    (state : State World) : Prop :=
  ∃ committed pending, records = committed ++ pending ∧ parser.recordCount = records.length ∧
    committed.length % pkgInfoEntriesPerCommit = 0 ∧ pending.length < pkgInfoEntriesPerCommit ∧
    kept committed state.world ∧ Pending parser state pending

/-- A record has been begun: its row is in the open transaction. -/
structure Begun (kept : List Record → World → Prop) (committed pending : List Record) (ops : List Op)
    (row : RowId) (cells : Cells) (parser : PackageParser) (state : State World) : Prop where
  count : parser.recordCount = committed.length + pending.length
  full : committed.length % pkgInfoEntriesPerCommit = 0
  short : pending.length < pkgInfoEntriesPerCommit
  committed : kept committed state.world
  packages : packagesOf ops = pending.map Record.package
  unused : Unused ops row
  parserRow : parser.row = some row
  opened : ∃ txn, parser.txn = some txn ∧
    state.txn = some ⟨txn, ops ++ .insert row .packageInfo :: writeAll row cells⟩

variable {committed pending : List Record} {ops : List Op} {row : RowId} {cells : Cells}
  {Result : Type} {post : Result → State World → Prop}
  {permitted : State World → Request → Prop} {next : Option PackageParser → Program Calls Result}

/-- A row that is not seen is not used. -/
theorem unused_of_fresh {txn : TxnId} (hState : state.txn = some ⟨txn, ops⟩)
    (hFresh : ∀ existing ∈ state.view, existing.id ≠ row) : Unused ops row := by
  intro own hOwn hId
  have hInserted : row ∈ insertions own.table ops := by
    have hIds := ids_applyOps [] ops own.table
    have hMem : own.id ∈ (applyOps [] ops).ids own.table :=
      List.mem_map_of_mem (List.mem_filter.mpr ⟨hOwn, decide_eq_true rfl⟩)
    rwa [hIds, hId] at hMem
  have hView : row ∈ state.view.ids own.table := by
    rw [State.view, hState]
    exact ids_applyOps state.link.replica ops own.table ▸ List.mem_append_right _ hInserted
  obtain ⟨existing, hExisting, hSame⟩ := List.mem_map.mp hView
  exact hFresh existing (List.mem_of_mem_filter hExisting) hSame

theorem Begun.of_key (h : Begun kept committed pending ops row cells parser state) (key : Key) :
    Begun kept committed pending ops row cells { parser with currentState := key } state :=
  { h with }

theorem Begun.disciplined (h : Begun kept committed pending ops row cells parser state)
    (column : Column) (arg : column.Arg) : Disciplined state (.write row column arg) := by
  obtain ⟨txn, -, hState⟩ := h.opened
  exact fun hNone => nomatch hState.symm.trans hNone

/-- One more column of the record's row. -/
theorem Begun.safe_set (h : Begun kept committed pending ops row cells parser state)
    (permits : Permits permitted) (column : Column) (arg : column.Arg)
    {next : Unit → Program Calls Result} (hNext : ∀ value state', column.shape.Stored arg value →
      Begun kept committed pending ops row (cells ++ [⟨column, value⟩]) parser state' →
      Safe (step env) permitted (next ()) post state') :
    Safe (step env) permitted (.call (.write row column arg) next) post state := by
  obtain ⟨txn, hParser, hState⟩ := h.opened
  refine safe_write_open hState (permits _ _ (h.disciplined column arg)) fun value hValue => ?_
  refine hNext value _ hValue { h with opened := ⟨txn, hParser, ?_⟩ }
  simp [writeAll]

/-- `case PKG`: a new batch is opened for the first record and for every one
after a full batch. -/
theorem BetweenRecords.safe_pkg {records : List Record} (h : BetweenRecords kept records parser state)
    (permits : Permits permitted) (value : CString)
    (hRefused : ∀ txn state, Refused env kept records txn state →
      Safe (step env) permitted (txnDestroy txn >>= fun _ => next none) post state)
    (hNext : ∀ committed pending ops row parser state, records = committed ++ pending →
      Begun kept committed pending ops row [⟨.packageInfoName, value⟩] parser state →
      Safe (step env) permitted (next (some parser)) post state) :
    Safe (step env) permitted
      (handleValue value { parser with currentState := .pkg } >>= next) post state := by
  obtain ⟨committed, pending, hRecords, hCount, hFull, hShort, hCommitted, hPending⟩ := h
  have hInsert : ∀ (txn : TxnId) (ops : List Op) (state : State World),
      state.txn = some ⟨txn, ops⟩ → kept committed state.world →
      packagesOf ops = pending.map Record.package →
      Safe (step env) permitted
        (insertPackage value txn { parser with currentState := .pkg, txn := some txn } >>= next)
        post state := by
    intro txn ops state hState hWorld hOps
    have hOpened : state.Opened txn := ⟨_, hState, rfl⟩
    refine safe_insert_open hState (permits _ _ hOpened) (fun hFails => ?_) fun row hFresh => ?_
    · exact hRefused txn state
        ⟨hOpened, hFails, committed, pending, hRecords, hFull, hShort, hWorld⟩
    refine safe_write_open (State.push_txn _ _ _) (permits _ _ (by simp [Disciplined])) ?_
    rintro _ rfl
    have hUnused := unused_of_fresh hState hFresh
    refine hNext committed pending ops row _ _ hRecords ?_
    exact ⟨by rw [hCount, hRecords, List.length_append], hFull, hShort, hWorld, hOps, hUnused, rfl,
      txn, rfl, by simp [writeAll]⟩
  have hMod : parser.recordCount % pkgInfoEntriesPerCommit = pending.length := by
    rw [hCount, hRecords, List.length_append]
    unfold pkgInfoEntriesPerCommit at *
    omega
  change Safe _ _ (beginRecord value { parser with currentState := .pkg } >>= next) post state
  rw [beginRecord, hMod]
  cases hPending with
  | closed hParser hState =>
      rw [List.length_nil, if_pos rfl]
      refine safe_txnCreate.mpr ⟨permits _ _ hState, fun _ => ?_⟩
      exact hInsert state.nextTxn [] _ rfl hCommitted rfl
  | opened hParser hState hNonempty hOps =>
      rw [if_neg (fun h => hNonempty (List.eq_nil_of_length_eq_zero h)), hParser]
      exact hInsert _ _ state hState hCommitted hOps

/-- Any other key that sets a column of the record's row. -/
theorem Begun.safe_column (h : Begun kept committed pending ops row cells parser state)
    (permits : Permits permitted) (column : Column) (arg : column.Arg)
    (hNext : ∀ value parser state, column.shape.Stored arg value →
      Begun kept committed pending ops row (cells ++ [⟨column, value⟩]) parser state →
      Safe (step env) permitted (next (some parser)) post state) :
    Safe (step env) permitted
      (setColumn (write · column arg) parser >>= next) post state := by
  rw [setColumn, h.parserRow]
  exact h.safe_set permits column arg fun value state' hValue h' => hNext value parser state' hValue h'

/-- `case SRCREV`: the version is overridden unless the revision is invalid. -/
theorem Begun.safe_srcRev (h : Begun kept committed pending ops row cells parser state)
    (permits : Permits permitted) (value : CString)
    (hNext : ∀ parser state, Begun kept committed pending ops row
        (cells ++ if value = .lit "INVALID" then [] else [⟨.packageInfoVersion, value⟩]) parser state →
      Safe (step env) permitted (next (some parser)) post state) :
    Safe (step env) permitted
      (handleValue value { parser with currentState := .srcRev } >>= next) post state := by
  by_cases hInvalid : value = .lit "INVALID"
  · have hSkip : handleValue value { parser with currentState := .srcRev } =
        .done (some { parser with currentState := .srcRev }) := if_pos ((streq_iff _ _).mpr hInvalid)
    rw [hSkip]
    refine hNext _ state ?_
    rw [if_pos hInvalid, List.append_nil]
    exact h.of_key .srcRev
  · have hSet : handleValue value { parser with currentState := .srcRev } =
        setColumn (write · .packageInfoVersion value) { parser with currentState := .srcRev } :=
      if_neg fun hSame => hInvalid ((streq_iff _ _).mp hSame)
    rw [hSet]
    refine (h.of_key .srcRev).safe_column permits .packageInfoVersion value ?_
    rintro _ parser state rfl h'
    refine hNext parser state ?_
    rwa [if_neg hInvalid]

/-- `case TYPE`: the record is complete, and so perhaps is the batch. -/
theorem Begun.safe_type {record : Record}
    (h : Begun kept committed pending ops row cells parser state) (keeps : Keeps env kept)
    (permits : Permits permitted) (value : CString)
    (hCells : cells ++ [⟨.packageInfoSrcType, value⟩] = record.cells)
    (hNext : ∀ parser state, BetweenRecords kept (committed ++ pending ++ [record]) parser state →
      Safe (step env) permitted (next (some parser)) post state) :
    Safe (step env) permitted (endRecord value parser >>= next) post state := by
  rw [endRecord, h.parserRow]
  refine h.safe_set permits .packageInfoSrcType value ?_
  rintro _ state' rfl h'
  rw [hCells] at h'
  obtain ⟨txn, hParser, hState⟩ := h'.opened
  have hPackages : packagesOf (ops ++ recordOps row record) =
      (pending ++ [record]).map Record.package := by
    rw [packagesOf_record h'.unused, h'.packages, List.map_append, List.map_singleton]
  have hCount : parser.recordCount + 1 = (committed ++ (pending ++ [record])).length := by
    simp [h'.count, Nat.add_assoc]
  have hFull := h'.full
  have hShort := h'.short
  by_cases hBatch : (parser.recordCount + 1) % pkgInfoEntriesPerCommit = 0
  · rw [if_pos hBatch, hParser]
    have hLast : pending.length + 1 = pkgInfoEntriesPerCommit := by
      rw [h'.count] at hBatch
      unfold pkgInfoEntriesPerCommit at *
      omega
    refine safe_commit_open hState (permits _ _ ⟨_, hState, rfl⟩) ?_
    intro status world link hCommit
    refine safe_txnDestroy.mpr ⟨permits _ _ ?_, ?_⟩
    · rintro ⟨current, hCurrent, -⟩
      cases hCurrent
    refine hNext _ _ ⟨committed ++ (pending ++ [record]), [], ?_, ?_, ?_, ?_, ?_, .closed rfl rfl⟩
    · simp
    · simpa using hCount
    · rw [List.length_append, List.length_append, List.length_singleton, hLast, Nat.add_mod_right]
      exact hFull
    · exact Nat.lt_of_le_of_lt (Nat.zero_le _) hShort
    · exact keeps.commit h'.committed hFull (by simp) (by simpa using Nat.succ_le_of_lt hShort)
        hPackages hCommit
  · rw [if_neg hBatch]
    refine hNext _ _ ⟨committed, pending ++ [record], ?_, ?_, hFull, ?_, h'.committed, ?_⟩
    · simp
    · simpa using hCount
    · rw [h'.count] at hBatch
      rw [List.length_append, List.length_singleton]
      unfold pkgInfoEntriesPerCommit at *
      omega
    · exact .opened hParser hState (by simp) hPackages

/-- One record, read between two others. -/
theorem BetweenRecords.safe_record {records : List Record} {record : Record}
    (h : BetweenRecords kept records parser state) (keeps : Keeps env kept)
    (permits : Permits permitted) (plain : record.Plain) (rest : List CString)
    {after : Option PackageParser → Program Calls Result}
    (hRefused : ∀ txn state, Refused env kept records txn state →
      Safe (step env) permitted (txnDestroy txn >>= fun _ => after none) post state)
    (hNext : ∀ parser state, BetweenRecords kept (records ++ [record]) parser state →
      Safe (step env) permitted (parseScalars rest parser >>= after) post state) :
    Safe (step env) permitted
      (parseScalars (record.scalars ++ rest) parser >>= after) post state := by
  have hPlain : ∀ value ∈ record.values, ∀ key, key ≠ .value → value ≠ Key.str key := plain
  simp only [Record.values, List.mem_cons, List.not_mem_nil, or_false, forall_eq_or_imp,
    forall_eq] at hPlain
  obtain ⟨hPkg, hPv, hSrcRev, hSrcUrl, hType⟩ := hPlain
  simp only [Record.scalars, List.cons_append, List.nil_append]
  rw [parseScalars_pair .pkg nofun hPkg, bind_assoc]
  refine h.safe_pkg permits record.pkg hRefused ?_
  intro committed pending ops row parser state hRecords hBegun
  subst hRecords
  simp only [unlessReturned]
  rw [parseScalars_pair .pv nofun hPv, bind_assoc]
  refine (hBegun.of_key .pv).safe_column permits .packageInfoVersion record.pv ?_
  rintro _ parser state rfl hBegun
  simp only [unlessReturned]
  rw [parseScalars_pair .srcRev nofun hSrcRev, bind_assoc]
  refine hBegun.safe_srcRev permits record.srcRev fun parser state hBegun => ?_
  simp only [unlessReturned]
  rw [parseScalars_pair .srcUrl nofun hSrcUrl, bind_assoc]
  refine (hBegun.of_key .srcUrl).safe_column permits .packageInfoSrcUrl record.srcUrl ?_
  rintro _ parser state rfl hBegun
  simp only [unlessReturned]
  rw [parseScalars_pair .type nofun hType, bind_assoc]
  exact (hBegun.of_key .type).safe_type keeps permits record.type (by simp [Record.cells]) hNext

/-- A document's records one after the other, and what follows them. -/
theorem BetweenRecords.safe_records {done records : List Record}
    (h : BetweenRecords kept done parser state) (keeps : Keeps env kept) (permits : Permits permitted)
    (plain : ∀ record ∈ records, record.Plain) (rest : List CString)
    {after : Option PackageParser → Program Calls Result}
    (hRefused : ∀ before record later, records = before ++ record :: later →
      ∀ txn state, Refused env kept (done ++ before) txn state →
        Safe (step env) permitted (txnDestroy txn >>= fun _ => after none) post state)
    (hNext : ∀ parser state, BetweenRecords kept (done ++ records) parser state →
      Safe (step env) permitted (parseScalars rest parser >>= after) post state) :
    Safe (step env) permitted
      (parseScalars (records.flatMap Record.scalars ++ rest) parser >>= after) post state := by
  induction records generalizing done parser state with
  | nil => exact hNext parser state (by simpa using h)
  | cons record records ih =>
      have hFirst : ∀ txn state, Refused env kept done txn state →
          Safe (step env) permitted (txnDestroy txn >>= fun _ => after none) post state := by
        intro txn state hRow
        exact hRefused [] record records rfl txn state (by rwa [List.append_nil])
      rw [List.flatMap_cons, List.append_assoc]
      refine h.safe_record keeps permits (plain record List.mem_cons_self) _ hFirst ?_
      intro parser state h'
      refine ih h' (fun later hLater => plain later (List.mem_cons_of_mem _ hLater)) ?_ ?_
      · intro before next later hSplit txn state hRow
        refine hRefused (record :: before) next later (by rw [hSplit]; rfl) txn state ?_
        simpa using hRow
      · intro parser state hAll
        exact hNext parser state (by simpa using hAll)

/-- The last batch, if it is not empty, is committed as well. -/
theorem BetweenRecords.safe_commitLastBatch {records : List Record}
    (h : BetweenRecords kept records parser state) (keeps : Keeps env kept)
    (permits : Permits permitted) :
    Safe (step env) permitted (commitLastBatch (some parser))
      (fun _ after => after.txn = none ∧ kept records after.world) state := by
  obtain ⟨committed, pending, rfl, -, hFull, hShort, hCommitted, hPending⟩ := h
  rw [commitLastBatch]
  cases hPending with
  | closed hParser hState =>
      rw [hParser]
      exact ⟨hState, by simpa using hCommitted⟩
  | opened hParser hState hNonempty hOps =>
      rw [hParser]
      refine safe_commit_open hState (permits _ _ ⟨_, hState, rfl⟩) ?_
      intro status world link hCommit
      have hKept := keeps.commit hCommitted hFull hNonempty (Nat.le_of_lt hShort) hOps hCommit
      refine safe_txnDestroy.mpr ⟨permits _ _ ?_, rfl, hKept⟩
      rintro ⟨current, hCurrent, -⟩
      cases hCurrent

/-- Before the first record nothing is pending. -/
theorem betweenRecords_start (hClosed : state.txn = none) (hKept : kept [] state.world) :
    BetweenRecords kept [] .initial state :=
  ⟨[], [], rfl, rfl, rfl, by decide, hKept, .closed rfl hClosed⟩

/-- A document of complete records leaves no transaction open. -/
theorem safe_parseDocument (keeps : Keeps env kept)
    (hInserts : ∀ world, ¬ env.insertFails world .packageInfo) {events : List YamlEvent}
    {records : List Record} (hDocument : DocumentOf events records)
    (plain : ∀ record ∈ records, record.Plain) (hClosed : state.txn = none)
    (hKept : kept [] state.world) :
    Safe (step env) Disciplined (parseEvents events .initial >>= commitLastBatch)
      (fun _ after => after.txn = none ∧ kept records after.world) state := by
  obtain ⟨before, after, rfl, hBefore, hScalars⟩ := hDocument
  rw [parseEvents_eq_parseScalars, delivered_append before after hBefore, hScalars,
    ← List.append_nil (records.flatMap _)]
  have permits : Permits (Disciplined : State World → Request → Prop) := fun _ _ => id
  refine (betweenRecords_start hClosed hKept).safe_records keeps permits plain [] ?_ ?_
  · exact fun _ _ _ _ _ state hRow => absurd hRow.2.1 (hInserts state.world)
  · exact fun parser state h => h.safe_commitLastBatch keeps permits

end Batches

/-- A world that remembers the committed transactions, in which every commit
and every insertion succeeds. -/
def packageEnv (events : List YamlEvent) : Environment (List (List Op)) where
  run world _ world' _ := world' = world
  commit world _ ops status world' _ := status = .success ∧ world' = world ++ [ops]
  insertFails _ _ := False
  discards _ _ _ _ := True
  symlinkFails _ _ := True
  osRelease _ _ := True
  versionDetail _ answer := answer = some events

/-- Since the start, exactly these records have been committed, in batches. -/
def Committed (start : List (List Op)) (records : List Record) (world : List (List Op)) : Prop :=
  ∃ batches, world = start ++ batches ∧
    batches.flatMap packagesOf = records.map Record.package ∧
    ∀ batch ∈ batches, (insertions .packageInfo batch).length ≤ pkgInfoEntriesPerCommit

/-- A batch that is committed adds its records. -/
theorem Committed.add {start world : List (List Op)} {records pending : List Record} {ops : List Op}
    (h : Committed start records world) (hOps : packagesOf ops = pending.map Record.package)
    (hShort : pending.length ≤ pkgInfoEntriesPerCommit) :
    Committed start (records ++ pending) (world ++ [ops]) := by
  obtain ⟨batches, hWorld, hPackages, hBatches⟩ := h
  refine ⟨batches ++ [ops], by rw [hWorld, List.append_assoc], ?_, ?_⟩
  · rw [List.flatMap_append, hPackages, List.flatMap_singleton, hOps, List.map_append]
  · intro batch hBatch
    rcases List.mem_append.mp hBatch with hOld | hNew
    · exact hBatches batch hOld
    · rw [List.mem_singleton.mp hNew, ← packagesOf_length, hOps, List.length_map]
      exact hShort

/-- Here every batch is kept. -/
theorem packageEnv_keeps (events : List YamlEvent) (start : List (List Op)) :
    Keeps (packageEnv events) (Committed start) where
  commit hKept _ _ hShort hOps := by
    rintro ⟨rfl, rfl⟩
    exact hKept.add hOps hShort

theorem packageEnv_total (events : List YamlEvent) : (packageEnv events).Total where
  run world link := ⟨world, link, rfl⟩
  commit world link ops := ⟨.success, world ++ [ops], link, rfl, rfl⟩
  osRelease _ := ⟨none, trivial⟩
  versionDetail _ := ⟨some events, rfl⟩

/-- A document of complete records is committed record by record, in order, in
batches of bounded size, without breaking the IDL's rules; and the function
returns. -/
theorem sysdAddPackageInfo_commits (events : List YamlEvent) (records : List Record)
    (hDocument : DocumentOf events records) (plain : ∀ record ∈ records, record.Plain)
    (state : State (List (List Op))) (hClosed : state.txn = none) :
    Safe (step (packageEnv events)) Disciplined sysdAddPackageInfo
        (fun _ after => after.txn = none ∧ Committed state.world records after.world) state ∧
      ∃ after, Exec (step (packageEnv events)) sysdAddPackageInfo state () after := by
  have hSafe : Safe (step (packageEnv events)) Disciplined sysdAddPackageInfo
      (fun _ after => after.txn = none ∧ Committed state.world records after.world) state := by
    refine safe_openVersionDetail.mpr ⟨trivial, ?_⟩
    rintro _ rfl
    exact safe_parseDocument (packageEnv_keeps events state.world) (fun _ => id) hDocument plain
      hClosed ⟨[], by simp, rfl, nofun⟩
  obtain ⟨result, after, hExec, -⟩ := hSafe.exec (step_total (packageEnv_total events))
  exact ⟨hSafe, after, hExec⟩

/-- Two packages, the second of which has no revision. -/
def sampleRecords : List Record :=
  [⟨.lit "busybox", .lit "1.22", .lit "4f0e", .lit "git://busybox", .lit "git"⟩,
    ⟨.lit "bash", .lit "4.3", .lit "INVALID", .lit "ftp://bash", .lit "ftp"⟩]

def sampleEvents : List YamlEvent :=
  .other :: (sampleRecords.flatMap Record.scalars).map .scalar ++ [.other]

/-- None of their values is a key. -/
theorem sampleRecords_plain : ∀ record ∈ sampleRecords, record.Plain := by
  have hAll : ∀ record ∈ sampleRecords, ∀ value ∈ record.values,
      ∀ key ∈ [Key.pkg, .pv, .srcRev, .srcUrl, .type], value ≠ Key.str key := by decide
  intro record hRecord value hValue key hKey
  exact hAll record hRecord value hValue key (by cases key <;> simp at hKey ⊢)

/-- The document of the sample records. -/
theorem sampleDocument : DocumentOf (sampleEvents ++ [.streamEnd]) sampleRecords :=
  ⟨sampleEvents, [], rfl, by decide, rfl⟩

/-- Both packages are committed, in a run that there is. -/
theorem sampleRecords_committed :
    Safe (step (packageEnv (sampleEvents ++ [.streamEnd]))) Disciplined sysdAddPackageInfo
        (fun _ after => after.txn = none ∧ Committed [] sampleRecords after.world)
        (State.boot []) ∧
      ∃ after, Exec (step (packageEnv (sampleEvents ++ [.streamEnd]))) sysdAddPackageInfo
        (State.boot []) () after :=
  sysdAddPackageInfo_commits (sampleEvents ++ [.streamEnd]) sampleRecords sampleDocument
    sampleRecords_plain _ rfl

end OpsSysd.Daemon
