import OpsSysd.Idl.Building

/-! Transactions that stay with the rows they have inserted, and programs that
fill such a transaction. What these read of the database is either a row of
their own or a cell that has been declared before. -/
namespace OpsSysd.Idl

open CLib Interaction Interaction.Program

/-- The rows that a cell refers to. -/
def Shape.refs : (shape : Shape) → shape.Val → List RowId
  | .reference, row => row.toList
  | .references, rows => rows
  | .queueMap, queues => queues.map Prod.snd
  | .text, _ | .optionalText, _ | .integer, _ | .boolean, _ | .smap, _ | .integers, _
  | .booleans, _ => []

/-- The rows that a column of a known shape refers to. -/
theorem ColumnOf.refs_value {shape : Shape} (of : ColumnOf shape) (value : of.column.Val) :
    of.column.shape.refs value = shape.refs (of.value value) := by
  obtain ⟨column, rfl⟩ := of
  rfl

theorem Shape.refs_default (shape : Shape) : shape.refs shape.default = [] := by
  cases shape <;> rfl

/-- These requests insert the row. -/
def Inserts (ops : List Op) (row : RowId) : Prop := ∃ table, row ∈ insertions table ops

/-- Every write is to a row that these requests insert, and refers to such rows. -/
def SelfContained (ops : List Op) : Prop :=
  ∀ id column value, Op.write id column value ∈ ops →
    Inserts ops id ∧ ∀ ref ∈ column.shape.refs value, Inserts ops ref

section Requests

variable {ops : List Op} {row id : RowId} {table : Table}

/-- What is inserted by two runs of operations is inserted by one of them. -/
theorem inserts_append {more : List Op} :
    Inserts (ops ++ more) row ↔ Inserts ops row ∨ Inserts more row := by
  simp only [Inserts, insertions_append, List.mem_append, exists_or]

@[simp] theorem not_inserts_nil : ¬ Inserts [] row := fun ⟨_, h⟩ => List.not_mem_nil h

@[simp] theorem inserts_insert : Inserts [.insert id table] row ↔ row = id := by
  simp [Inserts, insertions, eq_comm]

@[simp] theorem not_inserts_write {column : Column} {value : column.Val} :
    ¬ Inserts [.write id column value] row := by
  simp [Inserts, insertions]

theorem selfContained_nil : SelfContained [] := fun _ _ _ h => absurd h List.not_mem_nil

/-- An insertion needs no other row. -/
theorem SelfContained.insert (h : SelfContained ops) :
    SelfContained (ops ++ [.insert id table]) := by
  intro target column value hWrite
  have hOld : Op.write target column value ∈ ops := by simpa using hWrite
  obtain ⟨hTarget, hRefs⟩ := h target column value hOld
  exact ⟨inserts_append.mpr (.inl hTarget), fun ref hRef => inserts_append.mpr (.inl (hRefs ref hRef))⟩

/-- A write keeps to a row of the transaction and refers to such rows. -/
theorem SelfContained.write (h : SelfContained ops) {column : Column} {value : column.Val}
    (hRow : Inserts ops id) (hRefs : ∀ ref ∈ column.shape.refs value, Inserts ops ref) :
    SelfContained (ops ++ [.write id column value]) := by
  intro target column' value' hWrite
  suffices hAll : Inserts ops target ∧ ∀ ref ∈ column'.shape.refs value', Inserts ops ref from
    ⟨inserts_append.mpr (.inl hAll.1), fun ref hRef => inserts_append.mpr (.inl (hAll.2 ref hRef))⟩
  rcases List.mem_append.mp hWrite with hOld | hNew
  · exact h target column' value' hOld
  · cases List.mem_singleton.mp hNew
    exact ⟨hRow, hRefs⟩

end Requests

section Effects

variable {db : Database} {ops : List Op} {row : RowId} {column : Column}

/-- Rows that exist are found before any that is inserted. -/
theorem get_insert_exists {id : RowId} {table : Table} (h : db.Exists row) :
    (Op.apply db (.insert id table)).get row column = db.get row column := by
  obtain ⟨found, hMem, hId⟩ := h
  have hSome : (db.find? fun other => other.id = row).isSome :=
    List.find?_isSome.mpr ⟨found, hMem, by simpa using hId⟩
  obtain ⟨first, hFirst⟩ := Option.isSome_iff_exists.mp hSome
  rw [Database.get, Database.get, Op.apply, List.find?_append, hFirst, Option.some_or]

/-- A transaction changes no cell but those it writes. -/
theorem extends_applyOps {touched : RowId → Column → Prop} (db : Database) (ops : List Op)
    (hWrites : ∀ id column value, Op.write id column value ∈ ops → db.Exists id → touched id column) :
    db.Extends touched (applyOps db ops) := by
  induction ops using List.reverseRecOn with
  | nil => exact .refl touched db
  | append_singleton ops op ih =>
      rw [applyOps_append]
      have hBefore := ih fun id column value h => hWrites id column value (List.mem_append_left _ h)
      cases op with
      | insert id table =>
          have hInsert : (applyOps db ops).Extends (fun _ _ => False)
              (Op.apply (applyOps db ops) (.insert id table)) :=
            ⟨fun other h => exists_insert.mpr (.inl h), fun other column h _ => get_insert_exists h⟩
          exact hBefore.trans hInsert fun _ _ _ hNever => hNever.elim
      | write id column value =>
          refine hBefore.trans (extends_write value) ?_
          rintro id' column' hOld ⟨rfl, rfl⟩
          exact hWrites id' column' value (List.mem_append_right _ List.mem_cons_self) hOld

/-- A transaction that stays with its own rows spares all others. -/
theorem SelfContained.spares (h : SelfContained ops)
    (hFresh : ∀ row, Inserts ops row → ¬ db.Exists row) :
    db.Extends (fun _ _ => False) (applyOps db ops) :=
  extends_applyOps db ops fun id column value hWrite hOld => hFresh id (h id column value hWrite).1 hOld

/-- After the operations the rows are those there before and the inserted ones. -/
theorem exists_applyOps : (applyOps db ops).Exists row ↔ db.Exists row ∨ Inserts ops row := by
  have hIds : ∀ db : Database, db.Exists row ↔ ∃ table, row ∈ db.ids table := by
    intro db
    refine ⟨fun ⟨found, hMem, hId⟩ => ⟨found.table, hId ▸ List.mem_map_of_mem ?_⟩, ?_⟩
    · exact Database.mem_rows.mpr ⟨hMem, rfl⟩
    · rintro ⟨table, hTable⟩
      exact exists_of_mem_ids hTable
  simp only [hIds, ids_applyOps, List.mem_append, exists_or, Inserts]

/-- A row that is not there shows the default everywhere. -/
theorem get_absent (h : ¬ db.Exists row) : db.get row column = column.shape.default := by
  have hNone : (db.find? fun other => other.id = row) = none :=
    List.find?_eq_none.mpr fun other hMem hSame => h ⟨other, hMem, by simpa using hSame⟩
  rw [Database.get, hNone]

/-- What a cell holds after a request was there before, or has been written, or
is the default. -/
theorem get_apply_cases (db : Database) (op : Op) (row : RowId) (column : Column) :
    (op.apply db).get row column = db.get row column ∨
      op = .write row column ((op.apply db).get row column) ∨
        (op.apply db).get row column = column.shape.default := by
  by_cases hExists : db.Exists row
  · cases op with
    | insert id table => exact .inl (get_insert_exists hExists)
    | write id column' value =>
        by_cases hCell : row = id ∧ column = column'
        · obtain ⟨rfl, rfl⟩ := hCell
          rw [get_write_same hExists]
          exact .inr (.inl rfl)
        · exact .inl (get_write_other value fun hId hColumn => hCell ⟨hId, hColumn⟩)
  · cases op with
    | insert id table =>
        by_cases hId : row = id
        · subst hId
          exact .inr (.inr (get_insert_same hExists))
        · exact .inl (get_insert_other hId)
    | write id column' value =>
        exact .inr (.inr (get_absent fun h => hExists (exists_write.mp h)))

/-- A cell has its old value, one that is written, or the default of a new row. -/
theorem get_applyOps_cases (db : Database) (ops : List Op) (row : RowId) (column : Column) :
    (applyOps db ops).get row column = db.get row column ∨
      Op.write row column ((applyOps db ops).get row column) ∈ ops ∨
        (applyOps db ops).get row column = column.shape.default := by
  induction ops using List.reverseRecOn with
  | nil => exact .inl rfl
  | append_singleton ops op ih =>
      have hLast : applyOps db (ops ++ [op]) = op.apply (applyOps db ops) := applyOps_append db ops [op]
      rw [hLast]
      rcases get_apply_cases (applyOps db ops) op row column with hSame | hWritten | hDefault
      · rw [hSame]
        exact ih.imp_right fun h => h.imp_left fun hOld => List.mem_append_left [op] hOld
      · exact .inr (.inl (List.mem_append_right _ (List.mem_singleton.mpr hWritten.symm)))
      · exact .inr (.inr hDefault)

end Effects

/-- The requests of the open transaction. -/
def State.ops {World : Type} (state : State World) : List Op := state.txn.elim [] Txn.ops

/-- What a client sees of a database that others share with it: the tables of
which its copy holds rows, the columns that it looks at in them, and the
transactions with which it changes such rows. -/
structure Custody where
  shared : Table → Prop
  watched : Column → Prop
  published : Database → List Op → Prop

/-- A copy with rows of these tables only. -/
def Database.Within (db : Database) (shared : Table → Prop) : Prop := ∀ row ∈ db, shared row.table

section Custody

variable {World Result Next : Type} {env : Environment World} {custody : Custody} {txn : TxnId}
  {known known' : List RowId} {state : State World}

/-- What a request has to do with rows it may have. -/
structure Attributable (custody : Custody) (state : State World) (request : Request) : Prop where
  reads (row : RowId) (column : Column) (h : request = .read row column) :
    Inserts state.ops row ∨ custody.watched column
  lists (table : Table) (h : request = .rows table) :
    custody.shared table ∨ state.link.replica.ids table = []
  commits (txn : TxnId) (h : request = .commitBlock txn) :
    SelfContained state.ops ∨ custody.published state.link.replica state.ops
  runs (h : request = .idlRun) : state.txn = none

/-- The transaction is open and stays with its own rows, these among them. -/
structure Owning (custody : Custody) (txn : TxnId) (known : List RowId) (state : State World) :
    Prop where
  opened : state.Opened txn
  within : state.link.replica.Within custody.shared
  fresh : ∀ row, Inserts state.ops row → ¬ state.link.replica.Exists row
  contained : SelfContained state.ops
  known : ∀ row ∈ known, Inserts state.ops row

/-- The daemon sees its copy with the open transaction applied. -/
theorem State.view_eq (state : State World) : state.view = applyOps state.link.replica state.ops := by
  cases hTxn : state.txn <;> simp [State.view, State.ops, hTxn]

/-- An operation goes to the end of the open transaction. -/
theorem ops_push {current : Txn} (hOpen : state.txn = some current) (op : Op) :
    (state.push current op).ops = state.ops ++ [op] := by
  simp [State.ops, State.push, hOpen]

/-- A table that is not in the copy has no rows there. -/
theorem ids_eq_nil_of_within {db : Database} {shared : Table → Prop} {table : Table}
    (h : db.Within shared) (hTable : ¬ shared table) : db.ids table = [] := by
  refine List.eq_nil_iff_forall_not_mem.mpr fun id hId => ?_
  obtain ⟨row, hRow, -⟩ := List.mem_map.mp hId
  obtain ⟨hMem, rfl⟩ := Database.mem_rows.mp hRow
  exact hTable (h row hMem)

/-- Rows may be forgotten. -/
theorem Owning.weaken (h : Owning custody txn known state) (hKnown : ∀ row ∈ known', row ∈ known) :
    Owning custody txn known' state :=
  { h with known := fun row hRow => h.known row (hKnown row hRow) }

/-- Rows of the transaction may be learned. -/
theorem Owning.extend {others more : List RowId} (h : Owning custody txn (known ++ others) state)
    (hMore : ∀ row ∈ more, Inserts state.ops row) :
    Owning custody txn (more ++ known ++ others) state := by
  refine { h with known := fun row hRow => ?_ }
  rw [List.append_assoc] at hRow
  exact (List.mem_append.mp hRow).elim (hMore row) (h.known row)

/-- Cells of its own rows refer to its own rows. -/
theorem Owning.refs_get (h : Owning custody txn known state) {row : RowId} (hRow : row ∈ known)
    (column : Column) : ∀ ref ∈ column.shape.refs (state.view.get row column), Inserts state.ops ref := by
  intro ref hRef
  have hAbsent : state.link.replica.get row column = column.shape.default :=
    get_absent (h.fresh row (h.known row hRow))
  rw [state.view_eq] at hRef
  rcases get_applyOps_cases state.link.replica state.ops row column with hOld | hWritten | hDefault
  · rw [hOld, hAbsent, Shape.refs_default] at hRef
    exact absurd hRef List.not_mem_nil
  · exact (h.contained row column _ hWritten).2 ref hRef
  · rw [hDefault, Shape.refs_default] at hRef
    exact absurd hRef List.not_mem_nil

/-- A table of which the copy holds no rows shows the transaction's own. -/
theorem Owning.ids_known (h : Owning custody txn known state) {table : Table}
    (hTable : ¬ custody.shared table) : ∀ row ∈ state.view.ids table, Inserts state.ops row := by
  intro row hRow
  rw [state.view_eq, ids_applyOps, ids_eq_nil_of_within h.within hTable, List.nil_append] at hRow
  exact ⟨table, hRow⟩

/-- A transaction that has just been opened owns nothing. -/
theorem owning_created (hWithin : state.link.replica.Within custody.shared) :
    Owning custody state.nextTxn []
      { state with txn := some ⟨state.nextTxn, []⟩, nextTxn := state.nextTxn + 1 } where
  opened := ⟨_, rfl, rfl⟩
  within := hWithin
  fresh _ hRow := absurd hRow not_inserts_nil
  contained := selfContained_nil
  known _ hRow := absurd hRow List.not_mem_nil

/-- An inserted row is owned. -/
theorem Owning.insert (h : Owning custody txn known state) {current : Txn}
    (hOpen : state.txn = some current) {row : RowId} {table : Table}
    (hFresh : ∀ existing ∈ state.view, existing.id ≠ row) :
    Owning custody txn (row :: known) (state.push current (.insert row table)) := by
  have hOps := ops_push hOpen (.insert row table)
  have hOwn : ∀ other, Inserts (state.push current (.insert row table)).ops other ↔
      Inserts state.ops other ∨ other = row := fun other => by
    rw [hOps, inserts_append, inserts_insert]
  obtain ⟨last, hLast, hId⟩ := h.opened
  obtain rfl := Option.some.inj (hLast.symm.trans hOpen)
  refine ⟨⟨_, rfl, hId⟩, h.within, fun other hOther => ?_, hOps ▸ h.contained.insert, ?_⟩
  · rcases (hOwn other).mp hOther with hOld | rfl
    · exact h.fresh other hOld
    · rintro ⟨existing, hMem, hSame⟩
      have hView : state.view.Exists other := by
        rw [state.view_eq]
        exact exists_applyOps.mpr (.inl ⟨existing, hMem, hSame⟩)
      obtain ⟨found, hFound, hFoundId⟩ := hView
      exact hFresh found hFound hFoundId
  · intro other hOther
    rcases List.mem_cons.mp hOther with rfl | hOld
    · exact (hOwn other).mpr (.inr rfl)
    · exact (hOwn other).mpr (.inl (h.known other hOld))

/-- A write to a known row, referring to known rows, keeps the transaction owned. -/
theorem Owning.write (h : Owning custody txn known state) {current : Txn}
    (hOpen : state.txn = some current) {row : RowId} {column : Column} {value : column.Val}
    (hRow : row ∈ known) (hRefs : ∀ ref ∈ column.shape.refs value, ref ∈ known) :
    Owning custody txn known (state.push current (.write row column value)) := by
  have hOps := ops_push hOpen (.write row column value)
  have hOwn : ∀ other, Inserts (state.push current (.write row column value)).ops other ↔
      Inserts state.ops other := fun other => by
    rw [hOps, inserts_append, or_iff_left not_inserts_write]
  obtain ⟨last, hLast, hId⟩ := h.opened
  obtain rfl := Option.some.inj (hLast.symm.trans hOpen)
  refine ⟨⟨_, rfl, hId⟩, h.within, fun other hOther => h.fresh other ((hOwn other).mp hOther), ?_,
    fun other hOther => (hOwn other).mpr (h.known other hOther)⟩
  rw [hOps]
  exact h.contained.write (h.known row hRow) fun ref hRef => h.known ref (hRefs ref hRef)

/-- Where these rows are its own, the program asks for nothing that is not
attributable and adds the rows that its result refers to. -/
def Owns (env : Environment World) (custody : Custody) (txn : TxnId) (known : List RowId)
    (program : Program Calls Result) (refs : Result → List RowId) : Prop :=
  ∀ others state, Owning custody txn (known ++ others) state →
    Safe (step env) (Attributable custody) program
      (fun result => Owning custody txn (known ++ (refs result ++ others))) state

section Rules

variable {refs : Result → List RowId} {refs' : Next → List RowId} {program : Program Calls Result}

/-- A program that starts with no rows, where the transaction has been opened. -/
theorem Owns.start (h : Owns env custody txn [] program refs) (hState : Owning custody txn [] state) :
    Safe (step env) (Attributable custody) program (fun result => Owning custody txn (refs result))
      state := by
  have hSafe := h [] state hState
  simp only [List.append_nil] at hSafe
  exact hSafe

/-- A program may know more rows than it needs. -/
theorem Owns.weaken (h : Owns env custody txn known program refs) (hKnown : known ⊆ known') :
    Owns env custody txn known' program refs := by
  intro others state hState
  have hAll : Owning custody txn (known ++ (known' ++ others)) state := hState.weaken fun row hRow => by
    rcases List.mem_append.mp hRow with hOld | hOld
    · exact List.mem_append_left _ (hKnown hOld)
    · exact hOld
  refine (h _ state hAll).mono fun result after hAfter => hAfter.weaken fun row hRow => ?_
  simp only [List.mem_append] at hRow ⊢
  tauto

theorem owns_done {result : Result} (hResult : refs result ⊆ known) :
    Owns env custody txn known (.done result) refs := by
  intro others state hState
  refine hState.weaken fun row hRow => ?_
  simp only [List.mem_append] at hRow ⊢
  exact hRow.elim .inl fun h => h.imp_left fun h' => hResult h'

/-- What follows need only own its rows for the results that the program can end
with. -/
theorem Owns.bind_yields {good : Result → Prop} {after : Result → Program Calls Next}
    (first : Owns env custody txn known program refs) (hYields : program.Yields good)
    (rest : ∀ result, good result → Owns env custody txn (refs result ++ known) (after result) refs') :
    Owns env custody txn known (program >>= after) refs' := by
  intro others state hState
  refine ((first others state hState).yields hYields).bind ?_
  rintro result middle ⟨hMiddle, hGood⟩
  have hKnown : Owning custody txn (refs result ++ known ++ others) middle := hMiddle.weaken fun row hRow => by
    simp only [List.mem_append] at hRow ⊢
    tauto
  refine (rest result hGood others middle hKnown).mono fun last after hAfter => ?_
  refine hAfter.weaken fun row hRow => ?_
  simp only [List.mem_append] at hRow ⊢
  tauto

/-- What follows knows the rows that the first part hands on. -/
theorem Owns.bind {after : Result → Program Calls Next}
    (first : Owns env custody txn known program refs)
    (rest : ∀ result, Owns env custody txn (refs result ++ known) (after result) refs') :
    Owns env custody txn known (program >>= after) refs' :=
  first.bind_yields (yields_any program) fun result _ => rest result

/-- Calls that neither read nor commit, nor let the copy change. -/
def Impersonal : Request → Prop
  | .read .. | .rows _ | .commitBlock _ | .idlRun => False
  | _ => True

/-- A call that touches no row is nobody's. -/
theorem attributable_plain {request : Request} (h : Impersonal request) :
    Attributable custody state request where
  reads _ _ hRead := (hRead ▸ h : Impersonal (.read _ _)).elim
  lists _ hRows := (hRows ▸ h : Impersonal (.rows _)).elim
  commits _ hCommit := (hCommit ▸ h : Impersonal (.commitBlock _)).elim
  runs hRun := (hRun ▸ h : Impersonal .idlRun).elim

/-- A cell may be read if the row is owned or the column watched. -/
theorem attributable_read {row : RowId} {column : Column}
    (h : Inserts state.ops row ∨ custody.watched column) :
    Attributable custody state (.read row column) where
  reads row' column' hRead := by
    cases hRead
    exact h
  lists _ hRows := by cases hRows
  commits _ hCommit := by cases hCommit
  runs hRun := by cases hRun

/-- A table may be listed if it is shared, or empty in the copy. -/
theorem attributable_rows {table : Table} (h : custody.shared table ∨ state.link.replica.ids table = []) :
    Attributable custody state (.rows table) where
  reads _ _ hRead := by cases hRead
  lists table' hRows := by
    cases hRows
    exact h
  commits _ hCommit := by cases hCommit
  runs hRun := by cases hRun

/-- A commit has to be self-contained, or one of the published kind. -/
theorem attributable_commit {txn : TxnId}
    (h : SelfContained state.ops ∨ custody.published state.link.replica state.ops) :
    Attributable custody state (.commitBlock txn) where
  reads _ _ hRead := by cases hRead
  lists _ hRows := by cases hRows
  commits _ _ := h
  runs hRun := by cases hRun

/-- Changes are received between transactions. -/
theorem attributable_idlRun (h : state.txn = none) : Attributable custody state .idlRun where
  reads _ _ hRead := by cases hRead
  lists _ hRows := by cases hRows
  commits _ hCommit := by cases hCommit
  runs _ := h

/-- A known row may be written to, and refer to known rows. -/
theorem owns_write {row : RowId} {column : Column} {arg : column.Arg}
    {next : Unit → Program Calls Result} (hRow : row ∈ known)
    (hArg : ∀ value, column.shape.Stored arg value → column.shape.refs value ⊆ known)
    (hNext : Owns env custody txn known (next ()) refs) :
    Owns env custody txn known (.call (.write row column arg) next) refs := by
  intro others state hState
  obtain ⟨current, hOpen, -⟩ := hState.opened
  refine safe_write_open hOpen (attributable_plain trivial) fun value hValue => ?_
  refine hNext others _ (hState.write hOpen (List.mem_append_left _ hRow) fun ref hRef => ?_)
  exact List.mem_append_left _ (hArg value hValue hRef)

/-- A value without references may be written. -/
theorem owns_write_plain {row : RowId} {column : Column} {arg : column.Arg}
    {next : Unit → Program Calls Result} (hRow : row ∈ known)
    (hPlain : ∀ value, column.shape.refs value = [])
    (hNext : Owns env custody txn known (next ()) refs) :
    Owns env custody txn known (.call (.write row column arg) next) refs :=
  owns_write hRow (fun value _ => hPlain value ▸ List.nil_subset _) hNext

/-- The rows that a cell refers to are handed on. -/
theorem owns_read {row : RowId} {column : Column} {next : column.Val → Program Calls Result}
    (hRow : row ∈ known)
    (hNext : ∀ value, Owns env custody txn (column.shape.refs value ++ known) (next value) refs) :
    Owns env custody txn known (.call (.read row column) next) refs := by
  intro others state hState
  have hMem : row ∈ known ++ others := List.mem_append_left _ hRow
  refine safe_read.mpr ⟨attributable_read (.inl (hState.known row hMem)), ?_⟩
  · have hRefs := hState.refs_get hMem column
    refine (hNext _ others state (hState.extend hRefs)).mono fun result after hAfter => ?_
    refine hAfter.weaken fun other hOther => ?_
    rw [List.append_assoc]
    exact List.mem_append_right _ hOther

/-- So are those of a table that is the daemon's own. -/
theorem owns_rows {table : Table} {next : List RowId → Program Calls Result}
    (hTable : ¬ custody.shared table)
    (hNext : ∀ ids, Owns env custody txn (ids ++ known) (next ids) refs) :
    Owns env custody txn known (.call (.rows table) next) refs := by
  intro others state hState
  refine safe_rows.mpr ⟨attributable_rows (.inr (ids_eq_nil_of_within hState.within hTable)), ?_⟩
  · have hIds := hState.ids_known hTable
    refine (hNext _ others state (hState.extend hIds)).mono fun result after hAfter => ?_
    refine hAfter.weaken fun other hOther => ?_
    rw [List.append_assoc]
    exact List.mem_append_right _ hOther

/-- Both branches keep to the known rows. -/
theorem owns_ite {condition : Prop} [Decidable condition] {yes no : Program Calls Result}
    (hYes : condition → Owns env custody txn known yes refs)
    (hNo : ¬ condition → Owns env custody txn known no refs) :
    Owns env custody txn known (if condition then yes else no) refs := by
  split
  case isTrue h => exact hYes h
  case isFalse h => exact hNo h

theorem owns_fault {kind : Fault} {next : Empty → Program Calls Result} :
    Owns env custody txn known (.call (.fault kind) next) refs :=
  fun _ _ _ => safe_fault.mpr (attributable_plain trivial)

/-- A null pointer ends the program. -/
theorem owns_orFault {pointer : Option Result} {after : Result → Program Calls Next}
    (hAfter : ∀ result, Owns env custody txn known (after result) refs') :
    Owns env custody txn known (orFault pointer >>= after) refs' := by
  cases pointer with
  | none => exact owns_fault
  | some result => exact hAfter result

/-- An inserted row becomes known. -/
theorem owns_insertRow {table : Table} {next : RowId → Program Calls Result}
    (hNext : ∀ row, Owns env custody txn (row :: known) (next row) refs) :
    Owns env custody txn known (insertRow txn table >>= next) refs := by
  intro others state hState
  obtain ⟨current, hOpen, rfl⟩ := hState.opened
  refine safe_insert_open hOpen (attributable_plain trivial) (fun _ => ?_) fun row hFresh => ?_
  · exact safe_fault.mpr (attributable_plain trivial)
  · refine (hNext row others _ (hState.insert hOpen hFresh)).mono fun result after hAfter =>
      hAfter.weaken fun other hOther => List.mem_cons_of_mem row hOther

theorem owns_calloc {next : Bool → Program Calls Result}
    (hNext : ∀ answer, Owns env custody txn known (next answer) refs) :
    Owns env custody txn known (.call .calloc next) refs :=
  fun others state hState => safe_calloc.mpr ⟨attributable_plain trivial,
    fun answer => hNext answer others state hState⟩

theorem owns_openOsRelease {next : Option (List (List UInt8)) → Program Calls Result}
    (hNext : ∀ lines, Owns env custody txn known (next lines) refs) :
    Owns env custody txn known (.call .openOsRelease next) refs :=
  fun others state hState => safe_openOsRelease.mpr ⟨attributable_plain trivial,
    fun lines _ => hNext lines others state hState⟩

/-- A loop keeps to the known rows if its body does. -/
theorem Owns.forM {Item : Type} {body : Item → Program Calls PUnit} (items : List Item)
    (hBody : ∀ item ∈ items, Owns env custody txn known (body item) fun _ => []) :
    Owns env custody txn known (forM items body) fun _ => [] := by
  induction items with
  | nil => exact owns_done (List.nil_subset _)
  | cons item items ih =>
      rw [List.forM_cons]
      exact (hBody item List.mem_cons_self).bind fun _ =>
        ih fun later hLater => hBody later (List.mem_cons_of_mem _ hLater)

/-- A loop that comes to a row for each item. -/
theorem Owns.mapM {Item : Type} {body : Item → Program Calls RowId} (items : List Item)
    (hBody : ∀ item ∈ items, Owns env custody txn known (body item) fun row => [row]) :
    Owns env custody txn known (items.mapM body) id := by
  induction items generalizing known with
  | nil => exact owns_done (List.nil_subset _)
  | cons item items ih =>
      rw [List.mapM_cons]
      refine (hBody item List.mem_cons_self).bind fun row => ?_
      refine (ih fun later hLater => (hBody later (List.mem_cons_of_mem _ hLater)).weaken ?_).bind ?_
      · exact List.subset_cons_self row known
      · refine fun rows => owns_done fun other hOther => ?_
        rcases List.mem_cons.mp hOther with rfl | hRest
        · exact List.mem_append_right _ List.mem_cons_self
        · exact List.mem_append_left _ hRest

end Rules

end Custody
end OpsSysd.Idl
