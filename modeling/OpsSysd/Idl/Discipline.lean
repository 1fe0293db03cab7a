import OpsSysd.Idl.Rules

/-! What the IDL requires of its caller: rows and columns are changed, and a
commit is made, only while a transaction is open, one transaction is open at a
time, none is given up, and none is open when the daemon turns to its other
clients. A program that keeps to this never gets stuck. -/
namespace OpsSysd.Idl

open CLib Interaction Interaction.Program

variable {World : Type}

/-- This transaction is open. -/
def State.Opened (state : State World) (txn : TxnId) : Prop :=
  ∃ current, state.txn = some current ∧ current.id = txn

def Disciplined (state : State World) : Request → Prop
  | .txnCreate => state.txn = none
  | .insert txn _ => state.Opened txn
  | .write .. => state.txn ≠ none
  | .commitBlock txn => state.Opened txn
  | .txnDestroy txn => ¬ state.Opened txn
  | .unixctlServerRun => state.txn = none
  | .fault _ => False
  | _ => True

/-- Whatever the daemon asks for, the environment has some answer. -/
structure Environment.Total (env : Environment World) : Prop where
  run (world : World) (link : Link) : ∃ world' link', env.run world link world' link'
  commit (world : World) (link : Link) (ops : List Op) :
    ∃ status world' link', env.commit world link ops status world' link'
  osRelease (world : World) : ∃ lines, env.osRelease world lines
  versionDetail (world : World) : ∃ events, env.versionDetail world events

/-- Something is stored of every slice. -/
theorem Slice.exists_stored {Elem : Type} (slice : Slice Elem) (filler : Elem) :
    ∃ value, slice.Stored value := by
  refine ⟨(slice.array ++ List.replicate slice.count filler).take slice.count, ?_, ?_⟩
  · simp
  · rw [List.take_take, Nat.min_comm, ← List.take_take, List.take_left]

/-- And of every argument. -/
theorem Shape.exists_stored (shape : Shape) (arg : shape.Arg) : ∃ value, shape.Stored arg value := by
  cases shape with
  | text | optionalText | integer | boolean | smap | reference => exact ⟨arg, rfl⟩
  | references => exact Slice.exists_stored arg 0
  | integers => exact Slice.exists_stored arg 0
  | booleans => exact Slice.exists_stored arg false
  | queueMap => exact Slice.exists_stored arg (0, 0)

/-- There is always room for another row. -/
theorem Database.exists_fresh (db : Database) : ∃ id, ∀ row ∈ db, row.id ≠ id := by
  have hBound : ∃ bound, ∀ row ∈ db, row.id < bound := by
    induction db with
    | nil => exact ⟨0, nofun⟩
    | cons row db ih =>
        obtain ⟨bound, hBound⟩ := ih
        refine ⟨max bound (row.id + 1), fun other hOther => ?_⟩
        rcases List.mem_cons.mp hOther with rfl | hTail
        · exact lt_of_lt_of_le (Nat.lt_succ_self _) (le_max_right _ _)
        · exact lt_of_lt_of_le (hBound other hTail) (le_max_left _ _)
  obtain ⟨bound, hBound⟩ := hBound
  exact ⟨bound, fun row hRow => Nat.ne_of_lt (hBound row hRow)⟩

/-- A disciplined call always has an answer. -/
theorem step_total {env : Environment World} (total : env.Total) (state : State World)
    (request : Request) (disciplined : Disciplined state request) :
    ∃ answer after, step env state request answer after := by
  cases request with
  | idlRun =>
      obtain ⟨world, link, hRun⟩ := total.run state.world state.link
      exact ⟨(), _, world, link, hRun, rfl⟩
  | txnCreate => exact ⟨_, _, disciplined, rfl, rfl⟩
  | insert txn table =>
      obtain ⟨current, hOpen, hId⟩ := disciplined
      obtain ⟨row, hFresh⟩ := state.view.exists_fresh
      exact ⟨some row, _, current, hOpen, hId, .inr ⟨row, hFresh, rfl, rfl⟩⟩
  | write row column arg =>
      obtain ⟨current, hOpen⟩ := Option.ne_none_iff_exists'.mp disciplined
      obtain ⟨value, hValue⟩ := column.shape.exists_stored arg
      refine ⟨(), state.push current (.write row column value), ?_⟩
      simp only [step, hOpen]
      exact ⟨value, hValue, rfl⟩
  | commitBlock txn =>
      obtain ⟨current, hOpen, hId⟩ := disciplined
      obtain ⟨status, world, link, hCommit⟩ := total.commit state.world state.link current.ops
      exact ⟨status, _, current, hOpen, hId, world, link, hCommit, rfl⟩
  | openOsRelease =>
      obtain ⟨lines, hLines⟩ := total.osRelease state.world
      exact ⟨lines, state, hLines, rfl⟩
  | openVersionDetail =>
      obtain ⟨events, hEvents⟩ := total.versionDetail state.world
      exact ⟨events, state, hEvents, rfl⟩
  | isLockContended => exact ⟨_, _, rfl, rfl⟩
  | hasLock => exact ⟨_, _, rfl, rfl⟩
  | getSeqno => exact ⟨_, _, rfl, rfl⟩
  | loadIdlSeqno => exact ⟨_, _, rfl, rfl⟩
  | storeIdlSeqno seqno => exact ⟨(), _, rfl⟩
  | loadHwInitDoneSet => exact ⟨_, _, rfl, rfl⟩
  | storeHwInitDoneSet value => exact ⟨(), _, rfl⟩
  | rows table => exact ⟨_, _, rfl, rfl⟩
  | read row column => exact ⟨_, _, rfl, rfl⟩
  | txnDestroy txn => exact ⟨(), _, rfl⟩
  | calloc => exact ⟨true, _, rfl⟩
  | unlink => exact ⟨true, _, rfl⟩
  | symlink target => exact ⟨true, state, fun hFails => absurd hFails.symm Bool.false_ne_true, rfl⟩
  | daemonizeComplete => exact ⟨(), _, rfl⟩
  | unixctlServerRun => exact ⟨false, _, rfl⟩
  | pollBlock => exact ⟨(), _, rfl⟩
  | startPass => exact ⟨(), _, rfl⟩
  | fault kind => exact disciplined.elim

section Open

variable {env : Environment World} {permitted : State World → Request → Prop} {Result : Type}
  {post : Result → State World → Prop} {state : State World} {current : Txn}

/-- A write while a transaction is open. -/
theorem safe_write_open (hOpen : state.txn = some current) {row : RowId} {column : Column}
    {arg : column.Arg} {next : Unit → Program Calls Result}
    (hPermitted : permitted state (.write row column arg))
    (hNext : ∀ value, column.shape.Stored arg value →
      Safe (step env) permitted (next ()) post (state.push current (.write row column value))) :
    Safe (step env) permitted (.call (.write row column arg) next) post state := by
  refine safe_write.mpr ⟨hPermitted, fun hNone _ => absurd (hOpen.symm.trans hNone) nofun, ?_⟩
  intro current' hCurrent
  obtain rfl := Option.some.inj (hOpen.symm.trans hCurrent)
  exact hNext

/-- The rule for the commit of the open transaction. -/
theorem safe_commit_open (hOpen : state.txn = some current)
    {next : TxnStatus → Program Calls Result}
    (hPermitted : permitted state (.commitBlock current.id))
    (hNext : ∀ status world link, env.commit state.world state.link current.ops status world link →
      Safe (step env) permitted (next status) post { state with world, link, txn := none }) :
    Safe (step env) permitted (.call (.commitBlock current.id) next) post state := by
  refine safe_commitBlock.mpr ⟨hPermitted, fun current' hCurrent _ => ?_⟩
  obtain rfl := Option.some.inj (hOpen.symm.trans hCurrent)
  exact hNext

/-- And for an insertion into it. -/
theorem safe_insert_open (hOpen : state.txn = some current) {table : Table}
    {next : Option RowId → Program Calls Result}
    (hPermitted : permitted state (.insert current.id table))
    (hFails : env.insertFails state.world table → Safe (step env) permitted (next none) post state)
    (hNext : ∀ row, (∀ existing ∈ state.view, existing.id ≠ row) →
      Safe (step env) permitted (next (some row)) post (state.push current (.insert row table))) :
    Safe (step env) permitted (.call (.insert current.id table) next) post state := by
  refine safe_insert.mpr ⟨hPermitted, fun current' hCurrent _ => ?_⟩
  obtain rfl := Option.some.inj (hOpen.symm.trans hCurrent)
  exact ⟨hFails, hNext⟩

end Open
end OpsSysd.Idl
