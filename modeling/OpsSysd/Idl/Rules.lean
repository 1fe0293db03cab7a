import OpsSysd.Idl.Session

/-! What must be shown of a program that begins with a given call. -/
namespace OpsSysd.Idl

open CLib Interaction Interaction.Program

section Rules

variable {World Result : Type} {env : Environment World}
  {permitted : State World → Request → Prop} {post : Result → State World → Prop}
  {state : State World}

/-- A call whose answer and effect the state decides. -/
theorem safe_exact {request : Request} {next : request.Response → Program Calls Result}
    (answer : request.Response) (after : State World)
    (hStep : ∀ answer' after', step env state request answer' after' ↔
      answer' = answer ∧ after' = after) :
    Safe (step env) permitted (.call request next) post state ↔
      permitted state request ∧ Safe (step env) permitted (next answer) post after := by
  rw [safe_call]
  refine and_congr_right fun _ => ⟨fun h => h _ _ ((hStep _ _).mpr ⟨rfl, rfl⟩), ?_⟩
  intro h answer' after' hTaken
  obtain ⟨rfl, rfl⟩ := (hStep answer' after').mp hTaken
  exact h

/-- Whatever may be delivered has to be provided for. -/
@[simp] theorem safe_idlRun {next : Unit → Program Calls Result} :
    Safe (step env) permitted (.call .idlRun next) post state ↔ permitted state .idlRun ∧
      ∀ world link, env.run state.world state.link world link →
        Safe (step env) permitted (next ()) post { state with world, link } := by
  rw [safe_call]
  constructor
  · exact fun h => ⟨h.1, fun world link hRun => h.2 () _ ⟨world, link, hRun, rfl⟩⟩
  · refine fun h => ⟨h.1, ?_⟩
    rintro answer after ⟨world, link, hRun, rfl⟩
    exact h.2 world link hRun

@[simp] theorem safe_isLockContended {next : Bool → Program Calls Result} :
    Safe (step env) permitted (.call .isLockContended next) post state ↔
      permitted state .isLockContended ∧
        Safe (step env) permitted (next state.link.isLockContended) post state :=
  safe_exact _ _ fun _ _ => Iff.rfl

@[simp] theorem safe_hasLock {next : Bool → Program Calls Result} :
    Safe (step env) permitted (.call .hasLock next) post state ↔ permitted state .hasLock ∧
      Safe (step env) permitted (next state.link.hasLock) post state :=
  safe_exact _ _ fun _ _ => Iff.rfl

@[simp] theorem safe_getSeqno {next : Nat → Program Calls Result} :
    Safe (step env) permitted (.call .getSeqno next) post state ↔ permitted state .getSeqno ∧
      Safe (step env) permitted (next state.link.seqno) post state :=
  safe_exact _ _ fun _ _ => Iff.rfl

@[simp] theorem safe_loadIdlSeqno {next : Nat → Program Calls Result} :
    Safe (step env) permitted (.call .loadIdlSeqno next) post state ↔
      permitted state .loadIdlSeqno ∧
        Safe (step env) permitted (next state.idlSeqno) post state :=
  safe_exact _ _ fun _ _ => Iff.rfl

@[simp] theorem safe_storeIdlSeqno {seqno : Nat} {next : Unit → Program Calls Result} :
    Safe (step env) permitted (.call (.storeIdlSeqno seqno) next) post state ↔
      permitted state (.storeIdlSeqno seqno) ∧
        Safe (step env) permitted (next ()) post { state with idlSeqno := seqno } :=
  safe_exact _ _ fun _ _ => (and_iff_right rfl).symm

@[simp] theorem safe_loadHwInitDoneSet {next : Bool → Program Calls Result} :
    Safe (step env) permitted (.call .loadHwInitDoneSet next) post state ↔
      permitted state .loadHwInitDoneSet ∧
        Safe (step env) permitted (next state.hwInitDoneSet) post state :=
  safe_exact _ _ fun _ _ => Iff.rfl

@[simp] theorem safe_storeHwInitDoneSet {value : Bool} {next : Unit → Program Calls Result} :
    Safe (step env) permitted (.call (.storeHwInitDoneSet value) next) post state ↔
      permitted state (.storeHwInitDoneSet value) ∧
        Safe (step env) permitted (next ()) post { state with hwInitDoneSet := value } :=
  safe_exact _ _ fun _ _ => (and_iff_right rfl).symm

/-- A look at a table shows it as the open transaction would leave it. -/
@[simp] theorem safe_rows {table : Table} {next : List RowId → Program Calls Result} :
    Safe (step env) permitted (.call (.rows table) next) post state ↔
      permitted state (.rows table) ∧
        Safe (step env) permitted (next (state.view.ids table)) post state :=
  safe_exact _ _ fun _ _ => Iff.rfl

/-- And so does the look at a cell. -/
@[simp] theorem safe_read {row : RowId} {column : Column}
    {next : column.Val → Program Calls Result} :
    Safe (step env) permitted (.call (.read row column) next) post state ↔
      permitted state (.read row column) ∧
        Safe (step env) permitted (next (state.view.get row column)) post state :=
  safe_exact _ _ fun _ _ => Iff.rfl

/-- A transaction is created only if none is open; there is no answer otherwise. -/
@[simp] theorem safe_txnCreate {next : TxnId → Program Calls Result} :
    Safe (step env) permitted (.call .txnCreate next) post state ↔ permitted state .txnCreate ∧
      (state.txn = none → Safe (step env) permitted (next state.nextTxn) post
        { state with txn := some ⟨state.nextTxn, []⟩, nextTxn := state.nextTxn + 1 }) := by
  rw [safe_call]
  constructor
  · exact fun h => ⟨h.1, fun hNone => h.2 _ _ ⟨hNone, rfl, rfl⟩⟩
  · refine fun h => ⟨h.1, ?_⟩
    rintro answer after ⟨hNone, rfl, rfl⟩
    exact h.2 hNone

/-- An insertion is refused, or gives a row that is not there yet. -/
@[simp] theorem safe_insert {txn : TxnId} {table : Table}
    {next : Option RowId → Program Calls Result} :
    Safe (step env) permitted (.call (.insert txn table) next) post state ↔
      permitted state (.insert txn table) ∧
        ∀ current, state.txn = some current → current.id = txn →
          (env.insertFails state.world table →
            Safe (step env) permitted (next none) post state) ∧
          ∀ row, (∀ existing ∈ state.view, existing.id ≠ row) →
            Safe (step env) permitted (next (some row)) post
              (state.push current (.insert row table)) := by
  rw [safe_call]
  constructor
  · refine fun h => ⟨h.1, fun current hOpen hId => ⟨fun hFails => ?_, fun row hFresh => ?_⟩⟩
    · exact h.2 none _ ⟨current, hOpen, hId, .inl ⟨rfl, hFails, rfl⟩⟩
    · exact h.2 (some row) _ ⟨current, hOpen, hId, .inr ⟨row, hFresh, rfl, rfl⟩⟩
  · refine fun h => ⟨h.1, ?_⟩
    rintro answer after ⟨current, hOpen, hId, ⟨rfl, hFails, rfl⟩ | ⟨row, hFresh, rfl, rfl⟩⟩
    · exact (h.2 current hOpen hId).1 hFails
    · exact (h.2 current hOpen hId).2 row hFresh

/-- A write is recorded in the open transaction; if there is none, the daemon
only goes on where the IDL skips the write. -/
@[simp] theorem safe_write {row : RowId} {column : Column} {arg : column.Arg}
    {next : Unit → Program Calls Result} :
    Safe (step env) permitted (.call (.write row column arg) next) post state ↔
      permitted state (.write row column arg) ∧
        (state.txn = none → env.discards state.world row column arg →
          Safe (step env) permitted (next ()) post state) ∧
        ∀ current, state.txn = some current → ∀ value, column.shape.Stored arg value →
          Safe (step env) permitted (next ()) post
            (state.push current (.write row column value)) := by
  rw [safe_call]
  refine and_congr_right fun _ => ?_
  cases hTxn : state.txn with
  | none =>
      simp only [step, hTxn, reduceCtorEq, IsEmpty.forall_iff, implies_true, and_true,
        forall_true_left]
      refine ⟨fun h hDiscards => h () state ⟨hDiscards, rfl⟩, ?_⟩
      rintro h answer after ⟨hDiscards, rfl⟩
      exact h hDiscards
  | some current =>
      simp only [step, hTxn, reduceCtorEq, Option.some.injEq, IsEmpty.forall_iff, true_and]
      constructor
      · rintro h _ rfl value hValue
        exact h () _ ⟨value, hValue, rfl⟩
      · rintro h answer after ⟨value, hValue, rfl⟩
        exact h current rfl value hValue

/-- A commit closes the transaction, whatever its outcome. -/
@[simp] theorem safe_commitBlock {txn : TxnId} {next : TxnStatus → Program Calls Result} :
    Safe (step env) permitted (.call (.commitBlock txn) next) post state ↔
      permitted state (.commitBlock txn) ∧
        ∀ current, state.txn = some current → current.id = txn → ∀ status world link,
          env.commit state.world state.link current.ops status world link →
            Safe (step env) permitted (next status) post
              { state with world, link, txn := none } := by
  rw [safe_call]
  constructor
  · exact fun h => ⟨h.1, fun current hOpen hId status world link hCommit =>
      h.2 status _ ⟨current, hOpen, hId, world, link, hCommit, rfl⟩⟩
  · refine fun h => ⟨h.1, ?_⟩
    rintro answer after ⟨current, hOpen, hId, world, link, hCommit, rfl⟩
    exact h.2 current hOpen hId answer world link hCommit

/-- A transaction that is destroyed is no longer open. -/
@[simp] theorem safe_txnDestroy {txn : TxnId} {next : Unit → Program Calls Result} :
    Safe (step env) permitted (.call (.txnDestroy txn) next) post state ↔
      permitted state (.txnDestroy txn) ∧ Safe (step env) permitted (next ()) post
        { state with txn := state.txn.filter fun current => current.id ≠ txn } :=
  safe_exact _ _ fun _ _ => (and_iff_right rfl).symm

/-- An allocation may fail or not. -/
@[simp] theorem safe_calloc {next : Bool → Program Calls Result} :
    Safe (step env) permitted (.call .calloc next) post state ↔ permitted state .calloc ∧
      ∀ answer, Safe (step env) permitted (next answer) post state := by
  rw [safe_call]
  exact and_congr_right fun _ => ⟨fun h answer => h answer state rfl, fun h answer after hAfter =>
    hAfter ▸ h answer⟩

@[simp] theorem safe_openOsRelease {next : Option (List (List UInt8)) → Program Calls Result} :
    Safe (step env) permitted (.call .openOsRelease next) post state ↔
      permitted state .openOsRelease ∧ ∀ lines, env.osRelease state.world lines →
        Safe (step env) permitted (next lines) post state := by
  rw [safe_call]
  refine and_congr_right fun _ => ⟨fun h found hFound => h found state ⟨hFound, rfl⟩, ?_⟩
  rintro h answer after ⟨hFound, rfl⟩
  exact h answer hFound

@[simp] theorem safe_openVersionDetail {next : Option (List YamlEvent) → Program Calls Result} :
    Safe (step env) permitted (.call .openVersionDetail next) post state ↔
      permitted state .openVersionDetail ∧ ∀ events, env.versionDetail state.world events →
        Safe (step env) permitted (next events) post state := by
  rw [safe_call]
  refine and_congr_right fun _ => ⟨fun h found hFound => h found state ⟨hFound, rfl⟩, ?_⟩
  rintro h answer after ⟨hFound, rfl⟩
  exact h answer hFound

/-- The link may be there or not. -/
@[simp] theorem safe_unlink {next : Bool → Program Calls Result} :
    Safe (step env) permitted (.call .unlink next) post state ↔ permitted state .unlink ∧
      ∀ answer, Safe (step env) permitted (next answer) post state := by
  rw [safe_call]
  exact and_congr_right fun _ => ⟨fun h answer => h answer state rfl, fun h answer after hAfter =>
    hAfter ▸ h answer⟩

/-- The link is made, unless the environment lets it fail. -/
@[simp] theorem safe_symlink {target : CString} {next : Bool → Program Calls Result} :
    Safe (step env) permitted (.call (.symlink target) next) post state ↔
      permitted state (.symlink target) ∧
        ∀ answer, (answer = false → env.symlinkFails state.world target) →
          Safe (step env) permitted (next answer) post state := by
  rw [safe_call]
  refine and_congr_right fun _ => ⟨fun h answer hFails => h answer state ⟨hFails, rfl⟩, ?_⟩
  rintro h answer after ⟨hFails, rfl⟩
  exact h answer hFails

/-- The number that a pass starts on is noted. -/
@[simp] theorem safe_startPass {next : Unit → Program Calls Result} :
    Safe (step env) permitted (.call .startPass next) post state ↔
      permitted state .startPass ∧ Safe (step env) permitted (next ()) post
        { state with examined := state.link.seqno :: state.examined } :=
  safe_exact _ _ fun _ _ => (and_iff_right rfl).symm

@[simp] theorem safe_daemonizeComplete {next : Unit → Program Calls Result} :
    Safe (step env) permitted (.call .daemonizeComplete next) post state ↔
      permitted state .daemonizeComplete ∧ Safe (step env) permitted (next ()) post state :=
  safe_exact _ _ fun _ _ => (and_iff_right rfl).symm

@[simp] theorem safe_unixctlServerRun {next : Bool → Program Calls Result} :
    Safe (step env) permitted (.call .unixctlServerRun next) post state ↔
      permitted state .unixctlServerRun ∧
        ∀ answer, Safe (step env) permitted (next answer) post state := by
  rw [safe_call]
  exact and_congr_right fun _ => ⟨fun h answer => h answer state rfl, fun h answer after hAfter =>
    hAfter ▸ h answer⟩

@[simp] theorem safe_pollBlock {next : Unit → Program Calls Result} :
    Safe (step env) permitted (.call .pollBlock next) post state ↔
      permitted state .pollBlock ∧ Safe (step env) permitted (next ()) post state :=
  safe_exact _ _ fun _ _ => (and_iff_right rfl).symm

/-- Nothing is to be shown after a fault. -/
@[simp] theorem safe_fault {kind : Fault} {next : Empty → Program Calls Result} :
    Safe (step env) permitted (.call (.fault kind) next) post state ↔
      permitted state (.fault kind) := by
  rw [safe_call]
  exact ⟨And.left, fun h => ⟨h, fun answer => answer.elim⟩⟩

/-- Only where the server is listened to does anything but the daemon change. -/
theorem step_inward {before after : State World} {request : Request} {answer : request.Response}
    (hStep : step env before request answer after) (hRun : request ≠ .idlRun)
    (hCommit : ∀ txn, request ≠ .commitBlock txn) :
    after.world = before.world ∧ after.link = before.link := by
  cases request with
  | idlRun => exact absurd rfl hRun
  | commitBlock txn => exact absurd rfl (hCommit txn)
  | isLockContended | hasLock | getSeqno | loadIdlSeqno | loadHwInitDoneSet | rows _ | read _ _
  | openOsRelease | openVersionDetail | symlink _ =>
      rw [hStep.2]
      exact ⟨rfl, rfl⟩
  | txnCreate =>
      rw [hStep.2.2]
      exact ⟨rfl, rfl⟩
  | insert txn table =>
      obtain ⟨current, -, -, ⟨-, -, rfl⟩ | ⟨row, -, -, rfl⟩⟩ := hStep
      · exact ⟨rfl, rfl⟩
      · exact ⟨rfl, rfl⟩
  | write row column arg =>
      cases hTxn : before.txn with
      | none =>
          simp only [step, hTxn] at hStep
          rw [hStep.2]
          exact ⟨rfl, rfl⟩
      | some current =>
          simp only [step, hTxn] at hStep
          obtain ⟨value, -, rfl⟩ := hStep
          exact ⟨rfl, rfl⟩
  | fault kind => exact answer.elim
  | _ =>
      obtain rfl := (show after = _ from hStep)
      exact ⟨rfl, rfl⟩

end Rules
end OpsSysd.Idl
