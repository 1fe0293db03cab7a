import OpsSysd.Library.Program
import OpsSysd.Idl.Schema

/-! The daemon's side of a database session: the calls it makes on the IDL and
on the system, the state they act on, and an environment that decides what the
database delivers and how each commit ends. -/
namespace OpsSysd.Idl

open CLib Interaction

abbrev TxnId := Nat

/-- `enum ovsdb_idl_txn_status`, for a commit that has come to an end. -/
inductive TxnStatus where
  | unchanged | aborted | success | tryAgain | notLocked | error
  deriving DecidableEq

/-- Undefined behaviour. -/
inductive Fault where
  | nullPointer
  | outOfBounds

/-- What `yaml_parser_parse` delivers; the events of other types are ignored. -/
inductive YamlEvent where
  | scalar (value : CString)
  | streamEnd
  | other
  deriving DecidableEq

/-- The calls, and one mark of the model's own: `startPass` stands where the
daemon begins to look at what has been delivered. -/
inductive Request where
  | idlRun
  | isLockContended
  | hasLock
  | getSeqno
  | loadIdlSeqno
  | storeIdlSeqno (seqno : Nat)
  | loadHwInitDoneSet
  | storeHwInitDoneSet (value : Bool)
  | rows (table : Table)
  | read (row : RowId) (column : Column)
  | txnCreate
  | insert (txn : TxnId) (table : Table)
  | write (row : RowId) (column : Column) (arg : column.Arg)
  | commitBlock (txn : TxnId)
  | txnDestroy (txn : TxnId)
  | calloc
  | openOsRelease
  | openVersionDetail
  | unlink
  | symlink (target : CString)
  | daemonizeComplete
  | unixctlServerRun
  | pollBlock
  | startPass
  | fault (kind : Fault)

@[reducible] def Request.Response : Request → Type
  | .isLockContended | .hasLock | .loadHwInitDoneSet | .calloc | .unixctlServerRun => Bool
  | .unlink | .symlink _ => Bool
  | .getSeqno | .loadIdlSeqno => Nat
  | .rows _ => List RowId
  | .read _ column => column.Val
  | .txnCreate => TxnId
  | .insert .. => Option RowId
  | .commitBlock _ => TxnStatus
  | .openOsRelease => Option (List (List UInt8))
  | .openVersionDetail => Option (List YamlEvent)
  | .fault _ => Empty
  | _ => Unit

/-- The calls the daemon can make. Nothing follows a fault. -/
abbrev Calls : Interface := ⟨Request, Request.Response⟩

section Calls

abbrev idlRun : Program Calls Unit := .call .idlRun .done
abbrev isLockContended : Program Calls Bool := .call .isLockContended .done
abbrev hasLock : Program Calls Bool := .call .hasLock .done
abbrev getSeqno : Program Calls Nat := .call .getSeqno .done
abbrev loadIdlSeqno : Program Calls Nat := .call .loadIdlSeqno .done
abbrev storeIdlSeqno (seqno : Nat) : Program Calls Unit := .call (.storeIdlSeqno seqno) .done
abbrev loadHwInitDoneSet : Program Calls Bool := .call .loadHwInitDoneSet .done
abbrev storeHwInitDoneSet (value : Bool) : Program Calls Unit :=
  .call (.storeHwInitDoneSet value) .done

/-- The rows that the loop of `OVSREC_*_FOR_EACH` visits, in order. -/
abbrev rows (table : Table) : Program Calls (List RowId) := .call (.rows table) .done

/-- `ovsrec_*_first`. -/
def first (table : Table) : Program Calls (Option RowId) := do
  let ids ← rows table
  return ids.head?

theorem first_bind {Result : Type} (table : Table) (next : Option RowId → Program Calls Result) :
    (first table >>= next) = .call (.rows table) fun ids => next ids.head? := rfl

abbrev read (row : RowId) (column : Column) : Program Calls column.Val :=
  .call (.read row column) .done
abbrev txnCreate : Program Calls TxnId := .call .txnCreate .done
abbrev write (row : RowId) (column : Column) (arg : column.Arg) : Program Calls Unit :=
  .call (.write row column arg) .done
abbrev commitBlock (txn : TxnId) : Program Calls TxnStatus := .call (.commitBlock txn) .done
abbrev txnDestroy (txn : TxnId) : Program Calls Unit := .call (.txnDestroy txn) .done
abbrev calloc : Program Calls Bool := .call .calloc .done
abbrev openOsRelease : Program Calls (Option (List (List UInt8))) := .call .openOsRelease .done
abbrev openVersionDetail : Program Calls (Option (List YamlEvent)) := .call .openVersionDetail .done

/-- `unlink` of `/etc/localtime`; the answer tells whether it succeeded. -/
abbrev unlink : Program Calls Bool := .call .unlink .done

/-- `symlink` to `/etc/localtime`, likewise. -/
abbrev symlink (target : CString) : Program Calls Bool := .call (.symlink target) .done

abbrev daemonizeComplete : Program Calls Unit := .call .daemonizeComplete .done
abbrev unixctlServerRun : Program Calls Bool := .call .unixctlServerRun .done
abbrev pollBlock : Program Calls Unit := .call .pollBlock .done
abbrev startPass : Program Calls Unit := .call .startPass .done

abbrev fault {Result : Type} (kind : Fault) : Program Calls Result :=
  .call (.fault kind) Empty.elim

/-- `ovsrec_*_insert`, before its result is used. -/
abbrev tryInsertRow (txn : TxnId) (table : Table) : Program Calls (Option RowId) :=
  .call (.insert txn table) .done

/-- A pointer that is used without a check. -/
def orFault {Result : Type} : Option Result → Program Calls Result
  | some result => return result
  | none => fault .nullPointer

/-- `ovsrec_*_insert` where the row is used without a check. -/
def insertRow (txn : TxnId) (table : Table) : Program Calls RowId := do
  orFault (← tryInsertRow txn table)

end Calls

/-- What `ovsdb_idl_run` maintains. Rows are told apart by their ids, and the
lock is never both held and contended. The sequence number is an `unsigned int`
in the source, which is taken not to wrap around. -/
structure Link where
  replica : Database
  seqno : Nat
  hasLock : Bool
  isLockContended : Bool
  distinct : (replica.map Row.id).Nodup
  exclusive : hasLock = true → isLockContended = false

structure Txn where
  id : TxnId
  ops : List Op

/-- The open transaction, if any, and the daemon's variables, next to whatever
state the rest of the system has. `examined` remembers the sequence numbers at
which a pass has started. -/
structure State (World : Type) where
  world : World
  link : Link
  txn : Option Txn
  nextTxn : TxnId
  idlSeqno : Nat
  hwInitDoneSet : Bool
  examined : List Nat

/-- What the rest of the system may do. -/
structure Environment (World : Type) where
  run : World → Link → World → Link → Prop
  commit : World → Link → List Op → TxnStatus → World → Link → Prop
  insertFails : World → Table → Prop
  /-- The IDL skips a write of what a write-only column already holds. -/
  discards : World → RowId → (column : Column) → column.Arg → Prop
  symlinkFails : World → CString → Prop
  osRelease : World → Option (List (List UInt8)) → Prop
  versionDetail : World → Option (List YamlEvent) → Prop

/-- A connection just created. -/
def Link.initial : Link where
  replica := []
  seqno := 0
  hasLock := false
  isLockContended := false
  distinct := List.nodup_nil
  exclusive := nofun

/-- A daemon just started. -/
def State.boot {World : Type} (world : World) : State World where
  world := world
  link := .initial
  txn := none
  nextTxn := 0
  idlSeqno := 0
  hwInitDoneSet := false
  examined := []

namespace State

variable {World : Type}

/-- The rows as the daemon sees them: the open transaction's effects included. -/
def view (state : State World) : Database :=
  match state.txn with
  | some txn => applyOps state.link.replica txn.ops
  | none => state.link.replica

/-- Record a request in the open transaction. -/
def push (state : State World) (txn : Txn) (op : Op) : State World :=
  { state with txn := some { txn with ops := txn.ops ++ [op] } }

@[simp] theorem push_world (state : State World) (txn : Txn) (op : Op) :
    (state.push txn op).world = state.world := rfl

@[simp] theorem push_link (state : State World) (txn : Txn) (op : Op) :
    (state.push txn op).link = state.link := rfl

@[simp] theorem push_txn (state : State World) (txn : Txn) (op : Op) :
    (state.push txn op).txn = some { txn with ops := txn.ops ++ [op] } := rfl

/-- With no transaction open the daemon sees its copy. -/
theorem view_closed {state : State World} (h : state.txn = none) :
    state.view = state.link.replica := by
  rw [view, h]

/-- It sees an operation of its transaction at once. -/
theorem view_push {state : State World} {txn : Txn} (h : state.txn = some txn) (op : Op) :
    (state.push txn op).view = op.apply state.view := by
  simp only [view, push_txn, push_link, h, applyOps_append]
  rfl

end State

/-- The effect of one call. With no transaction open, a column write is either
skipped or dereferences a null pointer; a second transaction cannot be created,
and a closed one takes no rows. -/
def step {World : Type} (env : Environment World) : Program.Semantics Calls (State World) :=
  fun before request =>
    match request with
    | .idlRun => fun _ after => ∃ world link, env.run before.world before.link world link ∧
        after = { before with world, link }
    | .isLockContended => fun answer after =>
        answer = before.link.isLockContended ∧ after = before
    | .hasLock => fun answer after => answer = before.link.hasLock ∧ after = before
    | .getSeqno => fun answer after => answer = before.link.seqno ∧ after = before
    | .loadIdlSeqno => fun answer after => answer = before.idlSeqno ∧ after = before
    | .storeIdlSeqno seqno => fun _ after =>
        after = { before with idlSeqno := seqno }
    | .loadHwInitDoneSet => fun answer after => answer = before.hwInitDoneSet ∧ after = before
    | .storeHwInitDoneSet value => fun _ after => after = { before with hwInitDoneSet := value }
    | .rows table => fun answer after => answer = before.view.ids table ∧ after = before
    | .read row column => fun answer after => answer = before.view.get row column ∧ after = before
    | .txnCreate => fun answer after => before.txn = none ∧ answer = before.nextTxn ∧
        after = { before with txn := some ⟨answer, []⟩, nextTxn := answer + 1 }
    | .insert txn table => fun answer after => ∃ current, before.txn = some current ∧
        current.id = txn ∧
          ((answer = none ∧ env.insertFails before.world table ∧ after = before) ∨
            ∃ row, (∀ existing ∈ before.view, existing.id ≠ row) ∧ answer = some row ∧
              after = before.push current (.insert row table))
    | .write row column arg => fun _ after =>
        match before.txn with
        | some current => ∃ value, column.shape.Stored arg value ∧
            after = before.push current (.write row column value)
        | none => env.discards before.world row column arg ∧ after = before
    | .commitBlock txn => fun answer after => ∃ current, before.txn = some current ∧
        current.id = txn ∧ ∃ world link,
          env.commit before.world before.link current.ops answer world link ∧
            after = { before with world, link, txn := none }
    | .txnDestroy txn => fun _ after =>
        after = { before with txn := before.txn.filter fun current => current.id ≠ txn }
    | .openOsRelease => fun answer after => env.osRelease before.world answer ∧ after = before
    | .openVersionDetail => fun answer after =>
        env.versionDetail before.world answer ∧ after = before
    | .calloc => fun _ after => after = before
    | .unlink => fun _ after => after = before
    | .symlink target => fun answer after =>
        (answer = false → env.symlinkFails before.world target) ∧ after = before
    | .daemonizeComplete => fun _ after => after = before
    | .unixctlServerRun => fun _ after => after = before
    | .pollBlock => fun _ after => after = before
    | .startPass => fun _ after =>
        after = { before with examined := before.link.seqno :: before.examined }
    | .fault _ => fun answer _ => answer.elim

end OpsSysd.Idl
