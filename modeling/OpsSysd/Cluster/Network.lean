import OpsSysd.Daemon.Run
import OpsSysd.Idl.Transforms
import Mathlib.Logic.Relation

/-! Any number of daemons that contend for the lock of one database server. Each
acts on a copy of the database; what it learns and what it asks for travels over
a connection that may close at any time. -/
namespace OpsSysd.Cluster

open Interaction Interaction.Program Idl Daemon

/-- A database whose rows are told apart by their ids. -/
structure Snapshot where
  rows : Database
  distinct : (rows.map Row.id).Nodup

/-- What the server sends. A grant of the lock and the reply to a commit come
with the effects of all earlier transactions. -/
inductive Message where
  | update (snapshot : Snapshot)
  | queued
  | granted (snapshot : Snapshot)
  | reply (status : TxnStatus) (snapshot : Snapshot)

/-- Where a daemon is: between two calls, or in `ovsdb_idl_txn_commit_block` with
a transaction that perhaps has a status by now. -/
inductive Phase where
  | running (program : Program Calls Bool)
  | committing (next : TxnStatus → Program Calls Bool) (status : Option TxnStatus)

namespace Phase

/-- Here `ovsdb_idl_run` works on the connection. -/
inductive Listens : Phase → Prop where
  | run (next : Unit → Program Calls Bool) : Listens (running (.call .idlRun next))
  | commit (next : TxnStatus → Program Calls Bool) (status : Option TxnStatus) :
      Listens (committing next status)

/-- A transaction without a status gets this one. -/
def settle (status : TxnStatus) : Phase → Phase
  | committing next none => committing next (some status)
  | phase => phase

/-- The transactions without a status. -/
def outstanding : Phase → Nat
  | committing _ none => 1
  | _ => 0

end Phase

/-- A daemon with its connection: what it has sent and the server has not taken,
and what the server has sent and it has not read. -/
structure Party where
  phase : Phase
  state : State Unit
  alive : Bool
  toServer : List (List Op)
  inbox : List Message

namespace Message

/-- What a message changes in the copy. Its sequence number may change too. -/
def apply (seqno : Nat) (link : Link) : Message → Link
  | update snapshot | reply _ snapshot =>
      { link with replica := snapshot.rows, distinct := snapshot.distinct, seqno }
  | queued => { link with isLockContended := !link.hasLock, exclusive := by simp, seqno }
  | granted snapshot =>
      { replica := snapshot.rows, distinct := snapshot.distinct, seqno, hasLock := true,
        isLockContended := false, exclusive := fun _ => rfl }

/-- What it changes in the phase. -/
def settle : Message → Phase → Phase
  | reply status _, phase => phase.settle status
  | _, phase => phase

end Message

namespace Party

/-- A daemon just started, not connected yet. -/
def started (config : Config) : Party where
  phase := .running (mainRound config)
  state := .boot ()
  alive := false
  toServer := []
  inbox := []

/-- What is sent on a closed connection is lost. -/
def submit (party : Party) (next : TxnStatus → Program Calls Bool) (ops : List Op) : Party :=
  { party with
    phase := .committing next none
    state := { party.state with txn := none }
    toServer := if party.alive then party.toServer ++ [ops] else party.toServer }

/-- A message is taken from the connection. -/
def receive (party : Party) (message : Message) (rest : List Message) (seqno : Nat) : Party :=
  { party with
    phase := message.settle party.phase
    state := { party.state with link := message.apply seqno party.state.link }
    inbox := rest }

/-- The library gives up the connection, and has a new one perhaps. -/
def reconnect (party : Party) (status : TxnStatus) (alive : Bool) : Party :=
  { party with
    phase := party.phase.settle status
    state := { party.state with link := { party.state.link with
      hasLock := false, isLockContended := false, exclusive := fun _ => rfl } }
    alive := alive
    toServer := []
    inbox := [] }

/-- The server sends these. -/
def send (party : Party) (messages : List Message) : Party :=
  { party with inbox := party.inbox ++ messages }

end Party

/-- The calls that a daemon makes without the server. -/
def Local : Request → Prop
  | .idlRun | .commitBlock _ => False
  | _ => True

/-- What a daemon does by itself. Only where the library listens does it take
messages and notice that its connection has closed. -/
inductive Move (config : Config) : Party → Party → Prop where
  | call {party : Party} {request : Request} {next : request.Response → Program Calls Bool}
      {answer : request.Response} {state : State Unit}
      (hPhase : party.phase = .running (.call request next)) (hLocal : Local request)
      (hStep : step anyEnv party.state request answer state) :
      Move config party { party with phase := .running (next answer), state }
  | receive {party : Party} {message : Message} {rest : List Message} (seqno : Nat)
      (hListens : party.phase.Listens) (hInbox : party.inbox = message :: rest) :
      Move config party (party.receive message rest seqno)
  | reconnect {party : Party} (status : TxnStatus) (alive : Bool)
      (hListens : party.phase.Listens) (hClosed : party.alive = false) :
      Move config party (party.reconnect status alive)
  | endRun {party : Party} {next : Unit → Program Calls Bool}
      (hPhase : party.phase = .running (.call .idlRun next)) :
      Move config party { party with phase := .running (next ()) }
  | submit {party : Party} {txn : TxnId} {next : TxnStatus → Program Calls Bool} {current : Txn}
      (hPhase : party.phase = .running (.call (.commitBlock txn) next))
      (hOpen : party.state.txn = some current) (hId : current.id = txn) :
      Move config party (party.submit next current.ops)
  | giveUp {party : Party} {txn : TxnId} {next : TxnStatus → Program Calls Bool} {current : Txn}
      (status : TxnStatus) (hPhase : party.phase = .running (.call (.commitBlock txn) next))
      (hOpen : party.state.txn = some current) (hId : current.id = txn) :
      Move config party { party with
        phase := .committing next (some status), state := { party.state with txn := none } }
  | endCommit {party : Party} {next : TxnStatus → Program Calls Bool} {status : TxnStatus}
      (hPhase : party.phase = .committing next (some status)) :
      Move config party { party with phase := .running (next status) }
  | nextRound {party : Party} (hPhase : party.phase = .running (.done false)) :
      Move config party { party with phase := .running (mainRound config) }

/-- How those calls are answered. -/
def localStep : Semantics Calls (State Unit) := fun before request answer after =>
  Local request ∧ step anyEnv before request answer after

/-- Without the server, a daemon moves call by call to what it asks for next. -/
theorem exists_moves {config : Config} {program : Program Calls Bool} {before after : State Unit}
    {request : Request} (reaches : Reaches localStep program before request after) (party : Party) :
    ∃ next, Relation.ReflTransGen (Move config)
      { party with phase := .running program, state := before }
      { party with phase := .running (.call request next), state := after } := by
  induction reaches with
  | here request next state => exact ⟨next, .refl⟩
  | later first _ ih =>
      obtain ⟨next, hMoves⟩ := ih
      exact ⟨next, .head (.call rfl first.1 first.2) hMoves⟩

/-- The server's database and its lock, and the daemons. -/
structure Network (ι : Type) where
  db : Snapshot
  holder : Option ι
  parties : ι → Party

namespace Network

variable {ι : Type} [DecidableEq ι]

/-- A network in which no daemon has connected yet. -/
def initial (config : ι → Config) (db : Snapshot) : Network ι where
  db := db
  holder := none
  parties i := .started (config i)

def set (net : Network ι) (i : ι) (party : Party) : Network ι :=
  { net with parties := Function.update net.parties i party }

theorem parties_set_self (net : Network ι) (i : ι) (party : Party) :
    (net.set i party).parties i = party := Function.update_self _ _ _

theorem parties_set_other (net : Network ι) {i j : ι} (hOther : j ≠ i) (party : Party) :
    (net.set i party).parties j = net.parties j := Function.update_of_ne hOther _ _

/-- The lock is free if this daemon had it. -/
def release (net : Network ι) (i : ι) : Network ι :=
  { net with holder := net.holder.filter fun holder => holder ≠ i }

/-- The server has this transaction at hand, from the holder of the lock. -/
structure MayApply (net : Network ι) (i : ι) (ops : List Op) : Prop where
  alive : (net.parties i).alive = true
  next : (net.parties i).toServer.head? = some ops
  holder : net.holder = some i

/-- One step of the whole system. The server may apply a transaction or not, and
reply what it likes; the lock is taken away only with the connection, whose
undelivered requests are lost, and some of the undelivered messages. Other
clients may change anything, but insert no System row. -/
inductive Step (config : ι → Config) : Network ι → Network ι → Prop where
  | move {net : Network ι} {i : ι} {party : Party} (hMove : Move (config i) (net.parties i) party) :
      Step config net (net.set i party)
  | serve {net : Network ι} {i : ι} {ops : List Op} {rest : List (List Op)} (status : TxnStatus)
      (db : Snapshot) (hAlive : (net.parties i).alive = true)
      (hRequest : (net.parties i).toServer = ops :: rest)
      (hDb : db = net.db ∨ (net.MayApply i ops ∧ db.rows = applyOps net.db.rows ops)) :
      Step config net (({ net with db } : Network ι).set i
        (({ net.parties i with toServer := rest } : Party).send [.update db, .reply status db]))
  | update {net : Network ι} {i : ι} (hAlive : (net.parties i).alive = true) :
      Step config net (net.set i ((net.parties i).send [.update net.db]))
  | queue {net : Network ι} {i : ι} (hAlive : (net.parties i).alive = true)
      (hHolder : net.holder ≠ some i) :
      Step config net (net.set i ((net.parties i).send [.queued]))
  | grant {net : Network ι} {i : ι} (hAlive : (net.parties i).alive = true)
      (hFree : net.holder = none) :
      Step config net (({ net with holder := some i } : Network ι).set i
        ((net.parties i).send [.granted net.db]))
  | close {net : Network ι} {i : ι} {inbox : List Message} (hInbox : inbox <+: (net.parties i).inbox) :
      Step config net ((net.release i).set i
        { net.parties i with alive := false, toServer := [], inbox })
  | restart {net : Network ι} {i : ι} :
      Step config net ((net.release i).set i (.started (config i)))
  | other {net : Network ι} (db : Snapshot)
      (hSystem : (db.rows.ids .system).Sublist (net.db.rows.ids .system)) :
      Step config net { net with db }

/-- The networks that a run from this database leads to. -/
def Reachable (config : ι → Config) (db : Snapshot) : Network ι → Prop :=
  Relation.ReflTransGen (Step config) (initial config db)

/-- An instance may make several moves on its own. -/
theorem Reachable.moves {config : ι → Config} {db : Snapshot} {net : Network ι}
    (h : Reachable config db net) {i : ι} {party : Party}
    (hMoves : Relation.ReflTransGen (Move (config i)) (net.parties i) party) :
    Reachable config db (net.set i party) := by
  induction hMoves with
  | refl =>
      rw [set, Function.update_eq_self]
      exact h
  | @tail middle last _ hMove ih =>
      have hLast : (net.set i middle).set i last = net.set i last := by
        rw [set, set, set, Function.update_idem]
      rw [← hLast]
      refine ih.tail (.move ?_)
      rwa [parties_set_self]

end Network
end OpsSysd.Cluster
