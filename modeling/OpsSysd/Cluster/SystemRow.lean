import OpsSysd.Cluster.Caution

/-! The System row is unique. A daemon decides on its copy to insert the row, and
by then the copy may be old; it is not while the daemon has the lock and nothing
of its own is on the way. -/
namespace OpsSysd.Cluster

open Interaction Interaction.Program Idl Daemon

section Copies

/-- A copy shows the System row if the database has one. -/
def Shows (db : Snapshot) (copy : Database) : Prop := db.rows.Has .system → copy.Has .system

/-- The copy that a message brings shows it. -/
def Message.Shows (db : Snapshot) : Message → Prop
  | .update snapshot | .granted snapshot | .reply _ snapshot => Cluster.Shows db snapshot.rows
  | .queued => True

def Message.isReply : Message → Bool
  | .reply _ _ => true
  | _ => false

def Message.isGrant : Message → Bool
  | .granted _ => true
  | _ => false

/-- The replies on their way to the daemon. -/
def Party.replies (party : Party) : Nat := party.inbox.countP Message.isReply

/-- What the holder of the lock knows of the System row: its copy shows it, or
will when it has the reply that it waits for, or the grant. -/
inductive Informed (db : Snapshot) (link : Link) (inbox : List Message) : Prop where
  | current (hLock : link.hasLock = true) (hCopy : Shows db link.replica)
      (hInbox : ∀ message ∈ inbox, message.Shows db)
  | replied (hLock : link.hasLock = true) {before later : List Message} {status : TxnStatus}
      {snapshot : Snapshot} (hInbox : inbox = before ++ .reply status snapshot :: later)
      (hCopy : Shows db snapshot.rows) (hLater : ∀ message ∈ later, message.Shows db)
  | granted (hLock : link.hasLock = false) {before later : List Message} {snapshot : Snapshot}
      (hInbox : inbox = before ++ .granted snapshot :: later)
      (hBefore : ∀ message ∈ before, message.isGrant = false) (hCopy : Shows db snapshot.rows)
      (hLater : ∀ message ∈ later, message.Shows db)

variable {db db' : Snapshot} {link : Link} {inbox : List Message}

/-- A copy shows no less of a database that has got no System row meanwhile. -/
theorem Shows.later {copy : Database} (h : Shows db copy)
    (hDb : db'.rows.Has .system → db.rows.Has .system) : Shows db' copy :=
  fun hHas => h (hDb hHas)

theorem Message.Shows.later {message : Message} (h : message.Shows db)
    (hDb : db'.rows.Has .system → db.rows.Has .system) : message.Shows db' := by
  cases message with
  | queued => trivial
  | _ => exact Cluster.Shows.later h hDb

/-- A copy that shows the row does so after the next message. -/
theorem Message.Shows.apply {message : Message} (h : message.Shows db) (seqno : Nat) {link : Link}
    (hCopy : Cluster.Shows db link.replica) : Cluster.Shows db (message.apply seqno link).replica := by
  cases message with
  | queued => exact hCopy
  | _ => exact h

/-- The daemon keeps the lock, and gets it with a grant only. -/
theorem hasLock_apply (message : Message) (seqno : Nat) (link : Link) :
    (message.apply seqno link).hasLock = (link.hasLock || message.isGrant) := by
  cases message <;> simp [Message.apply, Message.isGrant]

/-- Neither do the copies that are on their way. -/
theorem Informed.later (h : Informed db link inbox)
    (hDb : db'.rows.Has .system → db.rows.Has .system) : Informed db' link inbox := by
  cases h with
  | current hLock hCopy hInbox =>
      exact .current hLock (hCopy.later hDb) fun message hMem => (hInbox message hMem).later hDb
  | replied hLock hInbox hCopy hLater =>
      exact .replied hLock hInbox (hCopy.later hDb) fun message hMem => (hLater message hMem).later hDb
  | granted hLock hInbox hBefore hCopy hLater =>
      exact .granted hLock hInbox hBefore (hCopy.later hDb)
        fun message hMem => (hLater message hMem).later hDb

/-- It stays informed when the server sends what is up to date. -/
theorem Informed.send (h : Informed db link inbox) {messages : List Message}
    (hMessages : ∀ message ∈ messages, message.Shows db) : Informed db link (inbox ++ messages) := by
  cases h with
  | current hLock hCopy hInbox =>
      exact .current hLock hCopy (List.forall_mem_append.mpr ⟨hInbox, hMessages⟩)
  | @replied hLock before later status snapshot hInbox hCopy hLater =>
      have hSent : inbox ++ messages = before ++ .reply status snapshot :: (later ++ messages) := by
        rw [hInbox, List.append_assoc, List.cons_append]
      exact .replied hLock hSent hCopy (List.forall_mem_append.mpr ⟨hLater, hMessages⟩)
  | @granted hLock before later snapshot hInbox hBefore hCopy hLater =>
      have hSent : inbox ++ messages = before ++ .granted snapshot :: (later ++ messages) := by
        rw [hInbox, List.append_assoc, List.cons_append]
      exact .granted hLock hSent hBefore hCopy (List.forall_mem_append.mpr ⟨hLater, hMessages⟩)

/-- And when the daemon reads the next message. -/
theorem Informed.receive {message : Message} (h : Informed db link (message :: inbox)) (seqno : Nat) :
    Informed db (message.apply seqno link) inbox := by
  have hKept (hLock : link.hasLock = true) : (message.apply seqno link).hasLock = true := by
    rw [hasLock_apply, hLock, Bool.true_or]
  cases h with
  | current hLock hCopy hInbox =>
      rw [List.forall_mem_cons] at hInbox
      exact .current (hKept hLock) (hInbox.1.apply seqno hCopy) hInbox.2
  | @replied hLock before later status snapshot hInbox hCopy hLater =>
      cases before with
      | nil =>
          obtain ⟨rfl, rfl⟩ := List.cons.inj hInbox
          exact .current (hKept hLock) hCopy hLater
      | cons first before =>
          obtain ⟨rfl, rfl⟩ := List.cons.inj hInbox
          exact .replied (hKept hLock) rfl hCopy hLater
  | @granted hLock before later snapshot hInbox hBefore hCopy hLater =>
      cases before with
      | nil =>
          obtain ⟨rfl, rfl⟩ := List.cons.inj hInbox
          exact .current rfl hCopy hLater
      | cons first before =>
          obtain ⟨rfl, rfl⟩ := List.cons.inj hInbox
          rw [List.forall_mem_cons] at hBefore
          refine .granted ?_ rfl hBefore.2 hCopy hLater
          rw [hasLock_apply, hLock, hBefore.1, Bool.or_self]

end Copies

section Invariant

variable {db db' : Snapshot} {holds : Prop} {party after : Party} {config : Config}

/-- How a daemon and its connection stand, the server having this database and
the daemon the lock or not. What it has asked for as a configuration it has asked
for under the lock, and the database still has no System row. -/
structure Fits (db : Snapshot) (holds : Prop) (party : Party) : Prop where
  sound : party.Sound
  pending : party.alive = true →
    party.toServer.length + party.replies ≤ party.phase.outstanding
  locked : party.alive = true → party.state.link.hasLock = true → holds
  granted : party.alive = true → (∃ message ∈ party.inbox, message.isGrant = true) → holds
  asked : party.alive = true → ∀ ops ∈ party.toServer, Configuration ops →
    party.state.link.hasLock = true ∧ ¬ db.rows.Has .system ∧
      ∃ system, insertions .system ops = [system]
  informed : holds → party.alive = true ∧ Informed db party.state.link party.inbox

/-- A daemon without a connection does no harm. -/
theorem Fits.of_closed (sound : party.Sound) (hClosed : party.alive = false) (hFree : ¬ holds) :
    Fits db holds party := by
  have hDead : party.alive ≠ true := by simp [hClosed]
  exact ⟨sound, fun h => absurd h hDead, fun h => absurd h hDead, fun h => absurd h hDead,
    fun h => absurd h hDead, fun h => absurd h hFree⟩

/-- A transaction of another daemon does not concern a daemon without the lock. -/
theorem Fits.of_not_holds (h : Fits db holds party) (hFree : ¬ holds) : Fits db' holds party where
  sound := h.sound
  pending := h.pending
  locked := h.locked
  granted := h.granted
  asked hAlive ops hOps hConfiguration :=
    absurd (h.locked hAlive (h.asked hAlive ops hOps hConfiguration).1) hFree
  informed hHolds := absurd hHolds hFree

/-- An instance goes on fitting a database that has got no System row meanwhile. -/
theorem Fits.later (h : Fits db holds party) (hDb : db'.rows.Has .system → db.rows.Has .system) :
    Fits db' holds party where
  sound := h.sound
  pending := h.pending
  locked := h.locked
  granted := h.granted
  asked hAlive ops hOps hConfiguration :=
    have hAsked := h.asked hAlive ops hOps hConfiguration
    ⟨hAsked.1, fun hHas => hAsked.2.1 (hDb hHas), hAsked.2.2⟩
  informed hHolds := ⟨(h.informed hHolds).1, (h.informed hHolds).2.later hDb⟩

/-- Where nothing is on the way from it, the holder's copy is current. -/
theorem Fits.current (h : Fits db holds party) (hAlive : party.alive = true)
    (hLock : party.state.link.hasLock = true) (hIdle : party.phase.outstanding = 0) :
    Shows db party.state.link.replica := by
  cases (h.informed (h.locked hAlive hLock)).2 with
  | current _ hCopy _ => exact hCopy
  | @replied _ before later status snapshot hInbox _ _ =>
      have hPending := h.pending hAlive
      rw [hIdle, Party.replies, hInbox, List.countP_append, List.countP_cons_of_pos rfl] at hPending
      omega
  | granted hUnlocked _ _ _ _ => exact absurd hLock (by simp [hUnlocked])

/-- A daemon that goes on between two calls changes nothing about its connection. -/
theorem Fits.proceed (h : Fits db holds party) (sound : after.Sound)
    (hIdle : party.phase.outstanding = 0) (hAlive : after.alive = party.alive)
    (hToServer : after.toServer = party.toServer) (hInbox : after.inbox = party.inbox)
    (hLink : after.state.link = party.state.link) : Fits db holds after where
  sound := sound
  pending h' := by
    have hPending := h.pending (hAlive ▸ h')
    rw [hToServer, Party.replies, hInbox]
    exact Nat.le_trans hPending (hIdle ▸ Nat.zero_le _)
  locked h' hLock := h.locked (hAlive ▸ h') (hLink ▸ hLock)
  granted h' hGrant := h.granted (hAlive ▸ h') (hInbox ▸ hGrant)
  asked h' ops hOps hConfiguration := by
    rw [hLink]
    exact h.asked (hAlive ▸ h') ops (hToServer ▸ hOps) hConfiguration
  informed hHolds := by
    rw [hAlive, hLink, hInbox]
    exact h.informed hHolds

theorem toServer_submit (party : Party) (next : TxnStatus → Program Calls Bool) (ops : List Op)
    (hAlive : party.alive = true) :
    (party.submit next ops).toServer = party.toServer ++ [ops] := if_pos hAlive

/-- What is asked for is asked for with caution. -/
theorem Fits.submit (h : Fits db holds party) {txn : TxnId} {next : TxnStatus → Program Calls Bool}
    {current : Txn} (sound : (party.submit next current.ops).Sound)
    (hPhase : party.phase = .running (.call (.commitBlock txn) next))
    (hOpen : party.state.txn = some current) : Fits db holds (party.submit next current.ops) where
  sound := sound
  pending hAlive := by
    have hPending := h.pending hAlive
    rw [hPhase] at hPending
    rw [toServer_submit party next current.ops hAlive, List.length_append]
    change party.toServer.length + 1 + party.replies ≤ 1
    change _ ≤ 0 at hPending
    omega
  locked := h.locked
  granted := h.granted
  asked hAlive ops hOps hConfiguration := by
    rw [toServer_submit party next current.ops hAlive, List.mem_append, List.mem_singleton] at hOps
    rcases hOps with hOld | rfl
    · exact h.asked hAlive ops hOld hConfiguration
    · have hSafe := (sound_running hPhase).mp h.sound
      obtain ⟨hLock, hNone, hOne⟩ := hSafe.1 txn current rfl hOpen hConfiguration
      have hCopy := h.current hAlive hLock (by rw [hPhase]; rfl)
      exact ⟨hLock, fun hHas => hNone (hCopy hHas), hOne⟩
  informed := h.informed

/-- An instance waits for one answer at most. -/
theorem outstanding_le_one (phase : Phase) : phase.outstanding ≤ 1 := by
  cases phase with
  | running program => exact Nat.zero_le _
  | committing next status => cases status <;> simp [Phase.outstanding]

/-- A reply ends the commit that waits for it. -/
theorem replies_receive {message : Message} {rest : List Message} (seqno : Nat)
    (hNext : party.inbox = message :: rest)
    (hPending : party.toServer.length + party.replies ≤ party.phase.outstanding) :
    party.toServer.length + (party.receive message rest seqno).replies ≤
      (message.settle party.phase).outstanding := by
  rw [Party.replies, hNext] at hPending
  cases message with
  | reply status snapshot =>
      rw [List.countP_cons_of_pos rfl] at hPending
      have hOne := outstanding_le_one party.phase
      have hNone : party.toServer.length + rest.countP Message.isReply = 0 := by omega
      exact Nat.le_trans (Nat.le_of_eq hNone) (Nat.zero_le _)
  | _ =>
      rw [List.countP_cons_of_neg (by simp [Message.isReply])] at hPending
      exact hPending

/-- An instance that takes in its next message goes on fitting. -/
theorem Fits.receive (h : Fits db holds party) {message : Message} {rest : List Message}
    (seqno : Nat) (sound : (party.receive message rest seqno).Sound)
    (hNext : party.inbox = message :: rest) : Fits db holds (party.receive message rest seqno) where
  sound := sound
  pending hAlive := replies_receive seqno hNext (h.pending hAlive)
  locked hAlive hLock := by
    rw [Party.receive, hasLock_apply, Bool.or_eq_true] at hLock
    rcases hLock with hOld | hGrant
    · exact h.locked hAlive hOld
    · exact h.granted hAlive ⟨message, hNext ▸ List.mem_cons_self, hGrant⟩
  granted hAlive hGrant := by
    obtain ⟨other, hMem, hOther⟩ := hGrant
    exact h.granted hAlive ⟨other, hNext ▸ List.mem_cons_of_mem _ hMem, hOther⟩
  asked hAlive ops hOps hConfiguration := by
    obtain ⟨hLock, hAsked⟩ := h.asked hAlive ops hOps hConfiguration
    refine ⟨?_, hAsked⟩
    rw [Party.receive, hasLock_apply, hLock, Bool.true_or]
  informed hHolds := by
    obtain ⟨hAlive, hInformed⟩ := h.informed hHolds
    rw [hNext] at hInformed
    exact ⟨hAlive, hInformed.receive seqno⟩

/-- What a daemon does by itself keeps the invariant. -/
theorem Fits.move (h : Fits db holds party) (hMove : Move config party after) :
    Fits db holds after := by
  have hSound := h.sound.move hMove
  cases hMove with
  | call hPhase hLocal hStep =>
      exact h.proceed hSound (by rw [hPhase]; rfl) rfl rfl rfl (step_link hStep hLocal)
  | receive seqno hListens hInbox => exact h.receive seqno hSound hInbox
  | reconnect status alive hListens hClosed =>
      have hFree : ¬ holds := fun hHolds => by simp [(h.informed hHolds).1] at hClosed
      exact ⟨hSound, fun _ => Nat.zero_le _, fun _ hLock => absurd hLock Bool.false_ne_true,
        by simp [Party.reconnect], by simp [Party.reconnect], fun hHolds => absurd hHolds hFree⟩
  | endRun hPhase => exact h.proceed hSound (by rw [hPhase]; rfl) rfl rfl rfl rfl
  | submit hPhase hOpen hId => exact h.submit hSound hPhase hOpen
  | giveUp status hPhase hOpen hId => exact h.proceed hSound (by rw [hPhase]; rfl) rfl rfl rfl rfl
  | endCommit hPhase => exact h.proceed hSound (by rw [hPhase]; rfl) rfl rfl rfl rfl
  | nextRound hPhase => exact h.proceed hSound (by rw [hPhase]; rfl) rfl rfl rfl rfl

/-- The server sends something other than a reply or a grant. -/
theorem Fits.send (h : Fits db holds party) {message : Message} (hShows : message.Shows db)
    (hReply : message.isReply = false) (hGrant : message.isGrant = false) :
    Fits db holds (party.send [message]) where
  sound := h.sound
  pending hAlive := by
    rw [Party.replies, Party.send, List.countP_append, List.countP_singleton, hReply]
    exact h.pending hAlive
  locked := h.locked
  granted hAlive hSome := by
    obtain ⟨other, hMem, hOther⟩ := hSome
    rcases List.mem_append.mp hMem with hOld | hNew
    · exact h.granted hAlive ⟨other, hOld, hOther⟩
    · rw [List.mem_singleton.mp hNew, hGrant] at hOther
      cases hOther
  asked := h.asked
  informed hHolds := ⟨(h.informed hHolds).1, (h.informed hHolds).2.send (by simpa using hShows)⟩

/-- The lock is free and the daemon gets it. -/
theorem Fits.grant (h : Fits db holds party) (hFree : ¬ holds) (hAlive : party.alive = true) :
    Fits db True (party.send [.granted db]) where
  sound := h.sound
  pending hAlive := by
    rw [Party.replies, Party.send, List.countP_append, List.countP_singleton]
    exact h.pending hAlive
  locked _ _ := trivial
  granted _ _ := trivial
  asked := h.asked
  informed _ := by
    have hUnlocked : party.state.link.hasLock = false := by
      refine Bool.eq_false_iff.mpr fun hLock => hFree (h.locked hAlive hLock)
    refine ⟨hAlive, .granted hUnlocked rfl (fun message hMem => ?_) id (by simp)⟩
    exact Bool.eq_false_iff.mpr fun hGrant => hFree (h.granted hAlive ⟨message, hMem, hGrant⟩)

/-- A transaction without a System row does not give the database one. -/
theorem has_of_not_configuration {ops : List Op} (hOps : ¬ Configuration ops)
    (hRows : db'.rows = applyOps db.rows ops) (hHas : db'.rows.Has .system) :
    db.rows.Has .system := by
  have hIds : db'.rows.ids .system = db.rows.ids .system := by
    rw [hRows, ids_applyOps, not_not.mp hOps, List.append_nil]
  by_contra hNone
  exact Database.ids_eq_nil.mp (hIds.trans (Database.ids_eq_nil.mpr hNone)) hHas

/-- The server takes a transaction, applies it if the daemon has the lock, and
replies. -/
theorem Fits.serve (h : Fits db holds party) {ops : List Op} {rest : List (List Op)}
    (status : TxnStatus) (hRequest : party.toServer = ops :: rest)
    (hDb : db' = db ∨ (holds ∧ db'.rows = applyOps db.rows ops)) :
    Fits db' holds (({ party with toServer := rest } : Party).send
      [.update db', .reply status db']) where
  sound := h.sound
  pending hAlive := by
    have hPending := h.pending hAlive
    rw [hRequest, List.length_cons] at hPending
    rw [Party.replies, Party.send, List.countP_append]
    change rest.length + (party.replies + 1) ≤ party.phase.outstanding
    omega
  locked := h.locked
  granted hAlive hSome := by
    obtain ⟨other, hMem, hOther⟩ := hSome
    rcases List.mem_append.mp hMem with hOld | hNew
    · exact h.granted hAlive ⟨other, hOld, hOther⟩
    · rcases List.mem_pair.mp hNew with rfl | rfl
      · cases hOther
      · cases hOther
  asked hAlive other hMem _ := by
    have hPending := Nat.le_trans (h.pending hAlive) (outstanding_le_one _)
    have hSome := List.length_pos_of_mem hMem
    rw [hRequest, List.length_cons] at hPending
    change 0 < rest.length at hSome
    omega
  informed hHolds := by
    obtain ⟨hAlive, hInformed⟩ := h.informed hHolds
    refine ⟨hAlive, ?_⟩
    cases hLock : party.state.link.hasLock with
    | true =>
        have hSplit : party.inbox ++ [.update db', .reply status db'] =
            (party.inbox ++ [.update db']) ++ .reply status db' :: [] := by simp
        exact .replied hLock hSplit id (by simp)
    | false =>
        have hHas : db'.rows.Has .system → db.rows.Has .system := by
          rcases hDb with rfl | ⟨-, hRows⟩
          · exact id
          · refine has_of_not_configuration (fun hConfiguration => ?_) hRows
            have hAsked := h.asked hAlive ops (hRequest ▸ List.mem_cons_self) hConfiguration
            exact absurd hAsked.1 (by simp [hLock])
        refine (hInformed.later hHas).send fun message hMem => ?_
        rcases List.mem_pair.mp hMem with rfl | rfl
        · exact id
        · exact id

end Invariant

namespace Network

variable {ι : Type} {config : ι → Config} {start : Snapshot} {net after : Network ι}

/-- Every daemon fits, and there are no more System rows than one, or than there
were at the start. -/
structure Orderly (start : Snapshot) (net : Network ι) : Prop where
  fits (i : ι) : Fits net.db (net.holder = some i) (net.parties i)
  rows : (net.db.rows.ids .system).length ≤ max 1 (start.rows.ids .system).length

/-- What the server applies is the first System row, or none. -/
theorem Orderly.applied (h : Orderly start net) {i : ι} {ops : List Op} (hMay : net.MayApply i ops)
    (hConfiguration : Configuration ops) :
    ¬ net.db.rows.Has .system ∧ ∃ system, insertions .system ops = [system] :=
  ((h.fits i).asked hMay.alive ops (List.mem_of_mem_head? hMay.next) hConfiguration).2

/-- A transaction that the server applies makes no second System row. -/
theorem Orderly.rows_applied (h : Orderly start net) {i : ι} {ops : List Op}
    (hMay : net.MayApply i ops) :
    ((applyOps net.db.rows ops).ids .system).length ≤ max 1 (start.rows.ids .system).length := by
  rw [ids_applyOps]
  by_cases hConfiguration : Configuration ops
  · obtain ⟨hNone, system, hOne⟩ := h.applied hMay hConfiguration
    rw [Database.ids_eq_nil.mpr hNone, hOne]
    exact Nat.le_max_left _ _
  · rw [not_not.mp hConfiguration, List.append_nil]
    exact h.rows

/-- At the start nobody holds the lock or waits for an answer. -/
theorem initial_orderly (config : ι → Config) (start : Snapshot) :
    Orderly start (initial config start) where
  fits _ := Fits.of_closed started_sound rfl (Option.some_ne_none _).symm
  rows := Nat.le_max_right _ _

variable [DecidableEq ι]

/-- An instance that fits may be put in the place of what it was. -/
theorem fits_set {i : ι} {party : Party} (hParty : Fits net.db (net.holder = some i) party)
    (hOthers : ∀ j, j ≠ i → Fits net.db (net.holder = some j) (net.parties j)) (j : ι) :
    Fits (net.set i party).db ((net.set i party).holder = some j) ((net.set i party).parties j) := by
  by_cases hSame : j = i
  · subst hSame
    rw [parties_set_self]
    exact hParty
  · rw [parties_set_other net hSame]
    exact hOthers j hSame

/-- Giving up the lock takes it from nobody else. -/
theorem holder_release {i j : ι} (hOther : j ≠ i) :
    (net.release i).holder = some j ↔ net.holder = some j := by
  rw [release, Option.filter_eq_some_iff]
  exact and_iff_left (by simpa using hOther)

theorem not_holder_release (i : ι) : (net.release i).holder ≠ some i := by
  simp [release, Option.filter_eq_some_iff]

/-- After an instance has stopped and its lock is given up, all fit. -/
theorem fits_release (h : Orderly start net) {i : ι} {party : Party} (sound : party.Sound)
    (hClosed : party.alive = false) (j : ι) :
    Fits ((net.release i).set i party).db (((net.release i).set i party).holder = some j)
      (((net.release i).set i party).parties j) := by
  refine fits_set (Fits.of_closed sound hClosed (not_holder_release i)) (fun j hj => ?_) j
  rw [holder_release hj]
  exact h.fits j

/-- Every step of the cluster keeps it orderly. -/
theorem Orderly.step (h : Orderly start net) (hStep : Step config net after) : Orderly start after := by
  cases hStep with
  | @move i party hMove => exact ⟨fits_set ((h.fits i).move hMove) fun j _ => h.fits j, h.rows⟩
  | @serve i ops rest status db hAlive hRequest hDb =>
      refine ⟨fits_set ?_ fun j hj => ?_, ?_⟩
      · exact (h.fits i).serve status hRequest (hDb.imp id fun hApplied => ⟨hApplied.1.holder, hApplied.2⟩)
      · rcases hDb with rfl | ⟨hMay, -⟩
        · exact h.fits j
        · refine (h.fits j).of_not_holds fun hHolds => hj ?_
          exact Option.some.inj (hHolds.symm.trans hMay.holder)
      · rcases hDb with rfl | ⟨hMay, hRows⟩
        · exact h.rows
        · exact hRows ▸ h.rows_applied hMay
  | @update i hAlive =>
      exact ⟨fits_set ((h.fits i).send id rfl rfl) fun j _ => h.fits j, h.rows⟩
  | @queue i hAlive hHolder =>
      exact ⟨fits_set ((h.fits i).send trivial rfl rfl) fun j _ => h.fits j, h.rows⟩
  | @grant i hAlive hFree =>
      have hNot (j : ι) : net.holder ≠ some j := by simp [hFree]
      refine ⟨fits_set ?_ fun j hj => ?_, h.rows⟩
      · have hGranted := (h.fits i).grant (hNot i) hAlive
        simpa using hGranted
      · have hSame : (some i = some j) ↔ net.holder = some j :=
          iff_of_false (fun hSome => hj (Option.some.inj hSome).symm) (hNot j)
        rw [hSame]
        exact h.fits j
  | @close i inbox hInbox =>
      refine ⟨fits_release h ?_ rfl, h.rows⟩
      exact (h.fits i).sound
  | @restart i => exact ⟨fits_release h started_sound rfl, h.rows⟩
  | @other db hSystem =>
      have hHas : db.rows.Has .system → net.db.rows.Has .system := by
        intro hHas hNone
        rw [Database.ids, Database.ids, hNone] at hSystem
        exact hHas (List.map_eq_nil_iff.mp (List.sublist_nil.mp hSystem))
      exact ⟨fun i => (h.fits i).later hHas, Nat.le_trans hSystem.length_le h.rows⟩

/-- So it is orderly in every run. -/
theorem Reachable.orderly (h : Reachable config start net) : Orderly start net := by
  induction h with
  | refl => exact initial_orderly config start
  | tail _ hStep ih => exact ih.step hStep

/-- A database with no rows. -/
def emptyDb : Snapshot := ⟨[], List.nodup_nil⟩

/-- The initial configuration asks the server for nothing. -/
theorem sysdInitialConfigure_local (config : Config) (txn : TxnId) :
    (sysdInitialConfigure config txn).Issues Local := by
  rw [sysdInitialConfigure, issues_insertRow_bind]
  refine ⟨trivial, trivial, fun system => (fills_of_lists (configureSystem_lists system)).mono ?_⟩
  intro request hFilling
  cases request with
  | idlRun | commitBlock _ => exact hFilling.elim
  | _ => trivial

/-- A first pass under the lock comes to the commit of its configuration. -/
theorem reaches_first_commit : ∃ (state : State Unit) (ops : List Op)
    (next : Unit → Program Calls Bool), mainRound (.onePort []) = .call .idlRun next ∧
      Reaches localStep (next ()) { State.boot () with link := emptyLink } (.commitBlock 0) state ∧
      state.txn = some ⟨0, ops⟩ ∧ Configuration ops := by
  let connected : State Unit := { State.boot () with link := emptyLink }
  obtain ⟨state, ops, hNoted, hOpen, hConfiguration, -⟩ := exec_partial
  have hInitial : Exec localStep (sysdInitialConfigure (.onePort []) 0) creating () state :=
    hNoted.of_noted.restrict (sysdInitialConfigure_local _ _) fun _ _ _ _ hLocal hStep =>
      And.intro hLocal hStep
  let started : State Unit := { connected with examined := [1] }
  have hStart : localStep connected .startPass () started := ⟨trivial, rfl⟩
  have hStore : localStep started (.storeIdlSeqno 1) () (sampled connected) := ⟨trivial, rfl⟩
  have hCommit : Reaches localStep (sysdInitialConfigure (.onePort []) 0 >>= fun _ =>
      commitBlock 0 >>= fun _ => txnDestroy 0) creating (.commitBlock 0) state :=
    Reaches.bind_right hInitial (.here _ _ _)
  have hCreate : localStep (sampled connected) .txnCreate (0 : TxnId) creating :=
    ⟨trivial, rfl, rfl, rfl⟩
  have hFirst : Reaches localStep (configureFirst (.onePort [])) (sampled connected) (.commitBlock 0)
      state := .later hCreate hCommit
  have hChange : Reaches localStep (processChange (.onePort [])) connected (.commitBlock 0) state := by
    rw [processChange_eq]
    refine .later hStart (.later ⟨trivial, rfl, rfl⟩ (.later hStore ?_))
    exact .later ⟨trivial, rfl, rfl⟩ hFirst.bind_left
  refine ⟨state, ops, _, rfl, Reaches.bind_left ?_, hOpen, hConfiguration⟩
  refine .later ⟨trivial, rfl, rfl⟩ (.later ⟨trivial, rfl, rfl⟩ ?_)
  exact .later ⟨trivial, rfl, rfl⟩ (.later ⟨trivial, rfl, rfl⟩ hChange.bind_left)

/-- Any daemon of any number of them may be the one that configures. -/
theorem exists_first_commit (i : ι) : ∃ (net : Network ι) (ops : List Op),
    Reachable (fun _ => .onePort []) emptyDb net ∧ net.MayApply i ops ∧ Configuration ops := by
  obtain ⟨state, ops, next, hRound, hReaches, hOpen, hConfiguration⟩ := reaches_first_commit
  let connected : Party := (Party.started (.onePort [])).reconnect .tryAgain true
  let holding : Party := connected.send [.granted emptyDb]
  let reading : Party := holding.receive (.granted emptyDb) [] 1
  have hListens : Phase.Listens (.running (mainRound (.onePort []))) := hRound ▸ .run next
  obtain ⟨rest, hCalls⟩ := @exists_moves (.onePort []) _ _ _ _ hReaches reading
  let asking : Party := { reading with phase := .running (.call (.commitBlock 0) rest), state }
  have hSubmit : Move (.onePort []) asking (asking.submit rest ops) :=
    @Move.submit _ asking 0 rest ⟨0, ops⟩ rfl hOpen rfl
  have hMoves : Relation.ReflTransGen (Move (.onePort [])) holding (asking.submit rest ops) :=
    .head (.receive 1 hListens rfl) (.head (.endRun (congrArg Phase.running hRound))
      (hCalls.tail hSubmit))
  let start : Network ι := initial (fun _ => .onePort []) emptyDb
  have hConnected : Reachable (fun _ => .onePort []) emptyDb (start.set i connected) :=
    .tail .refl (.move (.reconnect _ _ hListens rfl))
  have hGranted : Reachable (fun _ => .onePort []) emptyDb
      (({ start.set i connected with holder := some i } : Network ι).set i holding) := by
    have hStep := @Step.grant ι _ (fun _ => .onePort []) (start.set i connected) i
    rw [parties_set_self] at hStep
    exact hConnected.tail (hStep rfl rfl)
  rw [← parties_set_self ({ start.set i connected with holder := some i } : Network ι) i holding]
    at hMoves
  refine ⟨_, ops, hGranted.moves hMoves, ⟨?_, ?_, rfl⟩, hConfiguration⟩
  · rw [parties_set_self]
    rfl
  · rw [parties_set_self]
    rfl

/-- However the daemons contend for the lock and their connections come and go,
a configuration is applied to a database without a System row only, and gives it
one; so there is never a second. -/
theorem at_most_one_system_row (h : Reachable config start net) :
    (net.db.rows.ids .system).length ≤ max 1 (start.rows.ids .system).length ∧
      ∀ i ops, net.MayApply i ops → Configuration ops →
        ¬ net.db.rows.Has .system ∧ ∃ system, insertions .system ops = [system] :=
  ⟨h.orderly.rows, fun _ _ => h.orderly.applied⟩

/-- Two instances, of which one is about to configure the empty database. -/
theorem at_most_one_system_row_two : ∃ (net : Network Bool) (ops : List Op),
    net.MayApply true ops ∧ Configuration ops ∧
      (net.db.rows.ids .system).length ≤ max 1 (emptyDb.rows.ids .system).length ∧
      ¬ net.db.rows.Has .system ∧ ∃ system, insertions .system ops = [system] := by
  obtain ⟨net, ops, hReachable, hMay, hConfiguration⟩ := exists_first_commit true
  obtain ⟨hRows, hApplied⟩ := at_most_one_system_row hReachable
  exact ⟨net, ops, hMay, hConfiguration, hRows, hApplied true ops hMay hConfiguration⟩

end Network
end OpsSysd.Cluster
