import OpsSysd.Daemon.Completion

/-! What the daemon makes of a commit that fails. It acts on no status, so a
publication that is lost counts as made, and a refused configuration is not
attempted again before something else is delivered. -/
namespace OpsSysd.Daemon

open CLib Interaction Interaction.Program Idl

/-- The database, with a record of how the daemon's transactions have fared:
whether its publication, if there was one, is in the database, and the sequence
number at which the last initial configuration was refused. -/
structure Server where
  db : Database
  published : Option Bool
  refused : Option Nat

instance (row : Row) : Decidable (DoneRow row) :=
  inferInstanceAs (Decidable ((row.cells .systemCurHw : Int) = 1 ∧ (row.cells .systemNextHw : Int) = 1))

instance (db : Database) : Decidable (HwDone db) := inferInstanceAs (Decidable (_ ∧ _))

/-- This transaction publishes. -/
def Publication (ops : List Op) : Prop :=
  ∃ id column value, .write id column value ∈ ops ∧ HwDoneColumn column

/-- Nobody else adds or removes a System row once there is one, or changes
whether the hardware is reported done. -/
structure Evolves (db db' : Database) : Prop where
  system : db.Has .system → db'.ids .system = db.ids .system
  done : HwDone db' ↔ HwDone db

/-- A System row that has been delivered is the database's, and stays. -/
structure Follows (link : Link) (db' : Database) (link' : Link) : Prop where
  system : link'.replica.Has .system → db'.ids .system = link'.replica.ids .system
  stays : link.replica.Has .system → link'.replica.Has .system

/-- What becomes of the server's state when it has applied a transaction or
not, and has answered with this status. -/
structure Records (server : Server) (link : Link) (ops : List Op) (status : TxnStatus) (applied : Bool)
    (others : Database) (server' : Server) : Prop where
  db : server'.db = if applied then applyOps others ops else others
  published : Publication ops → server'.published = some (applied || HwDone others)
  unpublished : ¬ Publication ops → server'.published = server.published
  refused : Configuration ops →
    server'.refused = if status = .success then none else some link.seqno
  unrefused : ¬ Configuration ops → server'.refused = server.refused

/-- A successful transaction has been applied; one that has failed may have
been applied all the same. -/
def outcomeEnv : Environment Server where
  run server link server' link' := ∃ db, Evolves server.db db ∧ server' = { server with db } ∧
    Follows link db link'
  commit server link ops status server' link' := ∃ applied others, Evolves server.db others ∧
    (status = .success → applied = true) ∧ Records server link ops status applied others server' ∧
    Follows link server'.db link'
  insertFails _ _ := False
  discards _ _ _ _ := True
  symlinkFails _ _ := True
  osRelease _ _ := True
  versionDetail _ _ := True

/-- A daemon started on this database. -/
def Started (state : State Server) : Prop := ∃ db, state = State.boot ⟨db, none, none⟩

/-- The hardware counts as reported only if it is, and a refused configuration is
still pending. -/
structure OutcomesRespected (state : State Server) : Prop where
  published : state.hwInitDoneSet = true → HwDone state.world.db
  pending : state.world.refused ≠ none → ¬ state.world.db.Has .system →
    state.idlSeqno ≠ state.link.seqno

/-- The publication has taken effect, and if the last configuration was refused,
something has been delivered since. -/
structure TookEffect (server : Server) (link : Link) : Prop where
  published : server.published ≠ some false
  delivered : ∀ seqno, server.refused = some seqno → ¬ server.db.Has .system → link.seqno ≠ seqno

section Effects

variable {db db' others : Database} {ops : List Op}

/-- Ordinary operations publish nothing. -/
theorem hwDone_apply_ordinary {op : Op} (hOp : OrdinaryOp op) (db : Database) :
    HwDone (op.apply db) ↔ HwDone db := by
  cases op with
  | insert id table =>
      have hRows : (Op.apply db (.insert id table)).rows .system = db.rows .system := by
        simp [Op.apply, Database.rows, Row.fresh, show table ≠ .system from hOp]
      simp only [HwDone, Database.Has, hRows]
  | write id column value =>
      have hColumn : ¬ HwDoneColumn column := hOp
      rw [HwDoneColumn, not_or] at hColumn
      have hRows : (Op.apply db (.write id column value)).rows .system =
          (db.rows .system).map fun row => if row.id = id then row.set column value else row := by
        simp only [Op.apply, Database.rows, List.filter_map]
        congr 2
        funext row
        simp only [Function.comp_apply]
        split <;> rfl
      have hDone : ∀ row : Row,
          DoneRow (if row.id = id then row.set column value else row) ↔ DoneRow row := by
        intro row
        split
        · rw [DoneRow, Row.set_other _ _ (Ne.symm hColumn.1), Row.set_other _ _ (Ne.symm hColumn.2)]
          rfl
        · exact Iff.rfl
      simp only [HwDone, Database.Has, hRows, ne_eq, List.map_eq_nil_iff, List.forall_mem_map, hDone]

/-- Ordinary requests do not touch the report. -/
theorem hwDone_applyOps_ordinary (hOps : ∀ op ∈ ops, OrdinaryOp op) (db : Database) :
    HwDone (applyOps db ops) ↔ HwDone db := by
  induction ops generalizing db with
  | nil => exact Iff.rfl
  | cons op ops ih =>
      exact (ih (fun other hOther => hOps other (List.mem_cons_of_mem _ hOther)) _).trans
        (hwDone_apply_ordinary (hOps op List.mem_cons_self) db)

theorem has_of_ids {table : Table} (hIds : db'.ids table = db.ids table) (hHas : db.Has table) :
    db'.Has table := fun hNone =>
  Database.ids_eq_nil.mp (hIds ▸ Database.ids_eq_nil.mpr (not_not.mpr hNone)) hHas

/-- Operations empty no table. -/
theorem has_applyOps {table : Table} (hHas : db.Has table) : (applyOps db ops).Has table := by
  intro hNone
  have hIds := ids_applyOps db ops table
  rw [Database.ids, hNone] at hIds
  exact Database.ids_eq_nil.mp (List.append_eq_nil_iff.mp hIds.symm).1 hHas

/-- A System row stays. -/
theorem Evolves.has_system (h : Evolves db db') (hSystem : db.Has .system) : db'.Has .system :=
  has_of_ids (h.system hSystem) hSystem

/-- Applied to a database with the snapshot's System rows, a publication is
in it. -/
theorem hwDone_published {systems : List RowId} (hSystem : others.Has .system)
    (hIds : others.ids .system = systems) : HwDone (applyOps others (hwDoneOps systems)) :=
  hIds ▸ hwDone_applyOps hSystem

theorem publication_hwDoneOps {systems : List RowId} (h : systems ≠ []) :
    Publication (hwDoneOps systems) := by
  obtain ⟨system, others, rfl⟩ := List.exists_cons_of_ne_nil h
  exact ⟨system, .systemCurHw, (1 : Int), List.mem_cons_self, .inl rfl⟩

/-- Ordinary operations are no publication. -/
theorem not_publication_ordinary (hOps : ∀ op ∈ ops, OrdinaryOp op) : ¬ Publication ops := by
  rintro ⟨id, column, value, hMem, hColumn⟩
  exact hOps _ hMem hColumn

end Effects

section Rounds

variable {config : Config} {state : State Server}

/-- What the record says of the database, given the daemon's variables. -/
structure Recorded (hwInitDoneSet : Bool) (idlSeqno : Nat) (server : Server) (link : Link) : Prop where
  system : link.replica.Has .system → server.db.ids .system = link.replica.ids .system
  unset : hwInitDoneSet = false → server.published = none
  set : hwInitDoneSet = true → link.replica.Has .system ∧
    server.published = some (decide (HwDone server.db))
  refused : ∀ seqno, server.refused = some seqno → server.db.Has .system ∨ idlSeqno = seqno

variable {hwInitDoneSet : Bool} {idlSeqno : Nat} {server server' : Server} {link link' : Link}
  {ops : List Op} {status : TxnStatus}

/-- What is on record stays so when something is delivered. -/
theorem Recorded.run (h : Recorded hwInitDoneSet idlSeqno server link)
    (hRun : outcomeEnv.run server link server' link') :
    Recorded hwInitDoneSet idlSeqno server' link' := by
  obtain ⟨db, hEvolves, rfl, hFollows⟩ := hRun
  refine ⟨hFollows.system, h.unset, fun hSet => ?_, fun seqno hRefused => ?_⟩
  · obtain ⟨hSystem, hPublished⟩ := h.set hSet
    refine ⟨hFollows.stays hSystem, hPublished.trans (congrArg some ?_)⟩
    exact (decide_eq_decide.mpr hEvolves.done).symm
  · exact (h.refused seqno hRefused).imp_left hEvolves.has_system

/-- An ordinary transaction, applied or not. -/
theorem Recorded.commit_ordinary (h : Recorded hwInitDoneSet idlSeqno server link)
    (hOps : ∀ op ∈ ops, OrdinaryOp op)
    (hCommit : outcomeEnv.commit server link ops status server' link') :
    Recorded hwInitDoneSet idlSeqno server' link' := by
  obtain ⟨applied, others, hEvolves, -, hRecords, hFollows⟩ := hCommit
  have hDone : HwDone server'.db ↔ HwDone server.db := by
    rw [hRecords.db]
    split
    · exact (hwDone_applyOps_ordinary hOps others).trans hEvolves.done
    · exact hEvolves.done
  refine ⟨hFollows.system, fun hUnset => ?_, fun hSet => ?_, fun seqno hRefused => ?_⟩
  · exact (hRecords.unpublished (not_publication_ordinary hOps)).trans (h.unset hUnset)
  · obtain ⟨hSystem, hPublished⟩ := h.set hSet
    refine ⟨hFollows.stays hSystem, ?_⟩
    rw [hRecords.unpublished (not_publication_ordinary hOps), hPublished]
    exact congrArg some (decide_eq_decide.mpr hDone.symm)
  · rw [hRecords.unrefused (not_configuration_ordinary hOps)] at hRefused
    refine (h.refused seqno hRefused).imp_left fun hSystem => ?_
    rw [hRecords.db]
    split
    · exact has_applyOps (hEvolves.has_system hSystem)
    · exact hEvolves.has_system hSystem

/-- The initial configuration, applied or not: a refusal is recorded at the
sequence number that has just been sampled. -/
theorem Recorded.commit_configuration (h : Recorded false idlSeqno server link) {system : RowId}
    {more : List Op} (hMore : ∀ op ∈ more, OrdinaryOp op)
    (hCommit : outcomeEnv.commit server link (.insert system .system :: more) status server' link') :
    Recorded false link.seqno server' link' := by
  obtain ⟨applied, others, -, -, hRecords, hFollows⟩ := hCommit
  have hUnpublished : ¬ Publication (.insert system .system :: more) := by
    rintro ⟨id, column, value, hMem, hColumn⟩
    obtain hFirst | hMem := List.mem_cons.mp hMem
    · cases hFirst
    · exact hMore _ hMem hColumn
  have hConfiguration : Configuration (.insert system .system :: more) := by
    simp [Configuration, insertions]
  refine ⟨hFollows.system, fun _ => ?_, fun h => absurd h Bool.false_ne_true,
    fun seqno hRefused => .inr ?_⟩
  · exact (hRecords.unpublished hUnpublished).trans (h.unset rfl)
  · rw [hRecords.refused hConfiguration] at hRefused
    split at hRefused
    · cases hRefused
    · exact Option.some.inj hRefused

/-- The publication, applied or not. -/
theorem Recorded.commit_publication (h : Recorded hwInitDoneSet idlSeqno server link)
    (hSystem : link.replica.Has .system)
    (hCommit : outcomeEnv.commit server link (hwDoneOps (link.replica.ids .system)) status server'
      link') : Recorded true idlSeqno server' link' := by
  obtain ⟨applied, others, hEvolves, -, hRecords, hFollows⟩ := hCommit
  have hIds := h.system hSystem
  have hServer : server.db.Has .system := has_of_ids hIds hSystem
  have hOthers := hEvolves.has_system hServer
  have hPublication := publication_hwDoneOps (fun hNil => Database.ids_eq_nil.mp hNil hSystem)
  have hDone := hwDone_published hOthers ((hEvolves.system hServer).trans hIds)
  refine ⟨hFollows.system, nofun, fun _ => ⟨hFollows.stays hSystem, ?_⟩, fun _ _ => .inl ?_⟩
  · rw [hRecords.published hPublication, hRecords.db]
    cases applied <;> simp [hDone]
  · rw [hRecords.db]
    split
    · exact has_applyOps hOthers
    · exact hOthers

/-- The record of a whole state. -/
structure OnRecord (state : State Server) : Prop where
  closed : state.txn = none
  record : Recorded state.hwInitDoneSet state.idlSeqno state.world state.link

/-- Outcomes are respected exactly if the commits took effect. -/
theorem OnRecord.respected_iff (h : OnRecord state) :
    OutcomesRespected state ↔ TookEffect state.world state.link := by
  have hPublished : (state.hwInitDoneSet = true → HwDone state.world.db) ↔
      state.world.published ≠ some false := by
    cases hSet : state.hwInitDoneSet with
    | false => simp [h.record.unset hSet]
    | true =>
        rw [(h.record.set hSet).2]
        simp
  have hPending : (state.world.refused ≠ none → ¬ state.world.db.Has .system →
        state.idlSeqno ≠ state.link.seqno) ↔
      ∀ seqno, state.world.refused = some seqno → ¬ state.world.db.Has .system →
        state.link.seqno ≠ seqno := by
    constructor
    · intro hPending seqno hRefused hSystem
      obtain rfl := (h.record.refused seqno hRefused).resolve_left hSystem
      exact (hPending (by simp [hRefused]) hSystem).symm
    · intro hDelivered hRefused hSystem
      obtain ⟨seqno, hRefused⟩ := Option.ne_none_iff_exists'.mp hRefused
      obtain rfl := (h.record.refused seqno hRefused).resolve_left hSystem
      exact (hDelivered _ hRefused hSystem).symm
  exact ⟨fun h => ⟨hPublished.mp h.published, hPending.mp h.pending⟩,
    fun h => ⟨hPublished.mpr h.published, hPending.mpr h.delivered⟩⟩

/-- When the main loop blocks, the outcomes are respected exactly if they were
favourable. -/
abbrev RespectedIff (state : State Server) : Prop :=
  OutcomesRespected state ↔ TookEffect state.world state.link

abbrev BlocksOnRecord : State Server → Request → Prop := BlocksOnly RespectedIff

theorem OnRecord.passEnd (h : OnRecord state) : PassEnd BlocksOnRecord OnRecord state where
  serves := nofun
  blocks _ _ := h.respected_iff
  kept := h

/-- A delivery keeps the variables on record. -/
theorem OnRecord.run (h : OnRecord state) (hRun : outcomeEnv.run state.world state.link server' link') :
    OnRecord { state with world := server', link := link' } := ⟨h.closed, h.record.run hRun⟩

/-- A first configuration is put on record with its outcome. -/
theorem OnRecord.safe_configureFirst (h : OnRecord state)
    (hSystem : ¬ state.link.replica.Has .system) :
    Safe (step outcomeEnv) BlocksOnRecord (configureFirst config) (fun _ => OnRecord)
      (sampled state) := by
  have hSampled : (sampled state).txn = none := h.closed
  have hUnset : state.hwInitDoneSet = false := by
    by_contra hSet
    exact hSystem (h.record.set (eq_true_of_ne_false hSet)).1
  refine Daemon.safe_configureFirst (block_grants _) hSampled (fun _ _ _ => nofun) ?_
  intro system more status server' link' hMore hCommit
  refine ⟨rfl, ?_⟩
  change Recorded state.hwInitDoneSet state.link.seqno server' link'
  rw [hUnset]
  exact (hUnset ▸ h.record).commit_configuration hMore hCommit

/-- So is a publication. -/
theorem OnRecord.safe_checkHardware (h : OnRecord state) (cfg : RowId)
    (hSystem : state.link.replica.Has .system) :
    Safe (step outcomeEnv) BlocksOnRecord (checkHardware config cfg) (fun _ => OnRecord)
      (sampled state) := by
  have hSampled : OnRecord (sampled state) := ⟨h.closed, h.record.system, h.record.unset, h.record.set,
    fun _ _ => .inl (has_of_ids (h.record.system hSystem) hSystem)⟩
  refine Daemon.safe_checkHardware (block_grants _) ?_ (fun _ => hSampled) fun _ => ?_
  · refine safe_sysdUpdateSwInfo_closed hSampled.closed cfg ?_
    rintro request hFilling rfl
    exact hFilling.elim
  · refine (safe_sysdChkIfHwDaemonsDone (block_grants _) hSampled.closed).mpr
      ⟨fun _ => ?_, fun _ => hSampled⟩
    refine safe_sysdSetHwDone (block_grants _) hSampled.closed (fun _ _ _ _ _ _ _ => nofun) ?_
    exact fun status server' link' hCommit => ⟨rfl, hSampled.record.commit_publication hSystem hCommit⟩

/-- The end of a pass puts nothing there. -/
theorem OnRecord.safe_restOfPass (h : OnRecord state) :
    Safe (step outcomeEnv) BlocksOnRecord restOfPass (fun _ => OnRecord) state := by
  have hCommit : CommitKeeps outcomeEnv (Recorded state.hwInitDoneSet state.idlSeqno) :=
    fun _ _ _ _ _ _ hOps hRecord hCommit => hRecord.commit_ordinary hOps hCommit
  refine (Daemon.safe_restOfPass _ hCommit h.closed h.record ?_).mono ?_
  · rintro middle request hOrdinary - rfl
    exact hOrdinary.elim
  · rintro - after ⟨hClosed, hLoop, hRecord⟩
    exact ⟨hClosed, hLoop.hwInitDoneSet.symm ▸ hLoop.idlSeqno.symm ▸ hRecord⟩

/-- A round keeps the variables on record. -/
theorem OnRecord.safe_round (h : OnRecord state) :
    Safe (step outcomeEnv) BlocksOnRecord (mainRound config) (fun _ => OnRecord) state := by
  refine safe_mainRound (block_grants _) (fun _ _ hRun _ => (h.run hRun).passEnd) ?_
  intro server' link' hRun _ _
  have hHere := h.run hRun
  exact (safe_processChange OnRecord (block_grants _) hHere.closed hHere.safe_configureFirst
    hHere.safe_checkHardware fun after hAfter => hAfter.safe_restOfPass).mono
      fun _ _ => OnRecord.passEnd

/-- Whenever the main loop blocks: the hardware counts as reported only if it
is, and a refused configuration is still pending, exactly if the publication
has taken effect, and something has been delivered since the refusal. -/
theorem outcomesRespected_iff (config : Config) (state : State Server)
    (hBlocks : LoopReaches (step outcomeEnv) (mainRound config) (fun _ _ => False) Started .pollBlock
      state) :
    OutcomesRespected state ↔ TookEffect state.world state.link := by
  refine hBlocks.allowed OnRecord ?_ (fun _ _ _ => False.elim) (fun state h => h.safe_round) rfl
  rintro _ ⟨db, rfl⟩
  exact ⟨rfl, fun h => absurd rfl h, fun _ => rfl, nofun, nofun⟩

theorem pmdLink_follows (db : Database) (hIds : db.ids .system = [0]) : Follows pmdLink db pmdLink :=
  ⟨fun _ => hIds, id⟩

/-- A restart on a configured database, with this outcome of the publication. -/
theorem exists_block_pmdDone (status : TxnStatus) (applied : Bool)
    (hStatus : status = .success → applied = true) : ∃ state : State Server,
    LoopReaches (step outcomeEnv) (mainRound pmdConfig) (fun _ _ => False) Started .pollBlock state ∧
      state.world = ⟨if applied then applyOps pmdDone (hwDoneOps [0]) else pmdDone, some applied, none⟩ ∧
      state.link = pmdLink ∧ state.hwInitDoneSet = true := by
  have hEvolves : Evolves pmdDone pmdDone := ⟨fun _ => rfl, Iff.rfl⟩
  have hUndone : ¬ HwDone pmdDone := by decide
  have hRecords : Records ⟨pmdDone, none, none⟩ pmdLink (hwDoneOps [0]) status applied pmdDone
      ⟨if applied then applyOps pmdDone (hwDoneOps [0]) else pmdDone, some applied, none⟩ := by
    refine ⟨rfl, fun _ => by simp [hUndone], fun h => ?_, fun h => ?_, fun _ => rfl⟩
    · exact absurd (publication_hwDoneOps (List.cons_ne_nil _ _)) h
    · exact absurd h (not_configuration_hwDoneOps _)
  have hIds : (if applied then applyOps pmdDone (hwDoneOps [0]) else pmdDone).ids .system = [0] := by
    cases applied <;> rfl
  have hRun : outcomeEnv.run ⟨pmdDone, none, none⟩ .initial ⟨pmdDone, none, none⟩ pmdLink :=
    ⟨pmdDone, hEvolves, rfl, fun _ => rfl, fun h => absurd rfl h⟩
  have hCommit : outcomeEnv.commit ⟨pmdDone, none, none⟩ pmdLink
      (hwDoneOps (pmdLink.replica.ids .system)) status _ pmdLink :=
    ⟨applied, pmdDone, hEvolves, hStatus, hRecords, pmdLink_follows _ hIds⟩
  exact exists_block_after_report _ Started ⟨pmdDone, rfl⟩ hRun rfl Nat.one_ne_zero rfl rfl rfl trivial
    pmdDone_ready hCommit

/-- The publication succeeds. -/
theorem outcomesRespected_pmdDone : ∃ state : State Server,
    state.link = pmdLink ∧ state.hwInitDoneSet = true ∧
      (OutcomesRespected state ↔ TookEffect state.world state.link) := by
  obtain ⟨state, hBlocks, -, hLink, hSet⟩ :=
    exists_block_pmdDone .success true fun _ => rfl
  exact ⟨state, hLink, hSet, outcomesRespected_iff pmdConfig state hBlocks⟩

/-- The publication is lost, and counts as made. -/
theorem lost_publication_not_respected : ¬ ∀ state : State Server,
    LoopReaches (step outcomeEnv) (mainRound pmdConfig) (fun _ _ => False) Started .pollBlock state →
    state.link.hasLock = true → OutcomesRespected state := by
  intro hRespected
  obtain ⟨state, hBlocks, hWorld, hLink, hSet⟩ :=
    exists_block_pmdDone .error false nofun
  have hDone := (hRespected state hBlocks (hLink ▸ rfl)).published hSet
  rw [hWorld] at hDone
  exact absurd hDone (by decide)

end Rounds
end OpsSysd.Daemon
