import OpsSysd.Daemon.Round

/-! No completion is lost: when the main loop blocks, every delivered update has
been examined by a pass, and hardware that is done has been reported. -/
namespace OpsSysd.Daemon

open CLib Interaction Interaction.Program Idl

/-- `System.cur_hw` and `System.next_hw` are 1. -/
def DoneRow (row : Row) : Prop :=
  row.cells .systemCurHw = (1 : Int) ∧ row.cells .systemNextHw = (1 : Int)

/-- There is a System row, and it says that the hardware is done. -/
def HwDone (db : Database) : Prop :=
  db.Has .system ∧ ∀ row ∈ db.rows .system, DoneRow row

section Publication

/-- The two writes of `sysd_set_hw_done` to one row. -/
def publishRow (id : RowId) (row : Row) : Row :=
  if row.id = id then (row.set .systemCurHw (1 : Int)).set .systemNextHw (1 : Int) else row

/-- A row that is marked is done. -/
theorem doneRow_set (row : Row) :
    DoneRow ((row.set .systemCurHw (1 : Int)).set .systemNextHw (1 : Int)) := by
  refine ⟨?_, Row.set_same _ _ _⟩
  rw [Row.set_other _ _ (by decide), Row.set_same]

/-- The rows are published one by one. -/
theorem applyOps_hwDoneOps_cons (db : Database) (id : RowId) (rest : List RowId) :
    applyOps db (hwDoneOps (id :: rest)) = applyOps (db.map (publishRow id)) (hwDoneOps rest) := by
  have hTwice : (Op.write id .systemNextHw (1 : Int)).apply
      ((Op.write id .systemCurHw (1 : Int)).apply db) = db.map (publishRow id) := by
    simp only [Op.apply, List.map_map]
    refine List.map_congr_left fun row _ => ?_
    by_cases hId : row.id = id <;> simp [publishRow, hId]
  rw [← hTwice]
  rfl

/-- After the publication all of them are done. -/
theorem doneRow_applyOps {ids : List RowId} {db : Database}
    (h : ∀ row ∈ db.rows .system, row.id ∈ ids ∨ DoneRow row) :
    ∀ row ∈ (applyOps db (hwDoneOps ids)).rows .system, DoneRow row := by
  induction ids generalizing db with
  | nil => exact fun row hRow => (h row hRow).resolve_left List.not_mem_nil
  | cons id rest ih =>
      rw [applyOps_hwDoneOps_cons]
      refine ih fun row hRow => ?_
      obtain ⟨hMem, hTable⟩ := Database.mem_rows.mp hRow
      obtain ⟨old, hOld, rfl⟩ := List.mem_map.mp hMem
      by_cases hId : old.id = id
      · rw [publishRow, if_pos hId]
        exact .inr (doneRow_set old)
      · rw [publishRow, if_neg hId] at hTable ⊢
        refine (h old (Database.mem_rows.mpr ⟨hOld, hTable⟩)).imp_left fun hIds => ?_
        exact (List.mem_cons.mp hIds).resolve_left hId

/-- The publication does what its name says. -/
theorem hwDone_applyOps {db : Database} (hSystem : db.Has .system) :
    HwDone (applyOps db (hwDoneOps (db.ids .system))) := by
  refine ⟨fun hNone => ?_, doneRow_applyOps fun row hRow => .inl (List.mem_map_of_mem hRow)⟩
  have hIds := ids_applyOps db (hwDoneOps (db.ids .system)) .system
  rw [insertions_hwDoneOps, List.append_nil, Database.ids, hNone] at hIds
  exact Database.ids_eq_nil.mp hIds.symm hSystem

end Publication

section Delivery

/-- A committed transaction, with the snapshot it was made on. -/
abbrev Committal := Database × List Op

def HwDoneCommitted (log : List Committal) : Prop :=
  ∃ committal ∈ log, HwDone (applyOps committal.1 committal.2)

/-- The System row exists, and every row marked as a hardware handler is done. -/
def Complete (db : Database) : Prop :=
  db.Has .system ∧ ∀ row ∈ db.rows .daemon, row.cells .daemonIsHwHandler = true →
    row.cells .daemonCurHw > 0

/-- The sequence number advances when a row is inserted and when a `cur_hw`
changes; and once there is a System row, the hardware daemons of the manifest
have rows that are marked. -/
structure Delivers (config : Config) (link link' : Link) : Prop where
  seqno : link.seqno ≤ link'.seqno
  inserts : link'.seqno = link.seqno → ∀ table, link'.replica.ids table ⊆ link.replica.ids table
  curHw : link'.seqno = link.seqno → ∀ row ∈ link.replica.rows .daemon,
    row.cells .daemonIsHwHandler = true → ∃ row' ∈ link'.replica.rows .daemon, row'.id = row.id ∧
      row'.cells .daemonIsHwHandler = true ∧ row'.cells .daemonCurHw = row.cells .daemonCurHw
  marked : link'.replica.Has .system → ∀ daemon ∈ config.hwDaemons,
    ∃ row ∈ link'.replica.rows .daemon, row.cells .daemonName = daemon.name ∧
      row.cells .daemonIsHwHandler = true

/-- Every commit succeeds, and anything may be delivered during it. -/
def completionEnv (config : Config) : Environment (List Committal) where
  run log link log' link' := log' = log ∧ Delivers config link link'
  commit log link ops status log' link' := status = .success ∧
    log' = log ++ [(link.replica, ops)] ∧ Delivers config link link'
  insertFails _ _ := True
  discards _ _ _ _ := True
  symlinkFails _ _ := True
  osRelease _ _ := True
  versionDetail _ _ := True

variable {config : Config} {link link' : Link} {log log' : List Committal}

theorem HwDoneCommitted.mono (h : HwDoneCommitted log) (hLog : log ⊆ log') :
    HwDoneCommitted log' := by
  obtain ⟨committal, hMem, hDone⟩ := h
  exact ⟨committal, hLog hMem, hDone⟩

theorem Delivers.refl (hMarked : link.replica.Has .system → ∀ daemon ∈ config.hwDaemons,
      ∃ row ∈ link.replica.rows .daemon, row.cells .daemonName = daemon.name ∧
        row.cells .daemonIsHwHandler = true) : Delivers config link link where
  seqno := le_rfl
  inserts _ _ := List.Subset.refl _
  curHw _ row hRow hHandler := ⟨row, hRow, rfl, hHandler, rfl⟩
  marked := hMarked

/-- While nothing is announced no System row appears. -/
theorem Delivers.has_system (h : Delivers config link link') (hSame : link'.seqno = link.seqno)
    (hSystem : link'.replica.Has .system) : link.replica.Has .system := by
  obtain ⟨id, others, hIds⟩ := List.exists_cons_of_ne_nil fun hNil =>
    Database.ids_eq_nil.mp hNil hSystem
  have hOld := h.inserts hSame .system (hIds ▸ List.mem_cons_self)
  exact fun hNone => by simp [Database.ids, hNone] at hOld

/-- Nor does the last daemon complete. -/
theorem Delivers.complete (h : Delivers config link link') (hSame : link'.seqno = link.seqno)
    (hComplete : Complete link'.replica) : Complete link.replica := by
  refine ⟨h.has_system hSame hComplete.1, fun row hRow hHandler => ?_⟩
  obtain ⟨row', hRow', -, hHandler', hCurHw⟩ := h.curHw hSame row hRow hHandler
  exact hCurHw ▸ hComplete.2 row' hRow' hHandler'

/-- And an empty copy stays empty. -/
theorem Delivers.empty (h : Delivers config link link') (hSame : link'.seqno = link.seqno)
    (hEmpty : link.replica = []) : link'.replica = [] := by
  refine List.eq_nil_iff_forall_not_mem.mpr fun row hRow => ?_
  have hId : row.id ∈ link'.replica.ids row.table :=
    List.mem_map_of_mem (Database.mem_rows.mpr ⟨hRow, rfl⟩)
  have hOld := h.inserts hSame row.table hId
  rw [hEmpty] at hOld
  exact absurd hOld List.not_mem_nil

/-- What was examined last has been dealt with. -/
structure Settled (examined : Nat) (log : List Committal) (link : Link) : Prop where
  bound : examined ≤ link.seqno
  fresh : link.seqno = 0 → link.replica = []
  complete : examined = link.seqno → Complete link.replica → HwDoneCommitted log

/-- What is delivered later cannot be mistaken for what was examined. -/
theorem Settled.delivers {examined : Nat} (h : Settled examined log link)
    (hDelivers : Delivers config link link') (hLog : log ⊆ log') : Settled examined log' link' := by
  have hSeqno := hDelivers.seqno
  refine ⟨h.bound.trans hSeqno, fun hZero => ?_, fun hSame hComplete => ?_⟩
  · have hStart : link.seqno = 0 := Nat.le_zero.mp (hZero ▸ hSeqno)
    exact hDelivers.empty (hZero.trans hStart.symm) (h.fresh hStart)
  · have hStill : link'.seqno = link.seqno := le_antisymm (hSame ▸ h.bound) hSeqno
    exact (h.complete (hSame.trans hStill) (hDelivers.complete hStill hComplete)).mono hLog

/-- Where every marked row is done, the check is ready. -/
theorem Complete.ready (h : Complete link.replica)
    (hMarked : ∀ daemon ∈ config.hwDaemons, ∃ row ∈ link.replica.rows .daemon,
      row.cells .daemonName = daemon.name ∧ row.cells .daemonIsHwHandler = true) :
    Ready config (link.replica.rows .daemon) := by
  have hFound : ∀ daemon ∈ config.hwDaemons,
      verdict daemon.name (link.replica.rows .daemon) = .found := by
    intro daemon hDaemon
    obtain ⟨own, hOwn, hName, hHandler⟩ := hMarked daemon hDaemon
    have hTaken : TakenFor daemon.name own := by
      refine ⟨hHandler, ?_⟩
      rw [hName]
      exact (strncmp_length_eq_zero _ _).mpr List.prefix_rfl
    cases hRow : matchRow daemon.name (link.replica.rows .daemon) with
    | none => exact absurd hTaken (by simpa using List.find?_eq_none.mp hRow own hOwn)
    | some row =>
        rw [verdict, hRow]
        exact if_pos (h.2 row (List.mem_of_find?_eq_some hRow) (takenFor_of_matchRow hRow).1)
  by_cases hNone : config.hwDaemons = []
  · exact .inl hNone
  obtain ⟨daemon, others, hSome⟩ := List.exists_cons_of_ne_nil hNone
  have hDaemon : daemon ∈ config.hwDaemons := hSome ▸ List.mem_cons_self
  refine .inr ⟨fun other hOther hHw => ?_, daemon, List.mem_of_mem_filter hDaemon,
    (List.mem_filter.mp hDaemon).2, hFound daemon hDaemon⟩
  rw [hFound other (List.mem_filter.mpr ⟨hOther, hHw⟩)]
  simp

end Delivery

section Rounds

variable {config : Config} {state : State (List Committal)}

/-- What holds between two rounds. -/
structure Accounted (state : State (List Committal)) : Prop where
  closed : state.txn = none
  examined : state.idlSeqno = 0 ∨ state.idlSeqno ∈ state.examined
  settled : Settled state.idlSeqno state.world state.link
  done : state.hwInitDoneSet = true → HwDoneCommitted state.world

/-- A pass has started on whatever has been delivered, and hardware that is complete
has been reported. -/
structure NothingLost (state : State (List Committal)) : Prop where
  examined : (state.link.seqno = 0 ∧ state.link.replica = []) ∨ state.link.seqno ∈ state.examined
  complete : Complete state.link.replica → HwDoneCommitted state.world

abbrev BlocksSafely : State (List Committal) → Request → Prop := BlocksOnly NothingLost

/-- What is accounted for may be slept on. -/
theorem Accounted.passEnd (h : Accounted state) : PassEnd BlocksSafely Accounted state where
  serves := nofun
  blocks hSame _ := by
    refine ⟨?_, h.settled.complete hSame⟩
    obtain hZero | hExamined := h.examined
    · exact .inl ⟨hSame ▸ hZero, h.settled.fresh (hSame ▸ hZero)⟩
    · exact .inr (hSame ▸ hExamined)
  kept := h

/-- A delivery is accounted for, or announced. -/
theorem Accounted.delivers (h : Accounted state) {link : Link}
    (hDelivers : Delivers config state.link link) : Accounted { state with link } where
  closed := h.closed
  examined := h.examined
  settled := h.settled.delivers hDelivers (List.Subset.refl _)
  done := h.done

/-- A pass without a System row: one that appears has been inserted since. -/
theorem Accounted.safe_configureFirst (h : Accounted state)
    (hSystem : ¬ state.link.replica.Has .system) :
    Safe (step (completionEnv config)) BlocksSafely (configureFirst config)
      (fun _ => Accounted) (sampled state) := by
  have hSampled : (sampled state).txn = none := h.closed
  refine Daemon.safe_configureFirst (block_grants NothingLost) hSampled (fun _ _ _ => nofun) ?_
  rintro system more _ _ link' - ⟨-, rfl, hDelivers⟩
  have hLog := List.subset_append_left state.world
    [(state.link.replica, Op.insert system .system :: more)]
  refine ⟨rfl, .inr List.mem_cons_self, ⟨hDelivers.seqno, ?_, ?_⟩, fun hSet => (h.done hSet).mono hLog⟩
  · exact (h.settled.delivers hDelivers hLog).fresh
  · exact fun hSame hComplete => absurd (hDelivers.has_system hSame.symm hComplete.1) hSystem

/-- A pass with one: either the hardware is reported done, now or before, or
some marked row is not done yet. -/
theorem Accounted.safe_checkHardware (h : Accounted state) (cfg : RowId)
    (hSystem : state.link.replica.Has .system)
    (hMarked : ∀ daemon ∈ config.hwDaemons, ∃ row ∈ state.link.replica.rows .daemon,
      row.cells .daemonName = daemon.name ∧ row.cells .daemonIsHwHandler = true) :
    Safe (step (completionEnv config)) BlocksSafely (checkHardware config cfg)
      (fun _ => Accounted) (sampled state) := by
  have hSampled : (sampled state).txn = none := h.closed
  refine Daemon.safe_checkHardware (block_grants NothingLost) ?_ (fun hSet => ?_) fun hUnset => ?_
  · refine safe_sysdUpdateSwInfo_closed hSampled cfg ?_
    rintro request hFilling rfl
    exact hFilling.elim
  · exact ⟨h.closed, .inr List.mem_cons_self,
      ⟨le_rfl, h.settled.fresh, fun _ _ => h.done hSet⟩, h.done⟩
  · refine (safe_sysdChkIfHwDaemonsDone (block_grants NothingLost) hSampled).mpr
      ⟨fun _ => ?_, fun hUnready => ?_⟩
    · refine safe_sysdSetHwDone (block_grants NothingLost) hSampled (fun _ _ _ _ _ _ _ => nofun) ?_
      rintro _ _ link' ⟨-, rfl, hDelivers⟩
      have hCommitted : HwDoneCommitted
          (state.world ++ [(state.link.replica, hwDoneOps (state.link.replica.ids .system))]) :=
        ⟨_, List.mem_append_right _ (List.mem_singleton.mpr rfl), hwDone_applyOps hSystem⟩
      have hFresh := (h.settled.delivers hDelivers (List.Subset.refl _)).fresh
      exact ⟨rfl, .inr List.mem_cons_self,
        ⟨hDelivers.seqno, hFresh, fun _ _ => hCommitted⟩, fun _ => hCommitted⟩
    · exact ⟨h.closed, .inr List.mem_cons_self,
        ⟨le_rfl, h.settled.fresh, fun _ hComplete => absurd (hComplete.ready hMarked) hUnready⟩, h.done⟩

/-- The end of a pass keeps the account. -/
theorem Accounted.safe_restOfPass (h : Accounted state) :
    Safe (step (completionEnv config)) BlocksSafely restOfPass (fun _ => Accounted) state := by
  have hCommit : CommitKeeps (completionEnv config) fun log link =>
      Settled state.idlSeqno log link ∧ (state.hwInitDoneSet = true → HwDoneCommitted log) := by
    rintro log link ops _ _ link' - ⟨hSettled, hDone⟩ ⟨-, rfl, hDelivers⟩
    have hLog := List.subset_append_left log [(link.replica, ops)]
    exact ⟨hSettled.delivers hDelivers hLog, fun hSet => (hDone hSet).mono hLog⟩
  refine (Daemon.safe_restOfPass _ hCommit h.closed ⟨h.settled, h.done⟩ ?_).mono ?_
  · rintro middle request hOrdinary - rfl
    exact hOrdinary.elim
  · rintro - after ⟨hClosed, hLoop, hSettled, hDone⟩
    refine ⟨hClosed, ?_, hLoop.idlSeqno ▸ hSettled, fun hSet => hDone (hLoop.hwInitDoneSet ▸ hSet)⟩
    rw [hLoop.idlSeqno, hLoop.examined]
    exact h.examined

/-- So does every round. -/
theorem Accounted.safe_round (h : Accounted state) :
    Safe (step (completionEnv config)) BlocksSafely (mainRound config) (fun _ => Accounted)
      state := by
  refine safe_mainRound (block_grants NothingLost) ?_ ?_
  · rintro _ link ⟨rfl, hDelivers⟩ -
    exact (h.delivers hDelivers).passEnd
  · rintro _ link ⟨rfl, hDelivers⟩ - -
    have hHere := h.delivers hDelivers
    refine (safe_processChange Accounted (block_grants NothingLost) hHere.closed hHere.safe_configureFirst
      ?_ fun after hAfter => hAfter.safe_restOfPass).mono fun _ _ => Accounted.passEnd
    exact fun cfg hSystem => hHere.safe_checkHardware cfg hSystem (hDelivers.marked hSystem)

/-- Whenever the main loop blocks, nothing that was delivered is left
unexamined, and complete hardware has been reported done. -/
theorem no_lost_completion (config : Config) (state : State (List Committal))
    (hBlocks : LoopReaches (step (completionEnv config)) (mainRound config) restart
      (· = State.boot []) .pollBlock state) :
    NothingLost state := by
  refine hBlocks.allowed Accounted ?_ ?_ (fun state h => h.safe_round) rfl
  · rintro _ rfl
    exact ⟨rfl, .inl rfl, ⟨le_rfl, fun _ => rfl, fun _ hComplete => absurd rfl hComplete.1⟩, nofun⟩
  · rintro before _ - rfl
    exact ⟨rfl, .inl rfl, ⟨le_rfl, fun _ => rfl, fun _ hComplete => absurd rfl hComplete.1⟩, nofun⟩

/-- A restart on a database in which the one hardware daemon is done. -/
theorem no_lost_completion_pmdDone : ∃ state : State (List Committal),
    LoopReaches (step (completionEnv pmdConfig)) (mainRound pmdConfig) restart (· = State.boot [])
      .pollBlock state ∧ state.link = pmdLink ∧ NothingLost state := by
  have hMarked : pmdLink.replica.Has .system → ∀ daemon ∈ pmdConfig.hwDaemons,
      ∃ row ∈ pmdLink.replica.rows .daemon, row.cells .daemonName = daemon.name ∧
        row.cells .daemonIsHwHandler = true := by
    intro _ daemon hDaemon
    obtain rfl := List.mem_singleton.mp hDaemon
    exact ⟨daemonRow 1 (.lit "ops-pmd", true) 1, List.mem_singleton.mpr rfl, rfl, rfl⟩
  have hRun : (completionEnv pmdConfig).run [] .initial [] pmdLink :=
    ⟨rfl, Nat.zero_le 1, nofun, nofun, hMarked⟩
  have hCommit : (completionEnv pmdConfig).commit [] pmdLink (hwDoneOps (pmdLink.replica.ids .system))
      .success [(pmdDone, hwDoneOps (pmdLink.replica.ids .system))] pmdLink :=
    ⟨rfl, rfl, .refl hMarked⟩
  obtain ⟨state, hBlocks, -, hLink, -⟩ := exists_block_after_report restart (· = State.boot []) rfl
    hRun rfl Nat.one_ne_zero rfl rfl rfl trivial pmdDone_ready hCommit
  exact ⟨state, hBlocks, hLink, no_lost_completion pmdConfig state hBlocks⟩

end Rounds
end OpsSysd.Daemon
