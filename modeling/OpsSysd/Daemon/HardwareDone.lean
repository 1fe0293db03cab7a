import OpsSysd.Daemon.Round

/-! When the publication of `cur_hw` and `next_hw` is sound: it depends on the
names in the manifest and on the order in which the Daemon rows are met. -/
namespace OpsSysd.Daemon

open CLib Interaction Interaction.Program Idl

/-- Names and flags of the Daemon rows, in iteration order. -/
abbrev Layout := List (CString × Bool)

def layoutOf (db : Database) : Layout :=
  (db.rows .daemon).map fun row => (row.cells .daemonName, row.cells .daemonIsHwHandler)

/-- The name of the first hardware row that begins with this one. -/
def firstMatch (name : CString) (layout : Layout) : Option CString :=
  (layout.find? fun entry => entry.2 && strncmp name entry.1 name.length = 0).map Prod.fst

/-- The check either finds a row for no hardware daemon, or for each of them a
row of its own name. -/
def Distinguished (config : Config) (layout : Layout) : Prop :=
  (∀ daemon ∈ config.hwDaemons, firstMatch daemon.name layout = none) ∨
    ∀ daemon ∈ config.hwDaemons, firstMatch daemon.name layout = some daemon.name

instance (config : Config) (layout : Layout) : Decidable (Distinguished config layout) :=
  inferInstanceAs (Decidable (_ ∨ _))

/-- Every hardware daemon of the manifest has a row of its own, and is done. -/
def AllOwnRowsDone (config : Config) (db : Database) : Prop :=
  ∀ daemon ∈ config.hwDaemons, ∃ row ∈ db.rows .daemon,
    row.cells .daemonName = daemon.name ∧ row.cells .daemonCurHw > 0

/-- A write of `System.cur_hw` or `System.next_hw`. -/
def Publishes : Request → Prop
  | .write _ column _ => HwDoneColumn column
  | _ => False

section Names

/-- The first match is decided by names and flags. -/
theorem firstMatch_layoutOf (name : CString) (db : Database) :
    firstMatch name (layoutOf db) =
      (matchRow name (db.rows .daemon)).map fun row => row.cells .daemonName := by
  have hTest : ((fun entry : CString × Bool => entry.2 && decide (strncmp name entry.1 name.length = 0)) ∘
      fun row : Row => (row.cells .daemonName, row.cells .daemonIsHwHandler)) =
      fun row => decide (TakenFor name row) := by
    funext row
    refine Bool.eq_iff_iff.mpr ?_
    simp only [Function.comp_apply, TakenFor, Bool.and_eq_true, decide_eq_true_eq]
    exact decide_eq_true_iff.symm
  rw [firstMatch, layoutOf, List.find?_map, hTest, Option.map_map]
  rfl

/-- A name that is found first is found first when it is looked for itself. -/
theorem firstMatch_self {name found : CString} {layout : Layout}
    (h : firstMatch name layout = some found) : firstMatch found layout = some found := by
  induction layout with
  | nil => exact nomatch h
  | cons entry layout ih =>
      obtain ⟨entryName, handler⟩ := entry
      have hOwn : strncmp found found found.length = 0 :=
        (strncmp_length_eq_zero found found).mpr List.prefix_rfl
      by_cases hTaken : (handler && decide (strncmp name entryName name.length = 0)) = true
      · obtain rfl : entryName = found := by
          simpa [firstMatch, List.find?_cons, hTaken] using h
        obtain ⟨hHandler, -⟩ := Bool.and_eq_true_iff.mp hTaken
        simp [firstMatch, hHandler, hOwn]
      · have hRest : firstMatch name layout = some found := by
          simpa [firstMatch, List.find?_cons, hTaken] using h
        have hPrefix : name.bytes <+: found.bytes := by
          obtain ⟨entry, hEntry, rfl⟩ := Option.map_eq_some_iff.mp hRest
          have hTest := List.find?_some hEntry
          exact (strncmp_length_eq_zero name _).mp (by simpa using (Bool.and_eq_true_iff.mp hTest).2)
        have hSkipped : (handler && decide (strncmp found entryName found.length = 0)) = false := by
          refine Bool.eq_false_iff.mpr fun hFound => hTaken ?_
          obtain ⟨hHandler, hLonger⟩ := Bool.and_eq_true_iff.mp hFound
          have hBytes := (strncmp_length_eq_zero found entryName).mp (by simpa using hLonger)
          rw [hHandler, Bool.true_and, decide_eq_true_eq]
          exact (strncmp_length_eq_zero name entryName).mpr (hPrefix.trans hBytes)
        have hFound := ih hRest
        simpa [firstMatch, List.find?_cons, hSkipped] using hFound

end Names

section Check

variable {config : Config} {db : Database}

/-- With distinguished names the check publishes only what is so. -/
theorem Distinguished.allOwnRowsDone (h : Distinguished config (layoutOf db))
    (hReady : Ready config (db.rows .daemon)) : AllOwnRowsDone config db := by
  intro daemon hDaemon
  obtain hNone | ⟨hSet, found, hFoundMem, hFoundHw, hFound⟩ := hReady
  · exact absurd (hNone ▸ hDaemon) List.not_mem_nil
  have hFoundHere : found ∈ config.hwDaemons := List.mem_filter.mpr ⟨hFoundMem, hFoundHw⟩
  obtain hMissing | hOwn := h
  · have hNoRow := hMissing found hFoundHere
    rw [firstMatch_layoutOf, Option.map_eq_none_iff] at hNoRow
    rw [verdict, hNoRow] at hFound
    cases hFound
  · have hMatch := hOwn daemon hDaemon
    rw [firstMatch_layoutOf, Option.map_eq_some_iff] at hMatch
    obtain ⟨row, hRow, hName⟩ := hMatch
    obtain ⟨hMem, hHw⟩ := List.mem_filter.mp hDaemon
    have hVerdict := hSet daemon hMem hHw
    rw [verdict, hRow] at hVerdict
    refine ⟨row, List.mem_of_find?_eq_some hRow, hName, ?_⟩
    by_contra hUnset
    exact hVerdict (if_neg hUnset)

end Check

section Snapshot

/-- Daemon rows laid out in this order. -/
def daemonRows (curHw : CString → Int) : RowId → Layout → Database
  | _, [] => []
  | id, entry :: rest => daemonRow id entry (curHw entry.1) :: daemonRows curHw (id + 1) rest

/-- A configured database with these Daemon rows. -/
def snapshot (curHw : CString → Int) (layout : Layout) : Database :=
  Row.fresh 0 .system :: daemonRows curHw 1 layout

variable {curHw : CString → Int} {layout : Layout}

theorem daemonRows_rows (id : RowId) :
    (daemonRows curHw id layout).rows .daemon = daemonRows curHw id layout := by
  induction layout generalizing id with
  | nil => rfl
  | cons entry layout ih => exact congrArg (daemonRow id entry _ :: ·) (ih (id + 1))

theorem daemonRows_ids (id : RowId) :
    (daemonRows curHw id layout).map Row.id = List.range' id layout.length := by
  induction layout generalizing id with
  | nil => rfl
  | cons entry layout ih =>
      rw [daemonRows, List.map_cons, ih, List.length_cons, List.range'_succ]
      rfl

theorem snapshot_rows : (snapshot curHw layout).rows .daemon = daemonRows curHw 1 layout :=
  daemonRows_rows 1

theorem snapshot_system : (snapshot curHw layout).ids .system = [0] := by
  have hNone : ∀ id, (daemonRows curHw id layout).rows .system = [] := by
    induction layout with
    | nil => exact fun _ => rfl
    | cons entry layout ih => exact fun id => ih (id + 1)
  have hRows : (snapshot curHw layout).rows .system = [Row.fresh 0 .system] :=
    congrArg (Row.fresh 0 .system :: ·) (hNone 1)
  rw [Database.ids, hRows]
  rfl

/-- A snapshot has its layout. -/
theorem layoutOf_snapshot : layoutOf (snapshot curHw layout) = layout := by
  have hRows : ∀ id, (daemonRows curHw id layout).map
      (fun row => (row.cells .daemonName, row.cells .daemonIsHwHandler)) = layout := by
    induction layout with
    | nil => exact fun _ => rfl
    | cons entry layout ih =>
        intro id
        rw [daemonRows, List.map_cons, ih]
        rfl
  rw [layoutOf, snapshot_rows, hRows]

theorem snapshot_distinct : ((snapshot curHw layout).map Row.id).Nodup := by
  rw [snapshot, List.map_cons, daemonRows_ids]
  refine List.nodup_cons.mpr ⟨fun hMem => ?_, List.nodup_range'⟩
  have hBound := (List.mem_range'_1.mp hMem).1
  exact absurd hBound (by decide)

theorem mem_daemonRows {id : RowId} {row : Row} (h : row ∈ daemonRows curHw id layout) :
    row.cells .daemonCurHw = curHw (row.cells .daemonName) := by
  induction layout generalizing id with
  | nil => exact absurd h List.not_mem_nil
  | cons entry layout ih =>
      rcases List.mem_cons.mp h with rfl | hRest
      · rfl
      · exact ih hRest

/-- Rows that mislead the check: only the daemon of this name is not done. -/
def allBut (name : CString) : CString → Int := fun other => if other = name then 0 else 1

/-- Where the check has a row of another name for a daemon, or no row while it
has one for another daemon, it can publish too early. -/
theorem ready_allBut {config : Config} {culprit found : Manifest.DaemonInfo}
    (hCulprit : firstMatch culprit.name layout ≠ some culprit.name)
    (hFound : found ∈ config.hwDaemons) (hMatch : firstMatch found.name layout ≠ none) :
    Ready config ((snapshot (allBut culprit.name) layout).rows .daemon) := by
  have hVerdict : ∀ name, firstMatch name layout ≠ none →
      verdict name (daemonRows (allBut culprit.name) 1 layout) = .found := by
    intro name hName
    obtain ⟨other, hOther⟩ := Option.ne_none_iff_exists'.mp hName
    have hRow := hOther
    rw [← @layoutOf_snapshot (allBut culprit.name) layout, firstMatch_layoutOf, snapshot_rows,
      Option.map_eq_some_iff] at hRow
    obtain ⟨row, hRow, rfl⟩ := hRow
    have hInnocent : row.cells .daemonName ≠ culprit.name :=
      fun hSame => hCulprit (hSame ▸ firstMatch_self hOther)
    have hDone : row.cells .daemonCurHw = (1 : Int) := by
      rw [mem_daemonRows (List.mem_of_find?_eq_some hRow), allBut, if_neg hInnocent]
    rw [verdict, hRow]
    exact if_pos (by rw [hDone]; decide)
  refine .inr ⟨fun daemon hDaemon hHw hUnset => ?_, found, List.mem_of_mem_filter hFound,
    (List.mem_filter.mp hFound).2, ?_⟩
  · rw [snapshot_rows] at hUnset
    by_cases hName : firstMatch daemon.name layout = none
    · rw [← @layoutOf_snapshot (allBut culprit.name) layout, firstMatch_layoutOf, snapshot_rows,
        Option.map_eq_none_iff] at hName
      rw [verdict, hName] at hUnset
      cases hUnset
    · rw [hVerdict _ hName] at hUnset
      cases hUnset
  · rw [snapshot_rows]
    exact hVerdict found.name hMatch

/-- With one daemon not done, not all are. -/
theorem not_allOwnRowsDone_allBut {config : Config} {culprit : Manifest.DaemonInfo}
    (hCulprit : culprit ∈ config.hwDaemons) :
    ¬ AllOwnRowsDone config (snapshot (allBut culprit.name) layout) := by
  intro hDone
  obtain ⟨row, hRow, hName, hSet⟩ := hDone culprit hCulprit
  rw [snapshot_rows] at hRow
  rw [mem_daemonRows hRow, hName, allBut, if_pos rfl] at hSet
  exact absurd hSet (by decide)

end Snapshot

section Runs

/-- The database may hold any rows, as long as the Daemon rows are met in one
of these layouts; everything else is free. -/
def layoutEnv (layouts : Layout → Prop) : Environment Unit where
  run _ _ _ link := layouts (layoutOf link.replica)
  commit _ _ _ _ _ link := layouts (layoutOf link.replica)
  insertFails _ _ := True
  discards _ _ _ _ := True
  symlinkFails _ _ := True
  osRelease _ _ := True
  versionDetail _ _ := True

/-- A request that publishes does so truthfully. -/
def Truthful (config : Config) (state : State Unit) (request : Request) : Prop :=
  Publishes request → AllOwnRowsDone config state.link.replica

variable {config : Config} {layouts : Layout → Prop}

/-- Filling a transaction publishes nothing. -/
theorem Filling.not_publishes {txn : TxnId} {request : Request} (h : Filling txn request) :
    ¬ Publishes request := by
  cases request with
  | write row column arg => exact h
  | _ => exact id

/-- Neither does an ordinary call. -/
theorem Ordinary.not_publishes {request : Request} (h : Ordinary request) : ¬ Publishes request := by
  cases request with
  | write row column arg => exact h
  | _ => exact id

theorem truthful_grants : Grants (Truthful config) where
  loop {state request} hLoop hPublishes := by
    cases request with
    | write => exact hLoop.elim
    | _ => exact hPublishes.elim
  create _ := nofun
  insert _ _ := nofun
  fill hFilling _ hPublishes := absurd hPublishes hFilling.not_publishes
  commit _ _ := nofun
  destroy _ _ := nofun

/-- A pass on rows that tell the daemons apart is truthful. -/
theorem safe_truthful_change {state : State Unit} (hClosed : state.txn = none)
    (hDistinguished : Distinguished config (layoutOf state.link.replica)) :
    Safe (step (layoutEnv layouts)) (Truthful config) (processChange config)
      (fun _ after => after.txn = none) state := by
  have hSampled : (sampled state).txn = none := hClosed
  refine safe_processChange (fun after => after.txn = none) truthful_grants hClosed ?_ ?_ ?_
  · exact fun _ => safe_configureFirst truthful_grants hSampled (fun _ _ _ => nofun) fun _ _ _ _ _ _ _ => rfl
  · intro cfg _
    refine safe_checkHardware truthful_grants ?_ (fun _ => hClosed) fun _ => ?_
    · refine safe_sysdUpdateSwInfo_closed hSampled cfg ?_
      exact fun request hFilling hPublishes => absurd hPublishes hFilling.not_publishes
    refine (safe_sysdChkIfHwDaemonsDone truthful_grants hSampled).mpr ⟨fun hReady => ?_, fun _ => hClosed⟩
    refine safe_sysdSetHwDone truthful_grants hSampled ?_ fun _ _ _ _ => rfl
    intro middle row column arg _ hLink _ _
    exact hLink ▸ hDistinguished.allOwnRowsDone hReady
  · intro after hAfter
    refine (safe_restOfPass (fun _ _ => True) (fun _ _ _ _ _ _ _ _ _ => trivial) hAfter trivial
      ?_).mono fun _ last hLast => hLast.1
    exact fun middle request hOrdinary _ hPublishes => absurd hPublishes hOrdinary.not_publishes

/-- And so is a round. -/
theorem safe_truthful_round (hDistinguished : ∀ layout, layouts layout → Distinguished config layout)
    {state : State Unit} (hClosed : state.txn = none) :
    Safe (step (layoutEnv layouts)) (Truthful config) (mainRound config)
      (fun _ after => after.txn = none) state := by
  have hEnd : ∀ after : State Unit, after.txn = none →
      PassEnd (Truthful config) (fun after => after.txn = none) after :=
    fun after hAfter => ⟨nofun, fun _ => nofun, hAfter⟩
  refine safe_mainRound truthful_grants (fun world link _ _ => hEnd _ hClosed) ?_
  intro world link hLayout _ _
  refine (safe_truthful_change ?_ ?_).mono fun _ after => hEnd after
  · exact hClosed
  · exact hDistinguished _ hLayout

/-- Where the check is ready, the first pass after a start publishes. -/
theorem published_of_safe {permitted : State Unit → Request → Prop} {post : Bool → State Unit → Prop}
    (hSafe : Safe (step (layoutEnv layouts)) permitted (mainRound config) post (State.boot ()))
    {db : Database} (distinct : (db.map Row.id).Nodup) (hLayout : layouts (layoutOf db))
    (grants : Grants permitted) (hReady : Ready config (db.rows .daemon)) {cfg : RowId}
    {others : List RowId} (hIds : db.ids .system = cfg :: others) :
    ∃ middle, middle.link.replica = db ∧ permitted middle (.write cfg .systemCurHw (1 : Int)) := by
  have hRun : (layoutEnv layouts).run () .initial () (delivering db distinct) := hLayout
  have hChange := change_of_safe hSafe hRun rfl Nat.one_ne_zero
  have hCheck := check_of_safe (branch_of_safe hChange rfl hIds) rfl trivial
  have hSet := ((safe_sysdChkIfHwDaemonsDone grants rfl).mp hCheck).1 hReady
  have hRows := (safe_rows.mp ((safe_txnCreate.mp hSet).2 rfl)).2
  have hWrites : Safe (step (layoutEnv layouts)) permitted (forM (db.ids .system) fun system => do
      write system .systemCurHw (1 : Int)
      write system .systemNextHw (1 : Int)) _ _ := safe_bind.mp hRows
  rw [hIds, List.forM_cons] at hWrites
  exact ⟨_, rfl, (safe_write.mp hWrites).1⟩

/-- Sound in every run, the check distinguishes the daemons in every layout. -/
theorem distinguished_of_truthful (hTruthful : ∀ request state,
      LoopReaches (step (layoutEnv layouts)) (mainRound config) restart (· = State.boot ()) request state →
      Publishes request → AllOwnRowsDone config state.link.replica)
    {layout : Layout} (hLayout : layouts layout) : Distinguished config layout := by
  have hSafe : Safe (step (layoutEnv layouts)) (Truthful config) (mainRound config)
      (fun _ _ => True) (State.boot ()) :=
    safe_iff.mpr ⟨fun request state hReaches =>
      hTruthful request state ⟨_, .start rfl, hReaches⟩, fun _ _ _ => trivial⟩
  by_contra hConfused
  rw [Distinguished, not_or] at hConfused
  obtain ⟨hSome, hOther⟩ := hConfused
  push Not at hSome hOther
  obtain ⟨found, hFound, hMatch⟩ := hSome
  obtain ⟨culprit, hCulpritMem, hCulprit⟩ := hOther
  have hRows : layouts (layoutOf (snapshot (allBut culprit.name) layout)) := by
    rwa [layoutOf_snapshot]
  obtain ⟨middle, hReplica, hWrite⟩ := published_of_safe hSafe snapshot_distinct hRows
    truthful_grants (ready_allBut hCulprit hFound hMatch) snapshot_system
  have hDone := hWrite (.inl rfl)
  rw [hReplica] at hDone
  exact not_allOwnRowsDone_allBut hCulpritMem hDone

/-- The hardware is reported done only when it is, in every run, exactly if in
every layout the first hardware row that begins with a hardware daemon's name
is that daemon's own, or there is none for any of them. -/
theorem publication_truthful_iff (config : Config) (layouts : Layout → Prop) :
    (∀ request state, LoopReaches (step (layoutEnv layouts)) (mainRound config) restart
        (· = State.boot ()) request state →
      Publishes request → AllOwnRowsDone config state.link.replica) ↔
    ∀ layout, layouts layout → Distinguished config layout := by
  refine ⟨fun hTruthful layout hLayout => distinguished_of_truthful hTruthful hLayout, ?_⟩
  intro hDistinguished request state hReaches
  refine hReaches.allowed (fun state => state.txn = none) ?_ ?_ fun state hClosed =>
    safe_truthful_round hDistinguished hClosed
  · rintro _ rfl
    rfl
  · rintro _ _ - rfl
    rfl

/-- Two hardware daemons, the name of one a prefix of the other's. -/
def prefixDaemons : List Manifest.DaemonInfo :=
  [⟨.lit "ops-pm", true, 0⟩, ⟨.lit "ops-pmd", true, 0⟩]

/-- With a row for the longer name only, the shorter one is taken to be done as
well. -/
theorem prefixDaemons_misled : ¬ ∀ request state,
    LoopReaches (step (layoutEnv (· = [(.lit "ops-pmd", true)])))
      (mainRound (.onePort prefixDaemons)) restart (· = State.boot ()) request state →
    Publishes request → AllOwnRowsDone (.onePort prefixDaemons) state.link.replica := fun hTruthful =>
  absurd (distinguished_of_truthful hTruthful rfl) (by decide)

end Runs
end OpsSysd.Daemon
