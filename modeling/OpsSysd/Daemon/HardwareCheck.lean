import OpsSysd.Daemon.Pass

/-! What `sysd_chk_if_hw_daemons_done` decides, as a function of the Daemon rows
in iteration order, and what `sysd_set_hw_done` asks for. -/
namespace OpsSysd.Daemon

open CLib Interaction Interaction.Program Idl

/-- A Daemon row with this name and flag. -/
def daemonRow (id : RowId) (entry : CString × Bool) (curHw : Int) : Row :=
  (((Row.fresh id .daemon).set .daemonName entry.1).set .daemonIsHwHandler entry.2).set
    .daemonCurHw curHw

/-- The test of the inner loop: the first row that passes it is taken for the
daemon's own. -/
def TakenFor (name : CString) (row : Row) : Prop :=
  row.cells .daemonIsHwHandler = true ∧ strncmp name (row.cells .daemonName) name.length = 0

instance (name : CString) (row : Row) : Decidable (TakenFor name row) :=
  inferInstanceAs (Decidable (_ ∧ _))

def matchRow (name : CString) (rows : List Row) : Option Row :=
  rows.find? fun row => TakenFor name row

/-- The row that is matched is taken for the daemon's. -/
theorem takenFor_of_matchRow {name : CString} {rows : List Row} {row : Row}
    (h : matchRow name rows = some row) : TakenFor name row := by
  rw [matchRow] at h
  simpa using List.find?_some h

/-- The verdict on a daemon. -/
def verdict (name : CString) (rows : List Row) : Match :=
  match matchRow name rows with
  | none => .missing
  | some row => if row.cells .daemonCurHw > 0 then .found else .notSet

/-- The outer loop on given rows. -/
def tally (rows : List Row) : List Manifest.DaemonInfo → Nat → Bool × Nat
  | [], numFound => (false, numFound)
  | daemon :: rest, numFound =>
      if daemon.isHwHandler then
        match verdict daemon.name rows with
        | .missing => tally rows rest numFound
        | .found => tally rows rest (numFound + 1)
        | .notSet => (true, numFound)
      else tally rows rest numFound

/-- No hardware daemon is known not to be done, and one is known to be. -/
def AllSet (daemons : List Manifest.DaemonInfo) (rows : List Row) : Prop :=
  (∀ daemon ∈ daemons, daemon.isHwHandler → verdict daemon.name rows ≠ .notSet) ∧
    ∃ daemon ∈ daemons, daemon.isHwHandler ∧ verdict daemon.name rows = .found

/-- The condition on which the check publishes. -/
def Ready (config : Config) (rows : List Row) : Prop :=
  config.hwDaemons = [] ∨ AllSet config.daemons rows

/-- The count comes out right exactly if no daemon's row is unset and some row was
found. -/
theorem tally_iff (rows : List Row) (daemons : List Manifest.DaemonInfo) (numFound : Nat) :
    ((tally rows daemons numFound).1 = false ∧ (tally rows daemons numFound).2 ≠ 0) ↔
      (∀ daemon ∈ daemons, daemon.isHwHandler → verdict daemon.name rows ≠ .notSet) ∧
        (numFound ≠ 0 ∨ ∃ daemon ∈ daemons, daemon.isHwHandler ∧
          verdict daemon.name rows = .found) := by
  induction daemons generalizing numFound with
  | nil => simp [tally]
  | cons daemon daemons ih =>
      by_cases hHw : daemon.isHwHandler = true
      · cases hVerdict : verdict daemon.name rows <;>
          simp [tally, hHw, hVerdict, ih]
      · simp [tally, hHw, ih]

/-- So the loops find all set or not. -/
theorem tally_allSet (rows : List Row) (daemons : List Manifest.DaemonInfo) :
    ((tally rows daemons 0).1 || (tally rows daemons 0).2 = 0) = false ↔ AllSet daemons rows := by
  have hTally := tally_iff rows daemons 0
  simp only [ne_eq, not_true_eq_false, false_or] at hTally
  rw [AllSet, ← hTally]
  simp

/-- What `sysd_set_hw_done` asks for. -/
def hwDoneOps (systems : List RowId) : List Op :=
  systems.flatMap fun id =>
    [.write id .systemCurHw (1 : Int), .write id .systemNextHw (1 : Int)]

/-- The publication inserts nothing. -/
theorem insertions_hwDoneOps (table : Table) (ids : List RowId) :
    insertions table (hwDoneOps ids) = [] := by
  induction ids with
  | nil => rfl
  | cons id rest ih => exact ih

/-- And so it is no configuration. -/
theorem not_configuration_hwDoneOps (systems : List RowId) : ¬ Configuration (hwDoneOps systems) :=
  not_not.mpr (insertions_hwDoneOps _ _)

section Rules

variable {World Result : Type} {env : Environment World}
  {permitted : State World → Request → Prop} {post : Result → State World → Prop}
  {state : State World} {config : Config}

/-- The calls with which the check looks at the Daemon rows. -/
def CheckCall : Request → Prop
  | .rows .daemon | .read _ .daemonIsHwHandler | .read _ .daemonName | .read _ .daemonCurHw => True
  | _ => False

/-- The inner loop stops at the first row whose name begins with the daemon's. -/
theorem safe_matchDaemon (name : CString) {rows : List Row} (hRows : ∀ row ∈ rows, row ∈ state.view)
    (hDistinct : (state.view.map Row.id).Nodup)
    (hCalls : ∀ request, CheckCall request → permitted state request) {next : Match → Program Calls Result} :
    Safe (step env) permitted (matchDaemon name (rows.map Row.id) >>= next) post state ↔
      Safe (step env) permitted (next (verdict name rows)) post state := by
  have hReadHandler (row : RowId) : permitted state (.read row .daemonIsHwHandler) := hCalls _ trivial
  have hReadName (row : RowId) : permitted state (.read row .daemonName) := hCalls _ trivial
  have hReadCurHw (row : RowId) : permitted state (.read row .daemonCurHw) := hCalls _ trivial
  induction rows with
  | nil => exact Iff.rfl
  | cons row rows ih =>
      have hGet := state.view.get_of_mem hDistinct (hRows row List.mem_cons_self)
      have ih := ih fun other hOther => hRows other (List.mem_cons_of_mem _ hOther)
      by_cases hHandler : row.cells .daemonIsHwHandler = true
      · by_cases hName : strncmp name (row.cells .daemonName) name.length = 0
        · simp [matchDaemon, hReadHandler, hReadName, hReadCurHw, hGet, hHandler, hName, verdict,
            matchRow, TakenFor]
        · simp only [verdict, matchRow] at ih
          simp [matchDaemon, hReadHandler, hReadName, hGet, hHandler, hName, verdict, matchRow, TakenFor,
            ih]
      · simp only [verdict, matchRow] at ih
        simp [matchDaemon, hReadHandler, hGet, hHandler, verdict, matchRow, TakenFor, ih]

/-- The outer loop tallies the daemons. -/
theorem safe_countDone (hClosed : state.txn = none)
    (hCalls : ∀ request, CheckCall request → permitted state request) (daemons : List Manifest.DaemonInfo) (numFound : Nat)
    {next : Bool × Nat → Program Calls Result} :
    Safe (step env) permitted (countDone daemons numFound >>= next) post state ↔
      Safe (step env) permitted
        (next (tally (state.link.replica.rows .daemon) daemons numFound)) post state := by
  have hView := State.view_closed hClosed
  have hRows : ∀ row ∈ state.link.replica.rows .daemon, row ∈ state.view :=
    fun row hRow => hView ▸ List.mem_of_mem_filter hRow
  have hDistinct : (state.view.map Row.id).Nodup := hView ▸ state.link.distinct
  have hList : permitted state (.rows .daemon) := hCalls _ trivial
  induction daemons generalizing numFound with
  | nil => exact Iff.rfl
  | cons daemon daemons ih =>
      by_cases hHw : daemon.isHwHandler = true
      · simp only [countDone, hHw, if_true, call_bind, done_bind, bind_assoc, safe_rows, hList,
          true_and, hView, Database.ids]
        rw [safe_matchDaemon daemon.name hRows hDistinct hCalls]
        cases hVerdict : verdict daemon.name (state.link.replica.rows .daemon) with
        | missing => simpa [tally, hHw, hVerdict] using ih numFound
        | found => simpa [tally, hHw, hVerdict] using ih (numFound + 1)
        | notSet => simp [tally, hHw, hVerdict]
      · simpa [countDone, tally, hHw] using ih numFound

/-- The check publishes exactly when the rows are ready, and does nothing
otherwise. -/
theorem safe_check {post : Unit → State World → Prop}
    (hCalls : ∀ request, CheckCall request → permitted state request) (hClosed : state.txn = none) :
    Safe (step env) permitted (sysdChkIfHwDaemonsDone config) post state ↔
      (Ready config (state.link.replica.rows .daemon) →
        Safe (step env) permitted sysdSetHwDone post state) ∧
      (¬ Ready config (state.link.replica.rows .daemon) → post () state) := by
  by_cases hNone : config.hwDaemons = []
  · have hCount : config.numHwDaemons = 0 := by rw [Config.numHwDaemons, hNone, List.length_nil]
    simp [sysdChkIfHwDaemonsDone, hCount, Ready, hNone]
  · have hCount : config.numHwDaemons ≠ 0 := by simpa [Config.numHwDaemons] using hNone
    have hTally := tally_allSet (state.link.replica.rows .daemon) config.daemons
    rw [sysdChkIfHwDaemonsDone, if_neg hCount, safe_countDone hClosed hCalls]
    simp only [Ready, hNone, false_or, ← hTally]
    cases (tally (state.link.replica.rows .daemon) config.daemons 0).1 ||
        decide ((tally (state.link.replica.rows .daemon) config.daemons 0).2 = 0) <;> simp

theorem Grants.checkCalls (grants : Grants permitted) (request : Request) (h : CheckCall request) :
    permitted state request := by
  cases request with
  | rows _ | read _ _ => exact grants.loop trivial
  | _ => exact h.elim

/-- The check publishes where it is ready, and does nothing otherwise. -/
theorem safe_sysdChkIfHwDaemonsDone {post : Unit → State World → Prop} (grants : Grants permitted)
    (hClosed : state.txn = none) :
    Safe (step env) permitted (sysdChkIfHwDaemonsDone config) post state ↔
      (Ready config (state.link.replica.rows .daemon) →
        Safe (step env) permitted sysdSetHwDone post state) ∧
      (¬ Ready config (state.link.replica.rows .daemon) → post () state) :=
  safe_check grants.checkCalls hClosed

/-- In the middle of the publication: what is recorded and what the remaining
rows will add make up the whole transaction. -/
def Publishing (start : State World) (total : List Op) (rest : List RowId) (middle : State World) :
    Prop :=
  ∃ ops, ops ++ hwDoneOps rest = total ∧
    middle = { start with txn := some ⟨start.nextTxn, ops⟩, nextTxn := start.nextTxn + 1 }

/-- One System row after the other is marked. -/
theorem Publishing.safe_row {start : State World} {total : List Op} {row : RowId} {rest : List RowId}
    (h : Publishing start total (row :: rest) state)
    (hPublish : ∀ middle row column arg, HwDoneColumn column → middle.link = start.link →
      middle.txn ≠ none → permitted middle (.write row column arg)) :
    Safe (step env) permitted (do
      write row .systemCurHw (1 : Int)
      write row .systemNextHw (1 : Int)) (fun _ => Publishing start total rest) state := by
  obtain ⟨ops, rfl, rfl⟩ := h
  refine safe_write_open rfl (hPublish _ _ _ _ (by decide) rfl nofun) ?_
  rintro _ rfl
  refine safe_write_open (State.push_txn _ _ _) (hPublish _ _ _ _ (by decide) rfl nofun) ?_
  rintro _ rfl
  exact ⟨ops ++ [.write row .systemCurHw (1 : Int)] ++ [.write row .systemNextHw (1 : Int)],
    by simp [hwDoneOps], rfl⟩

/-- The calls of the publication, on the rows that the copy shows. -/
structure PublicationCalls (permitted : State World → Request → Prop) (state : State World) : Prop where
  create : permitted state .txnCreate
  rows (middle : State World) : permitted middle (.rows .system)
  write (middle : State World) (row : RowId) (column : Column) (arg : column.Arg)
    (hColumn : HwDoneColumn column) (hLink : middle.link = state.link) (hOpen : middle.txn ≠ none) :
    permitted middle (.write row column arg)
  commit : permitted { state with
      txn := some ⟨state.nextTxn, hwDoneOps (state.link.replica.ids .system)⟩,
      nextTxn := state.nextTxn + 1 } (.commitBlock state.nextTxn)
  destroy (middle : State World) (hClosed : middle.txn = none) :
    permitted middle (.txnDestroy state.nextTxn)
  store (middle : State World) : permitted middle (.storeHwInitDoneSet true)

/-- The publication is one transaction, whatever its outcome. -/
theorem PublicationCalls.safe {post : Unit → State World → Prop} (publishes : PublicationCalls permitted state)
    (hNext : ∀ status world link, env.commit state.world state.link
        (hwDoneOps (state.link.replica.ids .system)) status world link →
      post () { state with
        world, link, txn := none, nextTxn := state.nextTxn + 1, hwInitDoneSet := true }) :
    Safe (step env) permitted sysdSetHwDone post state := by
  refine safe_txnCreate.mpr ⟨publishes.create, fun hClosed => ?_⟩
  refine safe_rows.mpr ⟨publishes.rows _, ?_⟩
  have hView : State.view { state with txn := some ⟨state.nextTxn, []⟩, nextTxn := state.nextTxn + 1 } =
      state.link.replica := rfl
  rw [hView]
  refine (Safe.forM (fun row rest middle (h : Publishing state _ (row :: rest) middle) =>
    h.safe_row publishes.write) (state.link.replica.ids .system) ⟨[], List.nil_append _, rfl⟩).bind ?_
  rintro - _ ⟨ops, hOps, rfl⟩
  obtain rfl : ops = hwDoneOps (state.link.replica.ids .system) := by
    simpa [hwDoneOps] using hOps
  refine safe_commitBlock.mpr ⟨publishes.commit, ?_⟩
  intro current hCurrent _ status world link hCommit
  obtain rfl := Option.some.inj hCurrent
  refine safe_txnDestroy.mpr ⟨publishes.destroy _ rfl, safe_storeHwInitDoneSet.mpr ⟨publishes.store _, ?_⟩⟩
  exact hNext status world link hCommit

/-- The publication marks every System row and commits. -/
theorem safe_sysdSetHwDone {post : Unit → State World → Prop} (grants : Grants permitted)
    (hClosed : state.txn = none)
    (hPublish : ∀ middle row column arg, HwDoneColumn column → middle.link = state.link →
      middle.txn ≠ none → permitted middle (.write row column arg))
    (hNext : ∀ status world link, env.commit state.world state.link
        (hwDoneOps (state.link.replica.ids .system)) status world link →
      post () { state with
        world, link, txn := none, nextTxn := state.nextTxn + 1, hwInitDoneSet := true }) :
    Safe (step env) permitted sysdSetHwDone post state :=
  PublicationCalls.safe {
    create := grants.create hClosed
    rows := fun _ => grants.loop trivial
    write := hPublish
    commit := grants.commit rfl (not_configuration_hwDoneOps _)
    destroy := fun _ hDone => grants.destroy _ hDone
    store := fun _ => grants.loop trivial } hNext

end Rules
end OpsSysd.Daemon
