import OpsSysd.Library.Mirror
import OpsSysd.Idl.Ownership

/-! The copy of a database with some columns left out. A program that looks at no
cell of these, but in rows that it has inserted itself, cannot tell the copy from
the whole. -/
namespace OpsSysd.Idl

open CLib Interaction Interaction.Program

section Copies

variable (kept : Column → Prop) [DecidablePred kept]

/-- A row with the cells of these columns; in others there is what an unset column
holds. -/
def Row.keeping (row : Row) : Row :=
  { row with cells := fun column => if kept column then row.cells column else column.shape.default }

def Database.keeping (db : Database) : Database := db.map (Row.keeping kept)

/-- Rows stay apart when columns are dropped. -/
theorem distinct_keeping {db : Database} (h : (db.map Row.id).Nodup) :
    ((db.keeping kept).map Row.id).Nodup := by
  rwa [Database.keeping, List.map_map]

def Link.keeping (link : Link) : Link :=
  { link with replica := link.replica.keeping kept, distinct := distinct_keeping kept link.distinct }

/-- The environment in which the copies are such. The whole database is then a
part of the world. -/
def Environment.keeping {World : Type} (env : Environment World) : Environment (World × Link) where
  run before link after link' := link = before.2.keeping kept ∧
    env.run before.1 before.2 after.1 after.2 ∧ link' = after.2.keeping kept
  commit before link ops status after link' := link = before.2.keeping kept ∧
    env.commit before.1 before.2 ops status after.1 after.2 ∧ link' = after.2.keeping kept
  insertFails world table := env.insertFails world.1 table
  discards world := env.discards world.1
  symlinkFails world := env.symlinkFails world.1
  osRelease world lines := env.osRelease world.1 lines
  versionDetail world events := env.versionDetail world.1 events

def State.keeping {World : Type} (state : State World) : State (World × Link) :=
  { state with world := (state.world, state.link), link := state.link.keeping kept }

end Copies

section Cells

variable {kept : Column → Prop} [DecidablePred kept] {db db' : Database} {row : RowId}
  {column : Column}

/-- The tables list the same rows. -/
theorem ids_keeping (db : Database) (table : Table) : (db.keeping kept).ids table = db.ids table := by
  simp only [Database.ids, Database.rows, Database.keeping, List.filter_map, List.map_map]
  rfl

theorem exists_keeping : (db.keeping kept).Exists row ↔ db.Exists row := by
  simp only [Database.Exists, Database.keeping, List.mem_map, exists_exists_and_eq_and]
  rfl

/-- A column that is kept reads the same. -/
theorem get_keeping (h : kept column) : (db.keeping kept).get row column = db.get row column := by
  have hFind : ((db.keeping kept).find? fun other => other.id = row) =
      (db.find? fun other => other.id = row).map (Row.keeping kept) := by
    rw [Database.keeping, List.find?_map]
    rfl
  rw [Database.get, Database.get, hFind]
  cases db.find? fun other => other.id = row with
  | none => rfl
  | some found => exact if_pos h

/-- A request does the same to a cell wherever it was the same. -/
theorem get_apply_congr (hExists : ∀ other, db'.Exists other ↔ db.Exists other)
    (hGet : db'.get row column = db.get row column) (op : Op) :
    (op.apply db').get row column = (op.apply db).get row column := by
  cases op with
  | insert id table =>
      by_cases hRow : db.Exists row
      · rw [get_insert_exists hRow, get_insert_exists ((hExists row).mpr hRow), hGet]
      · by_cases hId : row = id
        · subst hId
          rw [get_insert_same hRow, get_insert_same fun h => hRow ((hExists row).mp h)]
        · rw [get_insert_other hId, get_insert_other hId, hGet]
  | write id column' value =>
      by_cases hCell : row = id ∧ column = column'
      · obtain ⟨rfl, rfl⟩ := hCell
        by_cases hRow : db.Exists row
        · rw [get_write_same hRow, get_write_same ((hExists row).mpr hRow)]
        · rw [get_absent fun h => hRow (exists_write.mp h),
            get_absent fun h => hRow ((hExists row).mp (exists_write.mp h))]
      · have hOther : row = id → column ≠ column' := fun hId hColumn => hCell ⟨hId, hColumn⟩
        rw [get_write_other value hOther, get_write_other value hOther, hGet]

/-- Where two databases agree on a cell they do so after the same operations. -/
theorem get_applyOps_congr (hExists : ∀ other, db'.Exists other ↔ db.Exists other)
    (hGet : db'.get row column = db.get row column) (ops : List Op) :
    (applyOps db' ops).get row column = (applyOps db ops).get row column := by
  induction ops using List.reverseRecOn with
  | nil => exact hGet
  | append_singleton ops op ih =>
      have hSame (other : RowId) : (applyOps db' ops).Exists other ↔ (applyOps db ops).Exists other := by
        rw [exists_applyOps, exists_applyOps, hExists]
      rw [applyOps_append, applyOps_append]
      exact get_apply_congr hSame ih op

end Cells

section Views

variable {World : Type} {kept : Column → Prop} [DecidablePred kept] {state : State World}

theorem keeping_ops : (state.keeping kept).ops = state.ops := rfl

theorem ids_view_keeping (table : Table) : (state.keeping kept).view.ids table = state.view.ids table := by
  rw [State.view_eq, State.view_eq, ids_applyOps, ids_applyOps, keeping_ops]
  exact congrArg (· ++ insertions table state.ops) (ids_keeping state.link.replica table)

theorem exists_view_keeping {row : RowId} : (state.keeping kept).view.Exists row ↔ state.view.Exists row := by
  rw [State.view_eq, State.view_eq, exists_applyOps, exists_applyOps, keeping_ops]
  exact or_congr_left exists_keeping

/-- So does a cell as it is seen, also one of a row that is new. -/
theorem get_view_keeping {row : RowId} {column : Column}
    (h : kept column ∨ ¬ state.link.replica.Exists row) :
    (state.keeping kept).view.get row column = state.view.get row column := by
  rw [State.view_eq, State.view_eq]
  refine get_applyOps_congr (fun _ => exists_keeping) ?_ state.ops
  rcases h with hKept | hAbsent
  · exact get_keeping hKept
  · rw [get_absent hAbsent, get_absent fun h => hAbsent (exists_keeping.mp h)]

end Views

section Mirror

variable {World : Type} {env : Environment World} {custody : Custody} {kept : Column → Prop}
  [DecidablePred kept] {state : State World}

/-- What the open transaction inserts is not in the copy. -/
def Fresh (state : State World) : Prop :=
  ∀ row, Inserts state.ops row → ¬ state.link.replica.Exists row

/-- With no transaction open nothing has been inserted. -/
theorem fresh_of_closed (h : state.txn = none) : Fresh state := by
  intro row hRow
  rw [State.ops, h] at hRow
  exact absurd hRow not_inserts_nil

/-- A row that is inserted is not in the copy. -/
theorem Fresh.step (h : Fresh state) {request : Request} {answer : request.Response}
    {after : State World} (hAttributable : Attributable custody state request)
    (hStep : Idl.step env state request answer after) : Fresh after := by
  cases request with
  | idlRun =>
      obtain ⟨world, link, -, rfl⟩ := hStep
      exact fresh_of_closed (hAttributable.runs rfl)
  | commitBlock txn =>
      obtain ⟨current, -, -, world, link, -, rfl⟩ := hStep
      exact fresh_of_closed rfl
  | txnCreate =>
      obtain ⟨-, rfl, rfl⟩ := hStep
      exact fun row hRow => absurd hRow not_inserts_nil
  | txnDestroy txn =>
      obtain rfl := (show after = _ from hStep)
      intro row hRow
      refine h row ?_
      cases hTxn : state.txn with
      | none => simp [State.ops, hTxn] at hRow
      | some current =>
          simp only [State.ops, hTxn, Option.filter_some] at hRow ⊢
          split at hRow
          · exact hRow
          · exact absurd hRow not_inserts_nil
  | insert txn table =>
      obtain ⟨current, hOpen, -, ⟨-, -, rfl⟩ | ⟨row, hNew, -, rfl⟩⟩ := hStep
      · exact h
      · intro other hOther hOld
        rw [ops_push hOpen, inserts_append, inserts_insert] at hOther
        rcases hOther with hBefore | rfl
        · exact h other hBefore hOld
        · have hView : state.view.Exists other := by
            rw [state.view_eq]
            exact exists_applyOps.mpr (.inl hOld)
          obtain ⟨existing, hMem, hSame⟩ := hView
          exact hNew existing hMem hSame
  | write row column arg =>
      cases hTxn : state.txn with
      | none =>
          simp only [Idl.step, hTxn] at hStep
          exact hStep.2 ▸ h
      | some current =>
          simp only [Idl.step, hTxn] at hStep
          obtain ⟨value, -, rfl⟩ := hStep
          intro other hOther
          rw [ops_push hTxn, inserts_append, or_iff_left not_inserts_write] at hOther
          exact h other hOther
  | isLockContended | hasLock | getSeqno | loadIdlSeqno | loadHwInitDoneSet | rows _ | read _ _ =>
      exact hStep.2 ▸ h
  | openOsRelease | openVersionDetail | symlink _ => exact hStep.2 ▸ h
  | storeIdlSeqno _ | storeHwInitDoneSet _ | calloc | unlink | daemonizeComplete | unixctlServerRun
  | pollBlock | startPass =>
      obtain rfl := (show after = _ from hStep)
      exact h
  | fault kind => exact answer.elim

/-- A call that leads to one state. -/
theorem leads_iff {fact : Prop} {target : State World} {other : State (World × Link)} :
    (fact ∧ other = target.keeping kept) ↔
      ∃ after : State World, other = after.keeping kept ∧ fact ∧ after = target := by
  constructor
  · rintro ⟨hFact, rfl⟩
    exact ⟨target, rfl, hFact, rfl⟩
  · rintro ⟨after, rfl, hFact, rfl⟩
    exact ⟨hFact, rfl⟩

theorem leads_iff_eq (target : State World) {other : State (World × Link)} :
    other = target.keeping kept ↔
      ∃ after : State World, other = after.keeping kept ∧ after = target := by
  constructor
  · rintro rfl
    exact ⟨target, rfl, rfl⟩
  · rintro ⟨after, rfl, rfl⟩
    rfl

theorem new_keeping {row : RowId} : (∀ existing ∈ (state.keeping kept).view, existing.id ≠ row) ↔
    ∀ existing ∈ state.view, existing.id ≠ row := by
  have hExists := @exists_view_keeping World kept _ state row
  have hNew (db : Database) : (∀ existing ∈ db, existing.id ≠ row) ↔ ¬ db.Exists row := by
    simp [Database.Exists]
  rw [hNew, hNew, hExists]

/-- On what is attributable, the environment with the copies is the whole one
without these columns. -/
theorem step_keeping (hFresh : Fresh state) (hKept : ∀ column, custody.watched column → kept column)
    {request : Request} (hAttributable : Attributable custody state request)
    {answer : request.Response} {other : State (World × Link)} :
    Idl.step (env.keeping kept) (state.keeping kept) request answer other ↔
      ∃ after, other = after.keeping kept ∧ Idl.step env state request answer after := by
  cases request with
  | idlRun =>
      constructor
      · rintro ⟨⟨world, link⟩, copy, ⟨-, hRun, rfl⟩, rfl⟩
        exact ⟨{ state with world, link }, rfl, world, link, hRun, rfl⟩
      · rintro ⟨after, rfl, world, link, hRun, rfl⟩
        exact ⟨(world, link), link.keeping kept, ⟨rfl, hRun, rfl⟩, rfl⟩
  | commitBlock txn =>
      constructor
      · rintro ⟨current, hOpen, hId, ⟨world, link⟩, copy, ⟨-, hCommit, rfl⟩, rfl⟩
        exact ⟨{ state with world, link, txn := none }, rfl, current, hOpen, hId, world, link, hCommit, rfl⟩
      · rintro ⟨after, rfl, current, hOpen, hId, world, link, hCommit, rfl⟩
        exact ⟨current, hOpen, hId, (world, link), link.keeping kept, ⟨rfl, hCommit, rfl⟩, rfl⟩
  | rows table =>
      simp only [Idl.step, ids_view_keeping]
      exact leads_iff
  | read row column =>
      have hGet : (state.keeping kept).view.get row column = state.view.get row column := by
        refine get_view_keeping ?_
        rcases hAttributable.reads row column rfl with hOwn | hWatched
        · exact .inr (hFresh row hOwn)
        · exact .inl (hKept column hWatched)
      simp only [Idl.step, hGet]
      exact leads_iff
  | insert txn table =>
      constructor
      · rintro ⟨current, hOpen, hId, ⟨hNone, hFails, rfl⟩ | ⟨row, hNew, hSome, rfl⟩⟩
        · exact ⟨state, rfl, current, hOpen, hId, .inl ⟨hNone, hFails, rfl⟩⟩
        · exact ⟨state.push current (.insert row table), rfl, current, hOpen, hId,
            .inr ⟨row, new_keeping.mp hNew, hSome, rfl⟩⟩
      · rintro ⟨after, rfl, current, hOpen, hId, ⟨hNone, hFails, rfl⟩ | ⟨row, hNew, hSome, rfl⟩⟩
        · exact ⟨current, hOpen, hId, .inl ⟨hNone, hFails, rfl⟩⟩
        · exact ⟨current, hOpen, hId, .inr ⟨row, new_keeping.mpr hNew, hSome, rfl⟩⟩
  | write row column arg =>
      have hTxn : (state.keeping kept).txn = state.txn := rfl
      cases hOpen : state.txn with
      | none =>
          simp only [Idl.step, hTxn, hOpen]
          exact leads_iff
      | some current =>
          simp only [Idl.step, hTxn, hOpen]
          constructor
          · rintro ⟨value, hValue, rfl⟩
            exact ⟨state.push current (.write row column value), rfl, value, hValue, rfl⟩
          · rintro ⟨after, rfl, value, hValue, rfl⟩
            exact ⟨value, hValue, rfl⟩
  | txnCreate =>
      constructor
      · rintro ⟨hClosed, rfl, rfl⟩
        exact ⟨{ state with txn := some ⟨state.nextTxn, []⟩, nextTxn := state.nextTxn + 1 }, rfl, hClosed,
          rfl, rfl⟩
      · rintro ⟨after, rfl, hClosed, rfl, rfl⟩
        exact ⟨hClosed, rfl, rfl⟩
  | isLockContended | hasLock | getSeqno | loadIdlSeqno | loadHwInitDoneSet => exact leads_iff
  | openOsRelease | openVersionDetail | symlink _ => exact leads_iff
  | storeIdlSeqno seqno => exact leads_iff_eq { state with idlSeqno := seqno }
  | startPass => exact leads_iff_eq { state with examined := state.link.seqno :: state.examined }
  | storeHwInitDoneSet value => exact leads_iff_eq { state with hwInitDoneSet := value }
  | txnDestroy txn =>
      exact leads_iff_eq { state with txn := state.txn.filter fun current => current.id ≠ txn }
  | calloc | unlink | daemonizeComplete | unixctlServerRun | pollBlock => exact leads_iff_eq state
  | fault kind => exact answer.elim

/-- Each answered call that is attributable is answered in the same way without the
other columns. -/
theorem mirrors_keeping (hKept : ∀ column, custody.watched column → kept column) :
    Mirrors (Idl.step env) (Idl.step (env.keeping kept)) (Attributable custody) Fresh
      (State.keeping kept) where
  keeps h hAttributable hStep := h.step hAttributable hStep
  mirror h hAttributable := step_keeping h hKept hAttributable

end Mirror
end OpsSysd.Idl
