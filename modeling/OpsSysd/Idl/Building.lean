import OpsSysd.Idl.Transforms

/-! Programs that add rows to a transaction and fill columns of one class: every
other cell of the rows that were there stays as it is. -/
namespace OpsSysd.Idl

open CLib Interaction Interaction.Program

/-- Calls that add rows to this transaction and fill columns of this class. Rows
that are looked for by name are added only where the class has their names. -/
def Building (columns : Column → Prop) (txn : TxnId) : Request → Prop
  | .insert txn' table =>
      txn' = txn ∧ table ≠ .system ∧ ∀ column ∈ table.nameColumn, columns column
  | .write _ column _ => columns column
  | .rows _ | .read .. | .fault _ => True
  | _ => False

/-- The same calls, but for packages, with arguments that are initialised as far as
their counts say. -/
def Supplying (columns : Column → Prop) (txn : TxnId) : Request → Prop
  | .insert txn' table => txn' = txn ∧ (table ≠ .system ∧ table ≠ .packageInfo) ∧
      ∀ column ∈ table.nameColumn, columns column
  | .write _ column arg => columns column ∧ column.shape.Initialised arg
  | .rows _ | .read .. | .fault _ => True
  | _ => False

variable {World Result : Type} {env : Environment World} {columns : Column → Prop} {txn : TxnId}
  {program : Program Calls Result}

theorem name_of_unnamed {table : Table} (h : table.nameColumn = none) :
    ∀ column ∈ table.nameColumn, columns column := by
  simp [h]

theorem name_of_named {table : Table} {name : Column} (h : table.nameColumn = some name)
    (hName : columns name) : ∀ column ∈ table.nameColumn, columns column := by
  simpa [h] using hName

/-- An initialised value in an allowed column may be supplied. -/
theorem supplies_write {row : RowId} {column : Column} {arg : column.Arg} (h : columns column)
    (hArg : column.shape.Initialised arg) : Supplying columns txn (.write row column arg) := ⟨h, hArg⟩

/-- And something else may be supplied after it. -/
theorem supplies_write_then {row : RowId} {column : Column} {arg : column.Arg}
    {next : Unit → Program Calls Result} (hColumn : columns column)
    (hArg : column.shape.Initialised arg) (hNext : (next ()).Issues (Supplying columns txn)) :
    (Program.call (.write row column arg) next : Program Calls Result).Issues
      (Supplying columns txn) :=
  ⟨supplies_write hColumn hArg, fun _ => hNext⟩

@[simp] theorem supplying_insert {txn' : TxnId} {table : Table} :
    Supplying columns txn (.insert txn' table) ↔ txn' = txn ∧
      (table ≠ .system ∧ table ≠ .packageInfo) ∧ ∀ column ∈ table.nameColumn, columns column := Iff.rfl

@[simp] theorem supplying_write {row : RowId} {column : Column} {arg : column.Arg} :
    Supplying columns txn (.write row column arg) ↔
      columns column ∧ column.shape.Initialised arg := Iff.rfl

@[simp] theorem supplying_read {row : RowId} {column : Column} :
    Supplying columns txn (.read row column) := trivial

@[simp] theorem supplying_rows {table : Table} : Supplying columns txn (.rows table) := trivial

@[simp] theorem supplying_fault {kind : Fault} : Supplying columns txn (.fault kind) := trivial

/-- What supplies initialised values builds. -/
theorem builds_of_supplies (hIssues : program.Issues (Supplying columns txn)) :
    program.Issues (Building columns txn) :=
  hIssues.mono fun request h => by
    cases request with
    | write row column arg => exact h.1
    | insert txn' table => exact ⟨h.1, h.2.1.1, h.2.2⟩
    | _ => exact h

/-- The columns may be widened. -/
theorem Supplying.mono {wider : Column → Prop} {request : Request}
    (hColumns : ∀ column, columns column → wider column) (h : Supplying columns txn request) :
    Supplying wider txn request := by
  cases request with
  | write row column arg => exact ⟨hColumns column h.1, h.2⟩
  | insert txn' table => exact ⟨h.1, h.2.1, fun column hName => hColumns column (h.2.2 column hName)⟩
  | _ => exact h

/-- They may be widened here as well. -/
theorem Building.mono {wider : Column → Prop} {request : Request}
    (hColumns : ∀ column, columns column → wider column) (h : Building columns txn request) :
    Building wider txn request := by
  cases request with
  | write row column arg => exact hColumns column h
  | insert txn' table => exact ⟨h.1, h.2.1, fun column hName => hColumns column (h.2.2 column hName)⟩
  | _ => exact h

/-- No System row is added, nor a row whose name is outside the class, and no cell
outside the class is changed. -/
structure Built (columns : Column → Prop) (before after : Database) : Prop where
  frame : before.Extends (fun _ column => columns column) after
  systems : after.ids .system = before.ids .system
  named : ∀ table, ∀ column ∈ table.nameColumn, ¬ columns column → after.ids table = before.ids table

theorem Built.refl (columns : Column → Prop) (db : Database) : Built columns db db :=
  ⟨.refl _ db, rfl, fun _ _ _ _ => rfl⟩

/-- Building goes on where it has come to. -/
theorem Built.trans {before middle after : Database} (first : Built columns before middle)
    (second : Built columns middle after) : Built columns before after where
  frame := first.frame.trans second.frame fun _ _ _ h => h
  systems := second.systems.trans first.systems
  named table column hName hColumn :=
    (second.named table column hName hColumn).trans (first.named table column hName hColumn)

/-- What is built with some columns is built with more. -/
theorem Built.mono {wider : Column → Prop} {before after : Database}
    (hColumns : ∀ column, columns column → wider column) (h : Built columns before after) :
    Built wider before after where
  frame := h.frame.mono fun _ column _ => hColumns column
  systems := h.systems
  named table column hName hColumn := h.named table column hName (mt (hColumns column) hColumn)

/-- A class without names, where nothing of it was changed in the rows that were there. -/
theorem Built.narrow {narrow : Column → Prop} {before after : Database} (h : Built columns before after)
    (hProfile : ¬ columns .qProfileName) (hQos : ¬ columns .qosName)
    (hFrame : before.Extends (fun _ column => narrow column) after) : Built narrow before after where
  frame := hFrame
  systems := h.systems
  named table column hName _ := by
    refine h.named table column hName fun hColumn => ?_
    cases table with
    | qProfile => exact hProfile (Option.mem_some.mp hName ▸ hColumn)
    | qos => exact hQos (Option.mem_some.mp hName ▸ hColumn)
    | _ => exact nomatch hName

/-- The cells of rows that were there stay, outside the columns. -/
theorem Built.get_eq {before after : Database} (h : Built columns before after) {row : RowId}
    (hRow : before.Exists row) {column : Column} (hColumn : ¬ columns column) :
    after.get row column = before.get row column := h.frame.get_eq row column hRow hColumn

/-- A write builds with its own column. -/
theorem built_write {db : Database} {row : RowId} {column : Column} (value : column.Val) :
    Built (· = column) db ((Op.write row column value).apply db) :=
  ⟨(extends_write value).mono fun _ _ _ => And.right, ids_write, fun _ _ _ _ => ids_write⟩

/-- A row of another table is looked for as before. -/
theorem ids_insert_other {db : Database} {row : RowId} {table other : Table} (h : table ≠ other) :
    ((Op.insert row table).apply db).ids other = db.ids other := by
  simp [h]

/-- A row that has been added, and is being filled. -/
structure Adding (columns : Column → Prop) (start : Database) (row : RowId) (db : Database) : Prop
    where
  built : Built columns start db
  fresh : ¬ start.Exists row
  present : db.Exists row

section Adding

variable {start db after : Database} {row : RowId}

/-- An insertion builds with the column of the name that it leaves empty. -/
theorem built_insert {db : Database} {row : RowId} {table : Table} (hFresh : ¬ db.Exists row)
    (hTable : table ≠ .system) (hName : ∀ column ∈ table.nameColumn, columns column) :
    Built columns db ((Op.insert row table).apply db) where
  frame := (extends_insert hFresh).mono fun _ _ _ => False.elim
  systems := ids_insert_other hTable
  named other column hOther hColumn := by
    refine ids_insert_other fun hSame => hColumn (hName column ?_)
    rwa [hSame]

/-- The first step in adding a row is to insert it. -/
theorem Adding.of_insert {table : Table} (hFresh : ¬ start.Exists row) (hTable : table ≠ .system)
    (hName : ∀ column ∈ table.nameColumn, columns column) :
    Adding columns start row ((Op.insert row table).apply start) where
  built := built_insert hFresh hTable hName
  fresh := hFresh
  present := exists_insert.mpr (.inr rfl)

/-- The row's own columns may be written freely. -/
theorem Adding.write (h : Adding columns start row db) {column : Column} (value : column.Val) :
    Adding columns start row ((Op.write row column value).apply db) where
  built := by
    refine ⟨h.built.frame.trans (extends_write value) ?_, ids_write.trans h.built.systems, ?_⟩
    · exact fun _ _ hOld hSame => absurd (hSame.1 ▸ hOld) h.fresh
    · exact fun table column hName hColumn => ids_write.trans (h.built.named table column hName hColumn)
  fresh := h.fresh
  present := exists_write.mpr h.present

/-- Later steps leave it the row that is added. -/
theorem Adding.later (h : Adding columns start row db) (hBuilt : Built columns db after) :
    Adding columns start row after where
  built := h.built.trans hBuilt
  fresh := h.fresh
  present := hBuilt.frame.exists_of row h.present

/-- When nothing is left to write the row has been added, with what is known of it. -/
theorem Adding.addedRow {fact : RowId → Database → Prop} (h : Adding (fun _ => False) start row db)
    (hFact : fact row db) : AddedRow fact start row db :=
  ⟨h.built.frame, h.fresh, h.present, hFact⟩

end Adding

/-- What holds of the session while a program builds. -/
structure BuiltFrom (columns : Column → Prop) (txn : TxnId) (start state : State World) : Prop where
  opened : state.Opened txn
  world : state.world = start.world
  built : Built columns start.view state.view

/-- Every answered request of that kind keeps the state one that is built from the
start. -/
theorem BuiltFrom.step {start before after : State World} {request : Request}
    {answer : request.Response} (hBuilding : Building columns txn request)
    (h : BuiltFrom columns txn start before) (hStep : Idl.step env before request answer after) :
    BuiltFrom columns txn start after := by
  cases request with
  | insert txn' table =>
      obtain ⟨last, hLast, hId, ⟨-, -, rfl⟩ | ⟨row, hFresh, -, rfl⟩⟩ := hStep
      · exact h
      · have hNew : ¬ before.view.Exists row := fun ⟨old, hMem, hSame⟩ => hFresh old hMem hSame
        have hView := State.view_push hLast (.insert row table)
        have hBuilt : Built columns before.view (before.push last (.insert row table)).view := by
          rw [hView]
          exact built_insert hNew hBuilding.2.1 hBuilding.2.2
        exact ⟨⟨_, rfl, hBuilding.1 ▸ hId⟩, h.world, h.built.trans hBuilt⟩
  | write row column arg =>
      obtain ⟨last, hLast, hId⟩ := h.opened
      simp only [Idl.step, hLast] at hStep
      obtain ⟨value, -, rfl⟩ := hStep
      have hView := State.view_push hLast (.write row column value)
      have hBuilt : Built columns before.view (before.push last (.write row column value)).view := by
        rw [hView]
        refine (built_write value).mono ?_
        rintro _ rfl
        exact hBuilding
      exact ⟨⟨_, rfl, hId⟩, h.world, h.built.trans hBuilt⟩
  | rows _ | read _ _ => exact hStep.2 ▸ h
  | fault kind => exact answer.elim
  | _ => exact hBuilding.elim

/-- A program that only builds keeps every other cell. -/
theorem safe_building {state : State World} (hIssues : program.Issues (Building columns txn))
    (hOpen : state.Opened txn) :
    Safe (step env) (fun _ _ => True) program (fun _ => BuiltFrom columns txn state) state :=
  Safe.of_issues hIssues (fun _ _ _ _ => trivial)
    (fun _ _ _ _ hBuilding h hStep => h.step hBuilding hStep) ⟨hOpen, rfl, .refl _ _⟩

/-- The same, of what the transaction shows. -/
theorem transforms_building {db : Database} (hIssues : program.Issues (Building columns txn)) :
    Transforms env (fun _ _ => True) txn program db fun _ => Built columns db := by
  rintro state hOpen rfl
  exact (safe_building hIssues hOpen).mono fun _ _ h => ⟨h.opened, h.built⟩

end OpsSysd.Idl
