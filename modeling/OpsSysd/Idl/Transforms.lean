import OpsSysd.Idl.View
import Mathlib.Data.List.Forall2

/-! Programs that fill an open transaction, as transformers of the database that
the transaction shows. The rules follow the program; a state appears only where
a program is started. -/
namespace OpsSysd.Idl

open CLib Interaction Interaction.Program

variable {World : Type}

/-- What the IDL's rules allow is permitted, and so is the use of a row that was
refused, where the environment refuses any. -/
structure Admits (env : Environment World) (permitted : State World → Request → Prop) : Prop where
  disciplined (state : State World) (request : Request) (h : Disciplined state request) :
    permitted state request
  refused (world : World) (table : Table) (h : env.insertFails world table) (state : State World) :
    permitted state (.fault .nullPointer)

/-- Where the transaction shows this database, the program is safe, keeps it
open, and ends with the postcondition on what it shows. -/
def Transforms (env : Environment World) (permitted : State World → Request → Prop) (txn : TxnId)
    {Result : Type} (program : Program Calls Result) (db : Database)
    (post : Result → Database → Prop) : Prop :=
  ∀ state : State World, state.Opened txn → state.view = db →
    Safe (step env) permitted program (fun result after => after.Opened txn ∧ post result after.view)
      state

section Rules

variable {env : Environment World} {permitted : State World → Request → Prop} {txn : TxnId}
  {Result Next : Type} {db : Database} {post : Result → Database → Prop}

theorem transforms_done {result : Result} (h : post result db) :
    Transforms env permitted txn (.done result) db post := by
  rintro state hOpen rfl
  exact ⟨hOpen, h⟩

/-- A postcondition may be weakened. -/
theorem Transforms.mono {weaker : Result → Database → Prop} {program : Program Calls Result}
    (h : Transforms env permitted txn program db post)
    (hPost : ∀ result after, post result after → weaker result after) :
    Transforms env permitted txn program db weaker :=
  fun state hOpen hView => (h state hOpen hView).mono fun _ _ hAfter => ⟨hAfter.1, hPost _ _ hAfter.2⟩

/-- Two arguments about one program. -/
theorem Transforms.and {program : Program Calls Result} {other : Result → Database → Prop}
    (first : Transforms env permitted txn program db post)
    (second : Transforms env (fun _ _ => True) txn program db other) :
    Transforms env permitted txn program db fun result after =>
      post result after ∧ other result after :=
  fun state hOpen hView => (((first state hOpen hView).and (second state hOpen hView)).permit
    fun _ _ h => h.1).mono fun _ _ h => ⟨h.1.1, h.1.2, h.2.2⟩

/-- Two programs in turn, with an assertion about the database between them. -/
theorem Transforms.bind {program : Program Calls Result} {after : Result → Program Calls Next}
    {last : Next → Database → Prop} (first : Transforms env permitted txn program db post)
    (rest : ∀ result middle, post result middle →
      Transforms env permitted txn (after result) middle last) :
    Transforms env permitted txn (program >>= after) db last :=
  fun state hOpen hView => (first state hOpen hView).bind fun result state' h =>
    rest result state'.view h.2 state' h.1 rfl

/-- A write applies what is stored of its argument. -/
theorem transforms_write (admits : Admits env permitted) {row : RowId} {column : Column}
    {arg : column.Arg} {next : Unit → Program Calls Result}
    (hNext : ∀ value, column.shape.Stored arg value →
      Transforms env permitted txn (next ()) ((Op.write row column value).apply db) post) :
    Transforms env permitted txn (.call (.write row column arg) next) db post := by
  rintro state ⟨current, hCurrent, hId⟩ rfl
  have hPermitted : Disciplined state (.write row column arg) :=
    fun hNone => nomatch hCurrent.symm.trans hNone
  refine safe_write_open hCurrent (admits.disciplined _ _ hPermitted) fun value hValue => ?_
  exact hNext value hValue _ ⟨_, rfl, hId⟩ (State.view_push hCurrent _)

/-- A column in which only one value can be stored. -/
theorem transforms_assign (admits : Admits env permitted) {row : RowId} {column : Column}
    {arg : column.Arg} {value : column.Val} {next : Unit → Program Calls Result}
    (hOnly : ∀ stored, column.shape.Stored arg stored → stored = value)
    (hNext : Transforms env permitted txn (next ()) ((Op.write row column value).apply db) post) :
    Transforms env permitted txn (.call (.write row column arg) next) db post := by
  apply transforms_write admits
  intro stored hStored
  rw [hOnly stored hStored]
  exact hNext

/-- An insertion gives a row that is not there yet. -/
theorem transforms_insertRow (admits : Admits env permitted) {table : Table}
    {next : RowId → Program Calls Result}
    (hNext : ∀ row, ¬ db.Exists row →
      Transforms env permitted txn (next row) ((Op.insert row table).apply db) post) :
    Transforms env permitted txn (insertRow txn table >>= next) db post := by
  rintro state ⟨current, hCurrent, rfl⟩ rfl
  have hPermitted : Disciplined state (.insert current.id table) := ⟨current, hCurrent, rfl⟩
  refine safe_insert_open hCurrent (admits.disciplined _ _ hPermitted) (fun hFails => ?_) ?_
  · exact safe_fault.mpr (admits.refused _ _ hFails state)
  · intro row hFresh
    have hNew : ¬ state.view.Exists row := fun ⟨existing, hMem, hSame⟩ => hFresh existing hMem hSame
    exact hNext row hNew _ ⟨_, rfl, rfl⟩ (State.view_push hCurrent _)

/-- A cell is read as the open transaction leaves it. -/
theorem transforms_read (admits : Admits env permitted) {row : RowId} {column : Column}
    {next : column.Val → Program Calls Result}
    (hNext : Transforms env permitted txn (next (db.get row column)) db post) :
    Transforms env permitted txn (.call (.read row column) next) db post := by
  rintro state hOpen rfl
  exact safe_read.mpr ⟨admits.disciplined _ _ trivial, hNext state hOpen rfl⟩

/-- So is the list of the rows of a table. -/
theorem transforms_rows (admits : Admits env permitted) {table : Table}
    {next : List RowId → Program Calls Result}
    (hNext : Transforms env permitted txn (next (db.ids table)) db post) :
    Transforms env permitted txn (.call (.rows table) next) db post := by
  rintro state hOpen rfl
  exact safe_rows.mpr ⟨admits.disciplined _ _ trivial, hNext state hOpen rfl⟩

/-- An allocation changes nothing, whatever its outcome. -/
theorem transforms_calloc (admits : Admits env permitted) {next : Bool → Program Calls Result}
    (hNext : ∀ allocated, Transforms env permitted txn (next allocated) db post) :
    Transforms env permitted txn (.call .calloc next) db post :=
  fun state hOpen hView => safe_calloc.mpr ⟨admits.disciplined _ _ trivial,
    fun allocated => hNext allocated state hOpen hView⟩

/-- Neither does reading the release file. -/
theorem transforms_openOsRelease (admits : Admits env permitted)
    {next : Option (List (List UInt8)) → Program Calls Result}
    (hNext : ∀ release, Transforms env permitted txn (next release) db post) :
    Transforms env permitted txn (.call .openOsRelease next) db post :=
  fun state hOpen hView => safe_openOsRelease.mpr ⟨admits.disciplined _ _ trivial,
    fun release _ => hNext release state hOpen hView⟩

/-- A loop over the numbers below a bound. -/
theorem transforms_forM_range {body : Nat → Program Calls PUnit} {invariant : Nat → Database → Prop}
    (count : Nat) (hBody : ∀ index < count, ∀ middle, invariant index middle →
      Transforms env permitted txn (body index) middle fun _ => invariant (index + 1))
    (hStart : invariant 0 db) :
    Transforms env permitted txn (forM (List.range count) body) db fun _ => invariant count := by
  induction count with
  | zero => exact transforms_done hStart
  | succ count ih =>
      rw [List.range_succ, List.forM_append]
      refine (ih fun index hIndex => hBody index (Nat.lt_succ_of_lt hIndex)).bind ?_
      intro _ middle hMiddle
      rw [List.forM_cons, List.forM_nil, bind_pure_unit]
      exact hBody count (Nat.lt_succ_self count) middle hMiddle

/-- A loop over a list. -/
theorem transforms_forM {Item : Type} {body : Item → Program Calls PUnit}
    {invariant : List Item → List Item → Database → Prop}
    (hBody : ∀ done item rest middle, invariant done (item :: rest) middle →
      Transforms env permitted txn (body item) middle fun _ => invariant (done ++ [item]) rest)
    (items : List Item) {done : List Item} (hStart : invariant done items db) :
    Transforms env permitted txn (forM items body) db fun _ => invariant (done ++ items) [] := by
  induction items generalizing done db with
  | nil =>
      rw [List.append_nil]
      exact transforms_done hStart
  | cons item items ih =>
      rw [List.forM_cons]
      refine (hBody done item items db hStart).bind fun _ middle hMiddle => ?_
      have hRest := ih hMiddle
      rwa [List.append_assoc] at hRest

/-- A loop that writes one value to a column of many rows. -/
theorem transforms_forM_write (admits : Admits env permitted) {Item : Type} (rowOf : Item → RowId)
    {column : Column} {arg : column.Arg} {value : column.Val}
    (hArg : ∀ stored, column.shape.Stored arg stored → stored = value) (items : List Item)
    (hItems : ∀ item ∈ items, db.Exists (rowOf item)) :
    Transforms env permitted txn (forM items fun item => write (rowOf item) column arg) db
      fun _ after =>
        db.Extends (fun id column' => column' = column ∧ ∃ item ∈ items, rowOf item = id) after ∧
        (∀ table, after.ids table = db.ids table) ∧
        ∀ item ∈ items, after.get (rowOf item) column = value := by
  have hLoop := @transforms_forM World env permitted txn db Item
    (fun item => write (rowOf item) column arg)
    (fun done rest middle => items = done ++ rest ∧
      db.Extends (fun id column' => column' = column ∧ ∃ item ∈ items, rowOf item = id) middle ∧
      (∀ table, middle.ids table = db.ids table) ∧
      ∀ item ∈ done, middle.get (rowOf item) column = value)
    ?_ items [] ⟨rfl, .refl _ _, fun _ => rfl, nofun⟩
  · exact hLoop.mono fun _ after h => h.2
  intro done item rest middle ⟨hSplit, hFrame, hIds, hDone⟩
  have hItem : item ∈ items := hSplit ▸ List.mem_append_right _ List.mem_cons_self
  have hExists : middle.Exists (rowOf item) := hFrame.exists_of _ (hItems item hItem)
  refine transforms_write admits fun stored hStored => transforms_done ⟨?_, ?_, ?_, ?_⟩
  · rw [hSplit, List.append_assoc, List.singleton_append]
  · refine hFrame.trans (extends_write stored) fun id column' _ ⟨hId, hColumn⟩ => ?_
    exact ⟨hColumn, item, hItem, hId.symm⟩
  · exact fun table => ids_write.trans (hIds table)
  · intro other hOther
    obtain rfl := hArg stored hStored
    by_cases hSame : rowOf other = rowOf item
    · rw [hSame]
      exact get_write_same hExists stored
    · rw [get_write_other stored fun h => absurd h hSame]
      refine hDone other ((List.mem_append.mp hOther).resolve_right fun hLast => hSame ?_)
      rw [List.mem_singleton.mp hLast]

/-- A row has been added, and holds what it should. Rows that were there are as
they were. -/
structure AddedRow (fact : RowId → Database → Prop) (db : Database) (row : RowId) (after : Database) :
    Prop where
  frame : db.Extends (fun _ _ => False) after
  fresh : ¬ db.Exists row
  present : after.Exists row
  holds : fact row after

/-- An inserted row has been added. -/
theorem AddedRow.of_insert {row : RowId} {table : Table} (h : ¬ db.Exists row) :
    AddedRow (fun _ _ => True) db row ((Op.insert row table).apply db) :=
  ⟨extends_insert h, h, exists_insert.mpr (.inr rfl), trivial⟩

/-- An added row may be filled. -/
theorem AddedRow.write {fact fact' : RowId → Database → Prop} {middle : Database} {row : RowId}
    {column : Column} {value : column.Val} (h : AddedRow fact db row middle)
    (hFact : fact' row ((Op.write row column value).apply middle)) :
    AddedRow fact' db row ((Op.write row column value).apply middle) where
  frame := h.frame.trans (extends_write value) fun _ _ hOld hSame => h.fresh (hSame.1 ▸ hOld)
  fresh := h.fresh
  present := exists_write.mpr h.present
  holds := hFact

/-- The rows that a run of insertions has added. -/
structure Inserted (db : Database) (rows : List RowId) (after : Database) : Prop where
  frame : db.Extends (fun _ _ => False) after
  distinct : rows.Nodup
  fresh : ∀ row ∈ rows, ¬ db.Exists row
  present : ∀ row ∈ rows, after.Exists row

theorem Inserted.nil (db : Database) : Inserted db [] db :=
  ⟨.refl _ _, List.nodup_nil, nofun, nofun⟩

/-- Rows are inserted one after the other. -/
theorem Inserted.cons {fact : RowId → Database → Prop} {middle after : Database} {row : RowId}
    {rows : List RowId} (first : AddedRow fact db row middle) (rest : Inserted middle rows after) :
    Inserted db (row :: rows) after where
  frame := first.frame.trans rest.frame fun _ _ _ => id
  distinct := List.nodup_cons.mpr ⟨fun hMem => rest.fresh row hMem first.present, rest.distinct⟩
  fresh := by
    rintro other (_ | ⟨_, hOther⟩)
    · exact first.fresh
    · exact fun hOld => rest.fresh other hOther (first.frame.exists_of other hOld)
  present := by
    rintro other (_ | ⟨_, hOther⟩)
    · exact rest.frame.exists_of row first.present
    · exact rest.present other hOther

/-- A loop that adds a row for each item. What a row holds must not depend on
the rows added later. -/
theorem transforms_mapM {Item : Type} {body : Item → Program Calls RowId}
    {fact : Item → RowId → Database → Prop} {items : List Item}
    (hBody : ∀ item ∈ items, ∀ middle, Transforms env permitted txn (body item) middle
      fun row after => AddedRow (fact item) middle row after)
    (hLater : ∀ item row before after, fact item row before → before.Exists row →
      before.Extends (fun _ _ => False) after → fact item row after) :
    Transforms env permitted txn (items.mapM body) db fun rows after =>
      Inserted db rows after ∧ List.Forall₂ (fun row item => fact item row after) rows items := by
  induction items generalizing db with
  | nil =>
      rw [List.mapM_nil]
      exact transforms_done ⟨.nil db, .nil⟩
  | cons item items ih =>
      have hItems (db : Database) := @ih db fun later hItem => hBody later (.tail _ hItem)
      rw [List.mapM_cons]
      refine (hBody item List.mem_cons_self db).bind fun row middle hRow => ?_
      refine (hItems middle).bind fun rows after ⟨hRest, hFacts⟩ => ?_
      refine transforms_done ⟨.cons hRow hRest, .cons ?_ hFacts⟩
      exact hLater item row middle after hRow.holds hRow.present hRest.frame

/-- A row for each item. -/
theorem transforms_mapM_insertRow (admits : Admits env permitted) {Item : Type} (items : List Item)
    (table : Table) :
    Transforms env permitted txn (items.mapM fun _ => insertRow txn table) db fun rows after =>
      rows.length = items.length ∧ Inserted db rows after := by
  have hBody : ∀ item ∈ items, ∀ middle, Transforms env permitted txn (insertRow txn table) middle
      fun row after => AddedRow (fun _ _ => True) middle row after := by
    intro _ _ middle
    rw [← bind_done (insertRow txn table)]
    exact transforms_insertRow admits fun row hRow => transforms_done (.of_insert hRow)
  refine (transforms_mapM hBody fun _ _ _ _ _ _ _ => trivial).mono ?_
  exact fun rows after h => ⟨h.2.length_eq, h.1⟩

/-- From any database, the program does only what is permitted, and keeps the
transaction open. -/
def Runs (env : Environment World) (permitted : State World → Request → Prop) (txn : TxnId)
    (program : Program Calls Result) : Prop :=
  ∀ db, Transforms env permitted txn program db fun _ _ => True

/-- A program with a postcondition runs. -/
theorem Transforms.runs {program : Program Calls Result} {post : Database → Result → Database → Prop}
    (h : ∀ db, Transforms env permitted txn program db (post db)) : Runs env permitted txn program :=
  fun db => (h db).mono fun _ _ _ => trivial

theorem runs_done (result : Result) : Runs env permitted txn (.done result : Program Calls Result) :=
  fun _ => transforms_done trivial

/-- Programs that run do so in turn. -/
theorem Runs.bind {program : Program Calls Result} {after : Result → Program Calls Next}
    (first : Runs env permitted txn program) (rest : ∀ result, Runs env permitted txn (after result)) :
    Runs env permitted txn (program >>= after) :=
  fun db => (first db).bind fun result middle _ => rest result middle

theorem runs_write (admits : Admits env permitted) (row : RowId) (column : Column)
    (arg : column.Arg) : Runs env permitted txn (write row column arg) :=
  fun _ => transforms_write admits fun _ _ => transforms_done trivial

theorem runs_read (admits : Admits env permitted) (row : RowId) (column : Column) :
    Runs env permitted txn (read row column) :=
  fun _ => transforms_read admits (transforms_done trivial)

theorem runs_insertRow (admits : Admits env permitted) (table : Table) :
    Runs env permitted txn (insertRow txn table) := by
  intro db
  rw [← bind_done (insertRow txn table)]
  exact transforms_insertRow admits fun _ _ => transforms_done trivial

/-- A loop runs if its body does. -/
theorem runs_forM {Item : Type} {body : Item → Program Calls PUnit} (items : List Item)
    (hBody : ∀ item, Runs env permitted txn (body item)) :
    Runs env permitted txn (forM items body) := by
  induction items with
  | nil => exact runs_done _
  | cons item items ih =>
      rw [List.forM_cons]
      exact (hBody item).bind fun _ => ih

theorem runs_calloc (admits : Admits env permitted) : Runs env permitted txn calloc :=
  fun _ => transforms_calloc admits fun _ => transforms_done trivial

theorem runs_openOsRelease (admits : Admits env permitted) : Runs env permitted txn openOsRelease :=
  fun _ => transforms_openOsRelease admits fun _ => transforms_done trivial

/-- So does one that collects results. -/
theorem runs_mapM {Item : Type} {body : Item → Program Calls Result} {items : List Item}
    (hBody : ∀ item ∈ items, Runs env permitted txn (body item)) :
    Runs env permitted txn (items.mapM body) := by
  induction items with
  | nil => exact runs_done _
  | cons item items ih =>
      rw [List.mapM_cons]
      refine (hBody item List.mem_cons_self).bind fun result => ?_
      exact (ih fun other hOther => hBody other (.tail _ hOther)).bind fun _ => runs_done _

end Rules

/-- The same environment, with no row refused. -/
def Environment.accepting (env : Environment World) : Environment World :=
  { env with insertFails := fun _ _ => False }

section Accepting

variable {env : Environment World} {txn : TxnId} {Result : Type} {program : Program Calls Result}
  {state : State World} {post : Result → Database → Prop}

/-- What happens where no row is refused may happen. -/
theorem step_accepting (before : State World) (request : Request) (answer : request.Response)
    (after : State World) (hStep : step env.accepting before request answer after) :
    step env before request answer after := by
  cases request with
  | insert txn table =>
      obtain ⟨current, hOpen, hId, ⟨-, hFails, -⟩ | hInserted⟩ := hStep
      · exact hFails.elim
      · exact ⟨current, hOpen, hId, .inr hInserted⟩
  | _ => exact hStep

/-- An environment that answers does so without refusing rows. -/
theorem Environment.Total.accepting (total : env.Total) : env.accepting.Total where
  run := total.run
  commit := total.commit
  osRelease := total.osRelease
  versionDetail := total.versionDetail

/-- Where no row is refused, nothing undisciplined need be admitted. -/
theorem admits_accepting : Admits env.accepting Disciplined := ⟨fun _ _ h => h, fun _ _ h => h.elim⟩

theorem admits_any (env : Environment World) : Admits env fun _ _ => True :=
  ⟨fun _ _ _ => trivial, fun _ _ _ _ => trivial⟩

/-- Every complete run ends with the postcondition. -/
theorem Transforms.of_exec (h : Transforms env (fun _ _ => True) txn program state.view post)
    (hOpen : state.Opened txn) {result : Result} {after : State World}
    (hExec : Exec (step env) program state result after) :
    after.Opened txn ∧ post result after.view :=
  (safe_iff.mp (h state hOpen rfl)).2 result after hExec

/-- What is known of every complete run may be added. -/
theorem Transforms.strengthen {db : Database} {other : Result → Database → Prop}
    (h : Transforms env (fun _ _ => True) txn program db post)
    (hOther : ∀ state : State World, state.Opened txn → state.view = db → ∀ result after,
      Exec (step env) program state result after → other result after.view) :
    Transforms env (fun _ _ => True) txn program db fun result after =>
      post result after ∧ other result after := by
  intro state hOpen hView
  refine safe_iff.mpr ⟨fun _ _ _ => trivial, fun result after hExec => ?_⟩
  obtain ⟨hAfter, hPost⟩ := (safe_iff.mp (h state hOpen hView)).2 result after hExec
  exact ⟨hAfter, hPost, hOther state hOpen hView result after hExec⟩

/-- And there is one. -/
theorem Transforms.exists_exec (h : Transforms env.accepting Disciplined txn program state.view post)
    (total : env.Total) (hOpen : state.Opened txn) :
    ∃ result after, Exec (step env) program state result after ∧ after.Opened txn ∧
      post result after.view := by
  obtain ⟨result, after, hExec, hPost⟩ := (h state hOpen rfl).exec (step_total total.accepting)
  exact ⟨result, after, hExec.widen step_accepting, hPost⟩

/-- No run of the program uses an index past the end of an array. -/
def NoOverrun (env : Environment World) (program : Program Calls Result) (state : State World) :
    Prop :=
  ∀ middle, ¬ Reaches (step env) program state (.fault .outOfBounds) middle

/-- A refused row is a null pointer, not an overrun. -/
theorem admits_inside (env : Environment World) :
    Admits env fun _ request => request ≠ .fault .outOfBounds where
  disciplined state _ h := fun hFault => (hFault ▸ h : Disciplined state (.fault .outOfBounds))
  refused _ _ _ _ := nofun

/-- Otherwise some run comes to an overrun. -/
theorem not_noOverrun : ¬ NoOverrun env program state ↔
    ∃ middle, Reaches (step env) program state (.fault .outOfBounds) middle := by
  simp only [NoOverrun, not_forall, not_not]

/-- A program that runs where overruns are forbidden has none. -/
theorem Transforms.noOverrun
    (h : Transforms env (fun _ request => request ≠ .fault .outOfBounds) txn program state.view
      fun _ _ => True) (hOpen : state.Opened txn) : NoOverrun env program state :=
  fun _ hReaches => (safe_iff.mp (h state hOpen rfl)).1 _ _ hReaches rfl

/-- Some run gets past a part that is safe, and so to what comes after it. -/
theorem Transforms.reaches_bind {Next : Type} {rest : Result → Program Calls Next} {request : Request}
    (h : Transforms env.accepting Disciplined txn program state.view post) (total : env.Total)
    (hOpen : state.Opened txn)
    (hRest : ∀ result middle, middle.Opened txn → post result middle.view →
      ∃ last, Reaches (step env) (rest result) middle request last) :
    ∃ last, Reaches (step env) (program >>= rest) state request last := by
  obtain ⟨result, middle, hExec, hMiddle, hPost⟩ := h.exists_exec total hOpen
  obtain ⟨last, hReaches⟩ := hRest result middle hMiddle hPost
  exact ⟨last, hReaches.bind_right hExec⟩

/-- Some run comes to a request of this kind. -/
def MayIssue (env : Environment World) (kind : Request → Prop) (program : Program Calls Result)
    (state : State World) : Prop :=
  ∃ request last, kind request ∧ Reaches (step env) program state request last

/-- What the first part may issue, the whole may. -/
theorem MayIssue.first {Next : Type} {kind : Request → Prop} {rest : Result → Program Calls Next}
    (h : MayIssue env kind program state) : MayIssue env kind (program >>= rest) state := by
  obtain ⟨request, last, hKind, hReaches⟩ := h
  exact ⟨request, last, hKind, hReaches.bind_left⟩

/-- What comes after a part that always runs is come to as well. -/
theorem MayIssue.after {Next : Type} {kind : Request → Prop} {rest : Result → Program Calls Next}
    (runs : Runs env.accepting Disciplined txn program) (total : env.Total)
    (hOpen : state.Opened txn)
    (hRest : ∀ result middle, middle.Opened txn → MayIssue env kind (rest result) middle) :
    MayIssue env kind (program >>= rest) state := by
  obtain ⟨result, middle, hExec, hMiddle, -⟩ := (runs state.view).exists_exec total hOpen
  obtain ⟨request, last, hKind, hReaches⟩ := hRest result middle hMiddle
  exact ⟨request, last, hKind, hReaches.bind_right hExec⟩

/-- A call can be got past with any of its answers. -/
theorem MayIssue.call {kind : Request → Prop} {request : Request}
    {next : request.Response → Program Calls Result} {answer : request.Response}
    {after : State World} (hStep : step env state request answer after)
    (h : MayIssue env kind (next answer) after) : MayIssue env kind (.call request next) state := by
  obtain ⟨other, last, hKind, hReaches⟩ := h
  exact ⟨other, last, hKind, .later hStep hReaches⟩

/-- A loop comes to the first item at which there is one. -/
theorem MayIssue.mapM {Item : Type} {kind : Request → Prop} {body : Item → Program Calls Result}
    {good : Item → Prop} {items : List Item} (total : env.Total) (hOpen : state.Opened txn)
    (hGood : ∀ item, good item → Runs env.accepting Disciplined txn (body item))
    (hBad : ∀ item, ¬ good item → ∀ middle : State World, middle.Opened txn →
      MayIssue env kind (body item) middle)
    (hSome : ¬ ∀ item ∈ items, good item) : MayIssue env kind (items.mapM body) state := by
  induction items generalizing state with
  | nil => exact absurd (fun _ h => absurd h List.not_mem_nil) hSome
  | cons item items ih =>
      rw [List.mapM_cons]
      by_cases hItem : good item
      case neg => exact (hBad item hItem state hOpen).first
      refine MayIssue.after (hGood item hItem) total hOpen fun result middle hMiddle => ?_
      refine (ih hMiddle fun hRest => hSome ?_).first
      exact List.forall_mem_cons.mpr ⟨hItem, hRest⟩

/-- Some run comes to a fault. -/
abbrev Faults (env : Environment World) (program : Program Calls Result) (state : State World) : Prop :=
  MayIssue env (fun request => ∃ kind, request = .fault kind) program state

/-- A program that cannot end comes to a fault: every other call has an answer. -/
theorem faults_of_endless (total : env.Total)
    (h : Safe (step env.accepting) (fun state request => Disciplined state request ∨
      ∃ kind, request = .fault kind) program (fun _ _ => False) state) : Faults env program state := by
  induction program generalizing state with
  | done result => exact h.elim
  | call request next ih =>
      rcases h.1 with hRules | hFault
      · obtain ⟨answer, after, hStep⟩ := step_total total.accepting state request hRules
        exact MayIssue.call (step_accepting _ _ _ _ hStep) (ih answer (h.2 answer after hStep))
      · exact ⟨request, state, hFault, .here _ _ _⟩

/-- From any database, the program comes to its end where the need is met, and to a
fault where it is not. -/
def RunsIf (env : Environment World) (txn : TxnId) (need : Prop) (program : Program Calls Result) :
    Prop :=
  ∀ permitted : State World → Request → Prop, Admits env permitted →
    (¬ need → ∀ state kind, permitted state (.fault kind)) →
      ∀ db, Transforms env permitted txn program db fun _ _ => need

section RunsIf

variable {need other : Prop}

/-- A program that always runs needs nothing. -/
theorem runsIf_of_runs (h : ∀ permitted : State World → Request → Prop, Admits env permitted →
    Runs env permitted txn program) : RunsIf env txn True program :=
  fun permitted admits _ => h permitted admits

/-- A need may be stated in other words. -/
theorem RunsIf.congr (h : RunsIf env txn need program) (hNeed : need ↔ other) :
    RunsIf env txn other program :=
  fun permitted admits hFault db => (h permitted admits (fun hNot => hFault (mt hNeed.mpr hNot)) db).mono
    fun _ _ => hNeed.mp

/-- What comes first has to end, and then what comes after it. -/
theorem RunsIf.bind {Next : Type} {rest : Result → Program Calls Next}
    (first : RunsIf env txn need program) (hRest : ∀ result, RunsIf env txn other (rest result)) :
    RunsIf env txn (need ∧ other) (program >>= rest) := by
  intro permitted admits hFault db
  refine (first permitted admits (fun hNot => hFault fun h => hNot h.1) db).bind ?_
  intro result middle hNeed
  refine (hRest result permitted admits (fun hNot => hFault fun h => hNot h.2) middle).mono ?_
  exact fun _ _ hOther => ⟨hNeed, hOther⟩

/-- Where the need is met the program runs. -/
theorem RunsIf.runs {permitted : State World → Request → Prop} (h : RunsIf env txn need program)
    (admits : Admits env permitted) (hNeed : need) : Runs env permitted txn program :=
  fun db => (h permitted admits (absurd hNeed) db).mono fun _ _ _ => trivial

/-- A program that has come to its end had what it needs. -/
theorem RunsIf.of_exec (h : RunsIf env txn need program) (hOpen : state.Opened txn) {result : Result}
    {after : State World} (hExec : Exec (step env) program state result after) : need :=
  ((h _ (admits_any env) (fun _ _ _ => trivial) state.view).of_exec hOpen hExec).2

/-- Where the need is not met it faults. -/
theorem RunsIf.faults (h : RunsIf env.accepting txn need program) (total : env.Total)
    (hOpen : state.Opened txn) (hNeed : ¬ need) : Faults env program state := by
  have admits : Admits env.accepting fun state request => Disciplined state request ∨
      ∃ kind, request = .fault kind :=
    ⟨fun _ _ => .inl, fun _ _ _ _ => .inr ⟨_, rfl⟩⟩
  refine faults_of_endless total ?_
  refine (h _ admits (fun _ _ kind => .inr ⟨kind, rfl⟩) state.view state hOpen rfl).mono ?_
  exact fun _ _ hAfter => hNeed hAfter.2

end RunsIf

/-- An environment that may do anything. -/
def anyEnv : Environment Unit where
  run _ _ _ _ := True
  commit _ _ _ _ _ _ := True
  insertFails _ _ := True
  discards _ _ _ _ := True
  symlinkFails _ _ := True
  osRelease _ _ := True
  versionDetail _ _ := True

theorem anyEnv_total : anyEnv.Total where
  run world link := ⟨world, link, trivial⟩
  commit world link _ := ⟨.success, world, link, trivial⟩
  osRelease _ := ⟨none, trivial⟩
  versionDetail _ := ⟨none, trivial⟩

/-- A session that has just inserted the System row. -/
def configuring : State Unit :=
  { State.boot () with txn := some ⟨0, [.insert 0 .system]⟩, nextTxn := 1 }

theorem configuring_opened : configuring.Opened 0 := ⟨_, rfl, rfl⟩

theorem configuring_exists : configuring.view.Exists 0 :=
  ⟨Row.fresh 0 .system, List.mem_singleton_self _, rfl⟩

end Accepting
end OpsSysd.Idl
