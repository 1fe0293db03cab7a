import OpsSysd.Library.Noted
import OpsSysd.Idl.Building

/-! Programs that fill a transaction and allocate memory on the way, with a note
of whether an allocation has failed. -/
namespace OpsSysd.Idl

open CLib Interaction Interaction.Program

variable {World : Type}

/-- Whether an allocation has failed since the transaction was created. -/
def allocationFailed : (request : Request) → request.Response → Bool → Bool
  | .txnCreate, _, _ => false
  | .calloc, allocated, failed => failed || !allocated
  | _, _, failed => failed

/-- The session, with that note. -/
def allocating (env : Environment World) : Semantics Calls (State World × Bool) :=
  noted allocationFailed (step env)

/-- Calls on the rows of the transaction, and nothing else. -/
def Quiet : Request → Prop
  | .insert .. | .write .. | .rows _ | .read .. | .fault _ => True
  | _ => False

theorem Quiet.unmarked {request : Request} (h : Quiet request) :
    @Unmarked Calls Bool allocationFailed request := by
  cases request with
  | insert _ _ | write _ _ _ | rows _ | read _ _ => exact fun _ _ => rfl
  | fault kind => exact fun answer => answer.elim
  | _ => exact h.elim

/-- Building makes no allocation. -/
theorem Building.quiet {columns : Column → Prop} {txn : TxnId} {request : Request}
    (h : Building columns txn request) : Quiet request := by
  cases request with
  | insert _ _ | write _ _ _ | rows _ | read _ _ | fault _ => trivial
  | _ => exact h.elim

/-- Where the transaction shows this database, in this world, the program keeps
it open and the world and the replica as they are, and ends with the postcondition
on what the transaction shows and on the note. -/
def Assembles (env : Environment World) (txn : TxnId) (world : World) {Result : Type}
    (program : Program Calls Result) (db : Database) (failed : Bool)
    (post : Result → Database → Bool → Prop) : Prop :=
  ∀ state : State World, state.Opened txn → state.world = world → state.view = db →
    Safe (allocating env) (fun _ _ => True) program (fun result after =>
      after.1.Opened txn ∧ (after.1.world = world ∧ after.1.link = state.link) ∧
        post result after.1.view after.2) (state, failed)

section Rules

variable {env : Environment World} {txn : TxnId} {world : World} {Result Next : Type}
  {program : Program Calls Result} {db : Database} {failed : Bool}
  {post : Result → Database → Bool → Prop}

theorem assembles_done {result : Result} (h : post result db failed) :
    Assembles env txn world (.done result) db failed post := by
  rintro state hOpen rfl rfl
  exact ⟨hOpen, ⟨rfl, rfl⟩, h⟩

/-- A postcondition may be weakened. -/
theorem Assembles.mono {weaker : Result → Database → Bool → Prop}
    (h : Assembles env txn world program db failed post)
    (hPost : ∀ result after failed', post result after failed' → weaker result after failed') :
    Assembles env txn world program db failed weaker :=
  fun state hOpen hWorld hView => (h state hOpen hWorld hView).mono fun _ _ hAfter =>
    ⟨hAfter.1, hAfter.2.1, hPost _ _ _ hAfter.2.2⟩

/-- Two programs in turn, with an assertion about the database and the allocations
between them. -/
theorem Assembles.bind {after : Result → Program Calls Next} {last : Next → Database → Bool → Prop}
    (first : Assembles env txn world program db failed post)
    (rest : ∀ result middle failed', post result middle failed' →
      Assembles env txn world (after result) middle failed' last) :
    Assembles env txn world (program >>= after) db failed last :=
  fun state hOpen hWorld hView => (first state hOpen hWorld hView).bind fun result middle h =>
    (rest result middle.1.view middle.2 h.2.2 middle.1 h.1 h.2.1.1 rfl).mono fun _ _ hAfter =>
      ⟨hAfter.1, ⟨hAfter.2.1.1, hAfter.2.1.2.trans h.2.1.2⟩, hAfter.2.2⟩

/-- Two postconditions hold together. -/
theorem Assembles.and {other : Result → Database → Bool → Prop}
    (first : Assembles env txn world program db failed post)
    (second : Assembles env txn world program db failed other) :
    Assembles env txn world program db failed fun result after failed' =>
      post result after failed' ∧ other result after failed' :=
  fun state hOpen hWorld hView => (((first state hOpen hWorld hView).and
    (second state hOpen hWorld hView)).permit fun _ _ _ => trivial).mono
      fun _ _ h => ⟨h.1.1, h.1.2.1, h.1.2.2, h.2.2.2⟩

/-- A program that allocates nothing leaves the note as it is. -/
theorem Transforms.assembles {post : Result → Database → Prop}
    (h : Transforms env (fun _ _ => True) txn program db post) (hQuiet : program.Issues Quiet) :
    Assembles env txn world program db failed fun result after failed' =>
      failed' = failed ∧ post result after := by
  rintro state hOpen rfl rfl
  have hSame : Safe (step env) (fun _ _ => True) program
      (fun _ after => after.world = state.world ∧ after.link = state.link) state := by
    refine Safe.of_issues hQuiet (fun _ _ _ _ => trivial) ?_ ⟨rfl, rfl⟩
    intro before request answer after hRequest hSame hStep
    cases request with
    | insert _ _ =>
        obtain ⟨current, -, -, ⟨-, -, rfl⟩ | ⟨row, -, -, rfl⟩⟩ := hStep
        · exact hSame
        · exact hSame
    | write row column arg =>
        cases hTxn : before.txn with
        | none =>
            simp only [step, hTxn] at hStep
            exact hStep.2 ▸ hSame
        | some current =>
            simp only [step, hTxn] at hStep
            obtain ⟨value, -, rfl⟩ := hStep
            exact hSame
    | rows _ | read _ _ => exact hStep.2 ▸ hSame
    | fault kind => exact answer.elim
    | _ => exact hRequest.elim
  have hBoth : Safe (step env) (fun _ _ => True) program (fun result after =>
      (after.Opened txn ∧ post result after.view) ∧
        after.world = state.world ∧ after.link = state.link) state :=
    ((h state hOpen rfl).and hSame).permit fun _ _ _ => trivial
  exact (hBoth.unmarked (hQuiet.mono fun _ => Quiet.unmarked) failed).mono fun _ _ hAfter =>
    ⟨hAfter.1.1.1, hAfter.1.2, hAfter.2, hAfter.1.1.2⟩

/-- A program that only builds leaves the note as it is. -/
theorem assembles_building {columns : Column → Prop}
    (hIssues : program.Issues (Building columns txn)) :
    Assembles env txn world program db failed fun _ after failed' =>
      failed' = failed ∧ Built columns db after :=
  (transforms_building hIssues).assembles (hIssues.mono fun _ => Building.quiet)

/-- A write applies what is stored of its argument. -/
theorem assembles_write {row : RowId} {column : Column} {arg : column.Arg}
    {next : Unit → Program Calls Result}
    (hNext : ∀ value, column.shape.Stored arg value →
      Assembles env txn world (next ()) ((Op.write row column value).apply db) failed post) :
    Assembles env txn world (.call (.write row column arg) next) db failed post := by
  have hWrite : Transforms env (fun _ _ => True) txn (write row column arg) db fun _ after =>
      ∃ value, column.shape.Stored arg value ∧ after = (Op.write row column value).apply db :=
    transforms_write (admits_any env) fun value hValue => transforms_done ⟨value, hValue, rfl⟩
  refine (hWrite.assembles ⟨trivial, fun _ => trivial⟩).bind ?_
  rintro _ _ _ ⟨rfl, value, hValue, rfl⟩
  exact hNext value hValue

/-- An insertion gives a row that is not there yet. -/
theorem assembles_insertRow {table : Table} {next : RowId → Program Calls Result}
    (hNext : ∀ row, ¬ db.Exists row →
      Assembles env txn world (next row) ((Op.insert row table).apply db) failed post) :
    Assembles env txn world (insertRow txn table >>= next) db failed post := by
  have hInsert : Transforms env (fun _ _ => True) txn (insertRow txn table >>= Program.done) db
      fun row after => ¬ db.Exists row ∧ after = (Op.insert row table).apply db :=
    transforms_insertRow (admits_any env) fun row hRow => transforms_done ⟨hRow, rfl⟩
  rw [bind_done] at hInsert
  have hQuiet : (insertRow txn table).Issues Quiet := by
    refine ⟨trivial, fun answer => ?_⟩
    cases answer with
    | none => exact ⟨trivial, nofun⟩
    | some row => trivial
  refine (hInsert.assembles hQuiet).bind ?_
  rintro row _ _ ⟨rfl, hRow, rfl⟩
  exact hNext row hRow

/-- Only an allocation can change the note. -/
theorem assembles_calloc {next : Bool → Program Calls Result}
    (hAllocated : Assembles env txn world (next true) db failed post)
    (hFailed : Assembles env txn world (next false) db true post) :
    Assembles env txn world (.call .calloc next) db failed post := by
  intro state hOpen hWorld hView
  refine ⟨trivial, ?_⟩
  rintro allocated ⟨after, note⟩ ⟨hStep, rfl⟩
  obtain rfl : after = state := hStep
  cases allocated with
  | true =>
      simp only [allocationFailed, Bool.not_true, Bool.or_false]
      exact hAllocated after hOpen hWorld hView
  | false =>
      simp only [allocationFailed, Bool.not_false, Bool.or_true]
      exact hFailed after hOpen hWorld hView

/-- The release file is what the world has. -/
theorem assembles_openOsRelease {next : Option (List (List UInt8)) → Program Calls Result}
    (hNext : ∀ release, env.osRelease world release →
      Assembles env txn world (next release) db failed post) :
    Assembles env txn world (.call .openOsRelease next) db failed post := by
  rintro state hOpen rfl hView
  refine ⟨trivial, ?_⟩
  rintro release ⟨after, note⟩ ⟨⟨hRelease, rfl⟩, rfl⟩
  exact hNext release hRelease after hOpen rfl hView

/-- Where a request has an answer, it has one with which no allocation fails. -/
theorem exists_granting (total : env.Total) {state : State World} {request : Request}
    (h : Disciplined state request) : ∃ answer after, step env state request answer after ∧
      allocationFailed request answer false = false := by
  obtain ⟨answer, after, hStep⟩ := step_total total state request h
  cases request with
  | calloc => exact ⟨true, state, rfl, rfl⟩
  | _ => exact ⟨answer, after, hStep, rfl⟩

/-- A safe program may run with every allocation granted. -/
theorem exists_exec_granting (total : env.Total) {final : Result → State World → Prop}
    {state : State World} (safe : Safe (step env) Disciplined program final state) :
    ∃ result after, Exec (allocating env) program (state, false) result (after, false) ∧
      final result after := by
  induction program generalizing state with
  | done result => exact ⟨result, state, .done result _, safe⟩
  | call request next ih =>
      obtain ⟨answer, middle, hStep, hGranted⟩ := exists_granting total safe.1
      obtain ⟨result, after, hExec, hFinal⟩ := ih answer (safe.2 answer middle hStep)
      have hFirst : allocating env (state, false) request answer (middle, false) :=
        ⟨hStep, hGranted.symm⟩
      exact ⟨result, after, .call hFirst hExec, hFinal⟩

/-- Either no allocation has failed meanwhile and a part is whole, or one has and
the part lacks something. -/
def AllocationOutcome (failed failed' : Bool) (whole lacking : Prop) : Prop :=
  (failed' = failed ∧ whole) ∨ (failed' = true ∧ lacking)

/-- What is whole and what is lacking may be said in other words. -/
theorem AllocationOutcome.imp {failed' : Bool} {whole lacking whole' lacking' : Prop}
    (h : AllocationOutcome failed failed' whole lacking) (hWhole : whole → whole')
    (hLacking : lacking → lacking') : AllocationOutcome failed failed' whole' lacking' :=
  Or.imp (And.imp_right hWhole) (And.imp_right hLacking) h

/-- A loop that adds a row for each item. -/
theorem assembles_mapM {Item : Type} {body : Item → Program Calls RowId} {columns : Column → Prop}
    {whole : Item → RowId → Database → Prop} {lacking : RowId → Database → Prop} {items : List Item}
    (hBody : ∀ item ∈ items, ∀ middle failed, Assembles env txn world (body item) middle failed
      fun row after failed' => Built columns middle after ∧ after.Exists row ∧
        AllocationOutcome failed failed' (whole item row after) (lacking row after))
    (hWhole : ∀ item row before after, before.Exists row → Built columns before after →
      whole item row before → whole item row after)
    (hLacking : ∀ row before after, before.Exists row → Built columns before after →
      lacking row before → lacking row after) :
    Assembles env txn world (items.mapM body) db failed fun rows after failed' =>
      rows.length = items.length ∧ Built columns db after ∧ (∀ row ∈ rows, after.Exists row) ∧
        AllocationOutcome failed failed' (List.Forall₂ (fun row item => whole item row after) rows items)
          (∃ row ∈ rows, lacking row after) := by
  induction items generalizing db failed with
  | nil =>
      rw [List.mapM_nil]
      exact assembles_done ⟨rfl, .refl _ _, nofun, .inl ⟨rfl, .nil⟩⟩
  | cons item items ih =>
      have hItems (db : Database) (failed : Bool) :=
        @ih db failed fun later hItem => hBody later (.tail _ hItem)
      rw [List.mapM_cons]
      refine (hBody item List.mem_cons_self db failed).bind ?_
      intro row middle failed' ⟨hMiddle, hRow, hFirst⟩
      refine (hItems middle failed').bind fun rows after failed'' ⟨hCount, hAfter, hRows, hRest⟩ => ?_
      have hPresent : ∀ other ∈ row :: rows, after.Exists other := by
        rintro other (_ | ⟨_, hOther⟩)
        · exact hAfter.frame.exists_of row hRow
        · exact hRows other hOther
      refine assembles_done ⟨congrArg Nat.succ hCount, hMiddle.trans hAfter, hPresent, ?_⟩
      rcases hFirst with ⟨rfl, hFirst⟩ | ⟨rfl, hFirst⟩
      · have hKept := hWhole item row middle after hRow hAfter hFirst
        refine hRest.imp (fun hItems => .cons hKept hItems) ?_
        rintro ⟨other, hOther, hLack⟩
        exact ⟨other, .tail _ hOther, hLack⟩
      · have hKept := hLacking row middle after hRow hAfter hFirst
        have hFailed : failed'' = true := by
          rcases hRest with h | h
          · exact h.1
          · exact h.1
        exact .inr ⟨hFailed, row, List.mem_cons_self, hKept⟩

end Rules
end OpsSysd.Idl
