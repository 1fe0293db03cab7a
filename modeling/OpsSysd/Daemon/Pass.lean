import OpsSysd.Daemon.Footprint
import OpsSysd.Idl.Discipline

/-! What one pass of the daemon does to the session, part by part: the initial
configuration, the check of the hardware daemons, and the rest of the pass. -/
namespace OpsSysd.Daemon

open CLib Interaction Interaction.Program Idl

/-- What an ordinary call can add to a transaction. -/
def OrdinaryOp : Op → Prop
  | .insert _ table => table ≠ .system
  | .write _ column _ => ¬ HwDoneColumn column

/-- This transaction inserts a System row. -/
def Configuration (ops : List Op) : Prop := insertions .system ops ≠ []

/-- No ordinary operations make a configuration. -/
theorem not_configuration_ordinary {ops : List Op} (hOps : ∀ op ∈ ops, OrdinaryOp op) :
    ¬ Configuration ops := by
  refine not_not.mpr (List.filterMap_eq_nil_iff.mpr fun op hOp => ?_)
  cases op with
  | insert id table => exact if_neg (hOps _ hOp)
  | write id column value => rfl

section Transactions

variable {World Result : Type} {env : Environment World}
  {permitted : State World → Request → Prop} {start state : State World} {current : Txn}

/-- Only ordinary requests have been added to the transaction since. -/
def FilledFrom (start : State World) (current : Txn) (state : State World) : Prop :=
  ∃ more, (∀ op ∈ more, OrdinaryOp op) ∧
    state = { start with txn := some { current with ops := current.ops ++ more } }

theorem FilledFrom.refl (hOpen : state.txn = some current) : FilledFrom state current state := by
  refine ⟨[], nofun, ?_⟩
  rw [List.append_nil, ← hOpen]

/-- Ordinary operations fill a transaction. -/
theorem FilledFrom.push (h : FilledFrom start current state) {last : Txn}
    (hOpen : state.txn = some last) {op : Op} (hOp : OrdinaryOp op) :
    FilledFrom start current (state.push last op) := by
  obtain ⟨more, hMore, rfl⟩ := h
  obtain rfl := Option.some.inj hOpen
  refine ⟨more ++ [op], fun other hOther => ?_, by simp [State.push]⟩
  rcases List.mem_append.mp hOther with hOld | hNew
  · exact hMore other hOld
  · exact List.mem_singleton.mp hNew ▸ hOp

/-- A transaction that is being filled is open. -/
theorem FilledFrom.opened (h : FilledFrom start current state) : state.Opened current.id := by
  obtain ⟨more, -, rfl⟩ := h
  exact ⟨_, rfl, rfl⟩

/-- Once the System row is inserted, the transaction is a configuration. -/
theorem FilledFrom.configuration {system : RowId} {ops : List Op} {txn : TxnId}
    (h : FilledFrom start ⟨txn, ops ++ [.insert system .system]⟩ state) :
    ∃ last, state.txn = some last ∧ Configuration last.ops := by
  obtain ⟨more, -, rfl⟩ := h
  refine ⟨_, rfl, fun hNone => ?_⟩
  have hMem : system ∈ insertions .system ((ops ++ [.insert system .system]) ++ more) := by
    simp [insertions]
  rw [hNone] at hMem
  exact absurd hMem List.not_mem_nil

/-- Every answered call of filling adds to it. -/
theorem FilledFrom.step (h : FilledFrom start current state) {txn : TxnId} {request : Request}
    (hFilling : Filling txn request) {answer : request.Response} {after : State World}
    (hStep : Idl.step env state request answer after) : FilledFrom start current after := by
  have hOpen : ∃ last, state.txn = some last := by
    obtain ⟨more, -, rfl⟩ := h
    exact ⟨_, rfl⟩
  cases request with
  | insert txn' table =>
      obtain ⟨last, hLast, -, ⟨-, -, rfl⟩ | ⟨row, -, -, rfl⟩⟩ := hStep
      · exact h
      · exact h.push hLast hFilling.2
  | write row column arg =>
      obtain ⟨last, hLast⟩ := hOpen
      simp only [Idl.step, hLast] at hStep
      obtain ⟨value, -, rfl⟩ := hStep
      exact h.push hLast hFilling
  | rows _ | read _ _ => exact hStep.2 ▸ h
  | calloc => exact (show after = state from hStep) ▸ h
  | openOsRelease => exact hStep.2 ▸ h
  | fault kind => exact answer.elim
  | _ => exact hFilling.elim

/-- A program that only fills a transaction changes nothing else. -/
theorem safe_filling {program : Program Calls Result} {txn : TxnId}
    (hFills : program.Issues (Filling txn)) (hOpen : state.txn = some current)
    (hPermitted : ∀ middle request, Filling txn request → FilledFrom state current middle →
      permitted middle request) :
    Safe (step env) permitted program (fun _ => FilledFrom state current) state :=
  Safe.of_issues hFills hPermitted (fun _ _ _ _ hFilling h hStep => h.step hFilling hStep)
    (FilledFrom.refl hOpen)

/-- With no transaction open it changes nothing at all. -/
theorem safe_unfilled {program : Program Calls Result} {txn : TxnId}
    (hFills : program.Issues (Filling txn)) (hClosed : state.txn = none)
    (hPermitted : ∀ request, Filling txn request → permitted state request) :
    Safe (step env) permitted program (fun _ after => after = state) state := by
  refine Safe.of_issues hFills (fun _ request hFilling h => h ▸ hPermitted request hFilling) ?_ rfl
  rintro before request answer after hFilling rfl hStep
  cases request with
  | insert txn' table =>
      obtain ⟨last, hLast, -⟩ := hStep
      exact absurd (hLast.symm.trans hClosed) nofun
  | write row column arg =>
      simp only [Idl.step, hClosed] at hStep
      exact hStep.2
  | rows _ | read _ _ => exact hStep.2
  | calloc => exact hStep
  | openOsRelease => exact hStep.2
  | fault kind => exact answer.elim
  | _ => exact hFilling.elim

/-- Whatever transaction is open asks for nothing out of the ordinary. -/
def OrdinaryTxn (state : State World) : Prop :=
  ∀ current, state.txn = some current → ∀ op ∈ current.ops, OrdinaryOp op

theorem OrdinaryTxn.of_closed (hClosed : state.txn = none) : OrdinaryTxn state :=
  fun _ hOpen => absurd (hOpen.symm.trans hClosed) nofun

/-- The variables of the main loop are as before. -/
structure SameLoop (start state : State World) : Prop where
  idlSeqno : state.idlSeqno = start.idlSeqno
  hwInitDoneSet : state.hwInitDoneSet = start.hwInitDoneSet
  examined : state.examined = start.examined

theorem SameLoop.refl (state : State World) : SameLoop state state := ⟨rfl, rfl, rfl⟩

/-- What ordinary calls keep, if commits keep it. -/
structure OrdinaryFrom (invariant : World → Link → Prop) (start state : State World) : Prop where
  txn : OrdinaryTxn state
  loop : SameLoop start state
  kept : invariant state.world state.link

variable {invariant : World → Link → Prop}

/-- An ordinary operation keeps the transaction ordinary. -/
theorem OrdinaryFrom.push (h : OrdinaryFrom invariant start state) {last : Txn}
    (hOpen : state.txn = some last) {op : Op} (hOp : OrdinaryOp op) :
    OrdinaryFrom invariant start (state.push last op) := by
  refine ⟨fun current hCurrent other hOther => ?_, { h.loop with }, h.kept⟩
  obtain rfl := Option.some.inj hCurrent
  rcases List.mem_append.mp hOther with hOld | hNew
  · exact h.txn last hOpen other hOld
  · exact List.mem_singleton.mp hNew ▸ hOp

/-- An ordinary transaction keeps this. -/
def CommitKeeps (env : Environment World) (invariant : World → Link → Prop) : Prop :=
  ∀ world link ops status world' link', (∀ op ∈ ops, OrdinaryOp op) → invariant world link →
    env.commit world link ops status world' link' → invariant world' link'

/-- Ordinary calls keep what their commits keep. -/
theorem OrdinaryFrom.step (hCommit : CommitKeeps env invariant)
    (h : OrdinaryFrom invariant start state) {request : Request} (hOrdinary : Ordinary request)
    {answer : request.Response} {after : State World}
    (hStep : Idl.step env state request answer after) : OrdinaryFrom invariant start after := by
  cases request with
  | insert txn' table =>
      obtain ⟨last, hLast, -, ⟨-, -, rfl⟩ | ⟨row, -, -, rfl⟩⟩ := hStep
      · exact h
      · exact h.push hLast hOrdinary
  | write row column arg =>
      cases hTxn : state.txn with
      | none =>
          simp only [Idl.step, hTxn] at hStep
          exact hStep.2 ▸ h
      | some last =>
          simp only [Idl.step, hTxn] at hStep
          obtain ⟨value, -, rfl⟩ := hStep
          exact h.push hTxn hOrdinary
  | txnCreate =>
      obtain ⟨-, rfl, rfl⟩ := hStep
      refine ⟨fun current hCurrent => ?_, { h.loop with }, h.kept⟩
      obtain rfl := Option.some.inj hCurrent
      exact fun _ hOp => absurd hOp List.not_mem_nil
  | commitBlock txn =>
      obtain ⟨last, hLast, -, world, link, hDone, rfl⟩ := hStep
      exact ⟨.of_closed rfl, { h.loop with }, hCommit _ _ _ _ _ _ (h.txn last hLast) h.kept hDone⟩
  | txnDestroy txn =>
      obtain rfl := (show after = _ from hStep)
      refine ⟨fun current hCurrent => ?_, { h.loop with }, h.kept⟩
      exact h.txn current (Option.mem_filter_iff.mp hCurrent).1
  | rows _ | read _ _ => exact hStep.2 ▸ h
  | openOsRelease | openVersionDetail | symlink _ => exact hStep.2 ▸ h
  | calloc | unlink => exact (show after = state from hStep) ▸ h
  | fault kind => exact answer.elim
  | _ => exact hOrdinary.elim

/-- A program of ordinary calls keeps what its commits keep. -/
theorem safe_ordinary {program : Program Calls Result} (hIssues : program.Issues Ordinary)
    (hCommit : CommitKeeps env invariant) (hTxn : OrdinaryTxn state)
    (hKept : invariant state.world state.link)
    (hPermitted : ∀ middle request, Ordinary request → OrdinaryFrom invariant state middle →
      permitted middle request) :
    Safe (step env) permitted program (fun _ => OrdinaryFrom invariant state) state :=
  Safe.of_issues hIssues hPermitted (fun _ _ _ _ hOrdinary h hStep => h.step hCommit hOrdinary hStep)
    ⟨hTxn, SameLoop.refl state, hKept⟩

end Transactions

section Packages

variable {World : Type} {env : Environment World} {parser : PackageParser} {state : State World}

/-- Calls with which the packages are added. -/
def PackageCall : Request → Prop
  | .rows table | .insert _ table => table = .packageInfo
  | .write _ column _ => column = .packageInfoName ∨ column = .packageInfoVersion ∨
      column = .packageInfoSrcUrl ∨ column = .packageInfoSrcType
  | .openVersionDetail | .txnCreate | .commitBlock _ | .txnDestroy _ | .fault _ => True
  | _ => False

theorem insertPackage_calls (value : CString) (txn : TxnId) (parser : PackageParser) :
    (insertPackage value txn parser).Issues PackageCall := by
  refine ⟨rfl, fun answer => ?_⟩
  cases answer with
  | none => exact ⟨trivial, fun _ => trivial⟩
  | some row => exact ⟨.inl rfl, fun _ => trivial⟩

/-- Setting a column writes to the record's row or faults. -/
theorem setColumn_calls {column : Column} (arg : column.Arg)
    (h : ∀ row, PackageCall (.write row column arg)) (parser : PackageParser) :
    (setColumn (write · column arg) parser).Issues PackageCall := by
  rw [setColumn, issues_orFault_bind]
  exact ⟨fun _ => trivial, fun row _ => ⟨h row, fun _ => trivial⟩⟩

theorem endRecord_calls (value : CString) (parser : PackageParser) :
    (endRecord value parser).Issues PackageCall := by
  rw [endRecord, issues_orFault_bind]
  refine ⟨fun _ => trivial, fun row _ => ⟨.inr (.inr (.inr rfl)), fun _ => ?_⟩⟩
  refine (issues_ite _ _).mpr ⟨fun _ => ?_, fun _ => trivial⟩
  rw [issues_orFault_bind]
  exact ⟨fun _ => trivial, fun txn _ => ⟨trivial, fun _ => ⟨trivial, fun _ => trivial⟩⟩⟩

theorem handleValue_calls (value : CString) (parser : PackageParser) :
    (handleValue value parser).Issues PackageCall := by
  have hVersion (row : RowId) : PackageCall (.write row .packageInfoVersion value) := .inr (.inl rfl)
  rw [handleValue]
  cases parser.currentState with
  | value => trivial
  | pkg =>
      refine (issues_ite _ _).mpr ⟨fun _ => ⟨trivial, fun txn => insertPackage_calls _ _ _⟩, ?_⟩
      intro _
      rw [issues_orFault_bind]
      exact ⟨fun _ => trivial, fun txn _ => insertPackage_calls _ _ _⟩
  | pv => exact setColumn_calls value hVersion parser
  | srcRev =>
      exact (issues_ite _ _).mpr ⟨fun _ => trivial, fun _ => setColumn_calls value hVersion parser⟩
  | srcUrl => exact setColumn_calls value (fun _ => .inr (.inr (.inl rfl))) parser
  | type => exact endRecord_calls value parser

/-- The parser makes calls for packages only, whatever the document. -/
theorem parseEvents_calls (events : List YamlEvent) (parser : PackageParser) :
    (parseEvents events parser).Issues PackageCall := by
  induction events generalizing parser with
  | nil => trivial
  | cons event events ih =>
      cases event with
      | streamEnd => trivial
      | other => exact ih parser
      | scalar value =>
          have hScalar : (handleScalar value parser).Issues PackageCall := by
            rw [handleScalar]
            cases packageInfoMappingCheckKey value with
            | value => exact handleValue_calls value parser
            | _ => trivial
          refine hScalar.bind fun result => ?_
          cases result with
          | none => trivial
          | some parser => exact ih parser

/-- So does the branch that adds them. -/
theorem populatePackages_calls : populatePackages.Issues PackageCall := by
  rw [populatePackages_eq]
  refine ⟨rfl, fun (ids : List RowId) => ?_⟩
  dsimp only
  cases ids.head? with
  | some _ => trivial
  | none =>
      refine ⟨trivial, fun answer => ?_⟩
      cases answer with
      | none => trivial
      | some events =>
          refine (parseEvents_calls events _).bind fun result => ?_
          cases result with
          | none => trivial
          | some parser =>
              rw [commitLastBatch]
              cases parser.txn with
              | none => trivial
              | some txn => exact ⟨trivial, fun _ => ⟨trivial, fun _ => trivial⟩⟩

/-- Adding the packages takes ordinary calls only. -/
theorem populatePackages_ordinary : populatePackages.Issues Ordinary := by
  refine populatePackages_calls.mono fun request hCall => ?_
  cases request with
  | insert _ table => exact (show table = .packageInfo from hCall) ▸ by simp [Ordinary]
  | write _ column _ =>
      rcases hCall with rfl | rfl | rfl | rfl <;> simp [Ordinary, HwDoneColumn]
  | rows _ | openVersionDetail | txnCreate | commitBlock _ | txnDestroy _ | fault _ => trivial
  | _ => exact hCall.elim

/-- The timezone is looked up with ordinary calls. -/
theorem sysdHandleTimezoneUpdate_ordinary : sysdHandleTimezoneUpdate.Issues Ordinary := by
  rw [sysdHandleTimezoneUpdate, first_bind]
  refine ⟨trivial, fun (ids : List RowId) => ?_⟩
  dsimp only
  cases ids.head? with
  | none => trivial
  | some cfg => simp [Ordinary]

/-- The parser knows the open transaction. -/
def Tracked (parser : PackageParser) (state : State World) : Prop :=
  parser.txn = state.txn.map Txn.id

/-- What one scalar leads to: the parser goes on, or has returned with no
transaction open. -/
def Resumes : Option PackageParser → State World → Prop
  | none, state => state.txn = none
  | some parser, state => Tracked parser state

abbrev anyCall : State World → Request → Prop := fun _ _ => True

/-- A write leaves the parser knowing the transaction. -/
theorem Tracked.safe_write (h : Tracked parser state) {row : RowId} {column : Column}
    {arg : column.Arg} {Result : Type} {next : Unit → Program Calls Result}
    {post : Result → State World → Prop}
    (hNext : ∀ after, Tracked parser after → Safe (step env) anyCall (next ()) post after) :
    Safe (step env) anyCall (.call (.write row column arg) next) post state := by
  refine Idl.safe_write.mpr ⟨trivial, fun _ _ => hNext state h, fun current hOpen value _ => ?_⟩
  refine hNext _ ?_
  rw [Tracked, h, hOpen]
  rfl

/-- So does the insertion of a package. -/
theorem Tracked.safe_insertPackage (h : Tracked parser state) (value : CString) (txn : TxnId) :
    Safe (step env) anyCall (insertPackage value txn parser) Resumes state := by
  refine safe_insert.mpr ⟨trivial, fun current hOpen hId => ⟨fun _ => ?_, fun row _ => ?_⟩⟩
  · refine safe_txnDestroy.mpr ⟨trivial, ?_⟩
    change Option.filter _ state.txn = none
    rw [hOpen, Option.filter_some, if_neg (by simp [hId])]
  · have hPushed : Tracked parser (state.push current (.insert row .packageInfo)) := by
      rw [Tracked, h, hOpen]
      rfl
    exact hPushed.safe_write fun after hAfter => hAfter

/-- After a value the parser goes on, or nothing is open. -/
theorem Tracked.safe_handleValue (h : Tracked parser state) (value : CString) :
    Safe (step env) anyCall (handleValue value parser) Resumes state := by
  have hColumn : ∀ (column : Column) (arg : column.Arg),
      Safe (step env) anyCall (setColumn (write · column arg) parser) Resumes state := by
    intro column arg
    rw [setColumn]
    cases parser.row with
    | none => exact safe_fault.mpr trivial
    | some row => exact h.safe_write fun after hAfter => hAfter
  rw [handleValue]
  cases parser.currentState with
  | value => exact h
  | pkg =>
      change Safe _ _ (beginRecord value parser) _ _
      rw [beginRecord]
      split
      · refine safe_txnCreate.mpr ⟨trivial, fun _ => ?_⟩
        have hOpened : Tracked { parser with txn := some state.nextTxn }
            { state with txn := some ⟨state.nextTxn, []⟩, nextTxn := state.nextTxn + 1 } := rfl
        exact hOpened.safe_insertPackage value state.nextTxn
      · cases parser.txn with
        | none => exact safe_fault.mpr trivial
        | some txn => exact h.safe_insertPackage value txn
  | pv => exact hColumn .packageInfoVersion value
  | srcRev =>
      change Safe _ _ (if _ then _ else _) _ _
      split
      · exact h
      · exact hColumn .packageInfoVersion value
  | srcUrl => exact hColumn .packageInfoSrcUrl value
  | type =>
      change Safe _ _ (endRecord value parser) _ _
      rw [endRecord]
      cases parser.row with
      | none => exact safe_fault.mpr trivial
      | some row =>
          refine h.safe_write fun after hAfter => ?_
          split
          · cases parser.txn with
            | none => exact safe_fault.mpr trivial
            | some txn =>
                refine safe_commitBlock.mpr ⟨trivial, fun current _ _ status world link _ => ?_⟩
                exact safe_txnDestroy.mpr ⟨trivial, rfl⟩
          · exact hAfter

/-- And so after all events. -/
theorem Tracked.safe_parseEvents (h : Tracked parser state) (events : List YamlEvent) :
    Safe (step env) anyCall (parseEvents events parser) Resumes state := by
  induction events generalizing parser state with
  | nil => exact h
  | cons event events ih =>
      cases event with
      | streamEnd => exact h
      | other => exact ih h
      | scalar value =>
          have hScalar : Safe (step env) anyCall (handleScalar value parser) Resumes state := by
            rw [handleScalar]
            cases packageInfoMappingCheckKey value with
            | value => exact h.safe_handleValue value
            | _ => exact h
          refine hScalar.bind fun result after hResult => ?_
          cases result with
          | none => exact hResult
          | some parser => exact ih hResult

/-- Whatever the document, the parser leaves no transaction open. -/
theorem safe_populatePackages_closed (hClosed : state.txn = none) :
    Safe (step env) anyCall populatePackages (fun _ after => after.txn = none) state := by
  rw [populatePackages_eq]
  refine safe_rows.mpr ⟨trivial, ?_⟩
  cases (state.view.ids .packageInfo).head? with
  | some _ => exact hClosed
  | none =>
      refine safe_openVersionDetail.mpr ⟨trivial, fun answer _ => ?_⟩
      cases answer with
      | none => exact hClosed
      | some events =>
          have hTracked : Tracked .initial state := by rw [Tracked, hClosed]; rfl
          refine (hTracked.safe_parseEvents events).bind fun result after hResult => ?_
          cases result with
          | none => exact hResult
          | some parser =>
              rw [commitLastBatch]
              cases hTxn : parser.txn with
              | none => exact Option.map_eq_none_iff.mp (hResult.symm.trans hTxn)
              | some txn =>
                  refine safe_commitBlock.mpr ⟨trivial, fun current _ _ status world link _ => ?_⟩
                  exact safe_txnDestroy.mpr ⟨trivial, rfl⟩

end Packages

section Branches

variable {World : Type} {env : Environment World} {permitted : State World → Request → Prop}
  {post : Unit → State World → Prop} {state : State World} {config : Config}

/-- Calls that read, and those on the variables of the main loop. -/
def LoopCall : Request → Prop
  | .idlRun | .isLockContended | .hasLock | .getSeqno | .loadIdlSeqno | .storeIdlSeqno _
  | .loadHwInitDoneSet | .storeHwInitDoneSet _ | .rows _ | .read .. | .daemonizeComplete
  | .startPass => True
  | _ => False

/-- These are permitted anywhere, and the calls around a transaction where the
IDL wants them, but for the commit of a configuration. -/
structure Grants (permitted : State World → Request → Prop) : Prop where
  loop {state : State World} {request : Request} (hLoop : LoopCall request) : permitted state request
  create {state : State World} (hClosed : state.txn = none) : permitted state .txnCreate
  insert {state : State World} {txn : TxnId} (table : Table) (hOpen : state.Opened txn) :
    permitted state (.insert txn table)
  fill {state : State World} {txn : TxnId} {request : Request} (hFilling : Filling txn request)
    (hOpen : state.Opened txn) : permitted state request
  commit {state : State World} {txn : TxnId} {ops : List Op} (hOpen : state.txn = some ⟨txn, ops⟩)
    (hOps : ¬ Configuration ops) : permitted state (.commitBlock txn)
  destroy {state : State World} (txn : TxnId) (hClosed : state.txn = none) :
    permitted state (.txnDestroy txn)

/-- The initial configuration is one transaction: the System row, and nothing
out of the ordinary after it. -/
theorem safe_configureFirst (grants : Grants permitted) (hClosed : state.txn = none)
    (hPermitted : ∀ system more, (∀ op ∈ more, OrdinaryOp op) →
      permitted { state with txn := some ⟨state.nextTxn, .insert system .system :: more⟩,
                             nextTxn := state.nextTxn + 1 } (.commitBlock state.nextTxn))
    (hNext : ∀ system more status world link, (∀ op ∈ more, OrdinaryOp op) →
      env.commit state.world state.link (.insert system .system :: more) status world link →
      post () { state with world, link, txn := none, nextTxn := state.nextTxn + 1 }) :
    Safe (step env) permitted (configureFirst config) post state := by
  refine safe_txnCreate.mpr ⟨grants.create hClosed, fun _ => ?_⟩
  have hOpened : State.Opened { state with
      txn := some ⟨state.nextTxn, []⟩, nextTxn := state.nextTxn + 1 } state.nextTxn := ⟨_, rfl, rfl⟩
  refine safe_insert.mpr ⟨grants.insert _ hOpened, ?_⟩
  intro current hCurrent _
  obtain rfl := Option.some.inj hCurrent
  refine ⟨fun _ => ?_, fun system _ => ?_⟩
  · have hFault : Filling state.nextTxn (.fault .nullPointer) := trivial
    exact safe_fault.mpr (grants.fill hFault hOpened)
  refine safe_bind.mpr ?_
  refine (safe_filling (fills_of_lists (configureSystem_lists system)) (State.push_txn _ _ _) ?_).mono ?_
  · exact fun middle request hFilling h => grants.fill hFilling h.opened
  rintro - after ⟨more, hMore, rfl⟩
  refine safe_commitBlock.mpr ⟨hPermitted system more hMore, ?_⟩
  intro current hCurrent _ status world link hCommit
  obtain rfl := Option.some.inj hCurrent
  exact safe_txnDestroy.mpr ⟨grants.destroy _ rfl, hNext system more status world link hMore hCommit⟩

/-- Without a transaction, the software information changes nothing. -/
theorem safe_sysdUpdateSwInfo_closed (hClosed : state.txn = none) (cfg : RowId)
    (hPermitted : ∀ request, Filling 0 request → permitted state request) :
    Safe (step env) permitted (sysdUpdateSwInfo config cfg) (fun _ after => after = state) state :=
  safe_unfilled (fills_of_lists (sysdUpdateSwInfo_lists cfg)) hClosed hPermitted

end Branches
end OpsSysd.Daemon
