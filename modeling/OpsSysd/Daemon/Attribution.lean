import OpsSysd.Daemon.Custody

/-! Whose rows the daemon changes. Every transaction of every run writes to rows
that it has inserted itself, but for the two cells of the System row with which
the daemon publishes that the hardware is done. -/
namespace OpsSysd.Daemon

open CLib Interaction Interaction.Program Idl

/-- The copy holds rows of registered tables only, whatever is delivered. -/
structure Replicates {World : Type} (env : Environment World) : Prop where
  run {world world' : World} {link link' : Link} (h : link.replica.Within RegisteredTable)
    (hRun : env.run world link world' link') : link'.replica.Within RegisteredTable
  commit {world world' : World} {link link' : Link} {ops : List Op} {status : TxnStatus}
    (h : link.replica.Within RegisteredTable) (hCommit : env.commit world link ops status world' link') :
    link'.replica.Within RegisteredTable

/-- What holds between two rounds, and between the parts of a pass. -/
structure Between {World : Type} (state : State World) : Prop where
  closed : state.txn = none
  within : state.link.replica.Within RegisteredTable

section Packages

variable {World Result : Type} {env : Environment World} {parser : PackageParser}
  {state : State World}

/-- The parser knows the open transaction, which has inserted the row that the
parser fills. -/
structure Recording (parser : PackageParser) (state : State World) : Prop where
  tracked : Tracked parser state
  within : state.link.replica.Within RegisteredTable
  owning : ∀ current, state.txn = some current →
    Owning sysdCustody current.id parser.row.toList state

/-- After a scalar the parser goes on, or it has returned. -/
def RecordsOn (result : Option PackageParser) (state : State World) : Prop :=
  result.elim (Between state) fun parser => Recording parser state

abbrev attributable : State World → Request → Prop := Attributable sysdCustody

/-- The record's row may be written to. -/
theorem Recording.fill (h : Recording parser state) {row : RowId} (hRow : parser.row = some row)
    {column : Column} {arg : column.Arg} (hPlain : ∀ value, column.shape.refs value = [])
    {next : Unit → Program Calls Result} {post : Result → State World → Prop}
    (hNext : ∀ after, Recording parser after → Safe (step env) attributable (next ()) post after) :
    Safe (step env) attributable (.call (.write row column arg) next) post state := by
  refine safe_write.mpr ⟨attributable_plain trivial, fun _ _ => hNext state h, ?_⟩
  intro current hOpen value _
  have hMem : row ∈ parser.row.toList := Option.mem_toList.mpr hRow
  have hOwning : Owning sysdCustody current.id parser.row.toList
      (state.push current (.write row column value)) :=
    (h.owning current hOpen).write hOpen hMem (by simp [hPlain])
  refine hNext _ ⟨?_, h.within, fun last hLast => ?_⟩
  · rw [Tracked, h.tracked, hOpen]
    rfl
  · obtain rfl := Option.some.inj hLast
    exact hOwning

/-- A package is inserted into the open transaction. -/
theorem safe_insertPackage (value : CString) {txn : TxnId} (hTxn : parser.txn = some txn)
    (hOwning : Owning sysdCustody txn [] state) :
    Safe (step env) attributable (insertPackage value txn parser) RecordsOn state := by
  obtain ⟨current, hOpen, rfl⟩ := hOwning.opened
  refine safe_insert_open hOpen (attributable_plain trivial) (fun _ => ?_) fun row hFresh => ?_
  · refine safe_txnDestroy.mpr ⟨attributable_plain trivial, ?_, hOwning.within⟩
    simp [hOpen]
  · have hInserted : Owning sysdCustody current.id [row] (state.push current (.insert row .packageInfo)) :=
      hOwning.insert hOpen hFresh
    have hRecording : Recording { parser with row := some row }
        (state.push current (.insert row .packageInfo)) := by
      refine ⟨hTxn, hOwning.within, fun last hLast => ?_⟩
      obtain rfl := Option.some.inj hLast
      exact hInserted
    exact hRecording.fill rfl (fun _ => rfl) fun after hAfter => hAfter

/-- A record begins in a transaction of its own batch. -/
theorem Recording.beginRecord (h : Recording parser state) (value : CString) :
    Safe (step env) attributable (Daemon.beginRecord value parser) RecordsOn state := by
  rw [Daemon.beginRecord]
  split
  · refine safe_txnCreate.mpr ⟨attributable_plain trivial, fun _ => ?_⟩
    exact safe_insertPackage value rfl (owning_created h.within)
  · cases hTxn : parser.txn with
    | none => exact safe_fault.mpr (attributable_plain trivial)
    | some txn =>
        obtain ⟨current, hOpen, rfl⟩ := Option.map_eq_some_iff.mp (h.tracked.symm.trans hTxn)
        exact safe_insertPackage value hTxn ((h.owning current hOpen).weaken fun _ hRow =>
          absurd hRow List.not_mem_nil)

/-- A batch ends with a commit of what it has inserted. -/
theorem Recording.commit (h : Recording parser state) (replicates : Replicates env) {txn : TxnId}
    {next : Unit → Program Calls Result} {post : Result → State World → Prop}
    (hNext : ∀ after, Between after → Safe (step env) attributable (next ()) post after) :
    Safe (step env) attributable
      (.call (.commitBlock txn) fun _ => .call (.txnDestroy txn) next) post state := by
  refine safe_commitBlock.mpr ⟨attributable_commit (.inl ?_), ?_⟩
  · cases hTxn : state.txn with
    | none => simp [State.ops, hTxn, selfContained_nil]
    | some current => exact (h.owning current hTxn).contained
  · intro current _ _ status world link hCommit
    exact safe_txnDestroy.mpr ⟨attributable_plain trivial,
      hNext _ ⟨rfl, replicates.commit h.within hCommit⟩⟩

/-- Between the parts of a pass no record has begun. -/
theorem Between.recording (h : Between state) (hTxn : parser.txn = none) : Recording parser state where
  tracked := by rw [Tracked, hTxn, h.closed]; rfl
  within := h.within
  owning current hOpen := by
    rw [h.closed] at hOpen
    cases hOpen

/-- A record may end with the commit of its batch. -/
theorem Recording.endRecord (h : Recording parser state) (replicates : Replicates env)
    (value : CString) :
    Safe (step env) attributable (Daemon.endRecord value parser) RecordsOn state := by
  rw [Daemon.endRecord]
  cases hRow : parser.row with
  | none => exact safe_fault.mpr (attributable_plain trivial)
  | some row =>
      refine h.fill hRow (fun _ => rfl) fun after hAfter => ?_
      split
      · cases parser.txn with
        | none => exact safe_fault.mpr (attributable_plain trivial)
        | some txn =>
            exact hAfter.commit replicates fun last hLast => hLast.recording rfl
      · exact ⟨hAfter.tracked, hAfter.within, hRow ▸ hAfter.owning⟩

/-- Its columns refer to nothing. -/
theorem Recording.setColumn (h : Recording parser state) (column : Column) (arg : column.Arg)
    (hPlain : ∀ value, column.shape.refs value = []) :
    Safe (step env) attributable (Daemon.setColumn (write · column arg) parser) RecordsOn state := by
  rw [Daemon.setColumn]
  cases hRow : parser.row with
  | none => exact safe_fault.mpr (attributable_plain trivial)
  | some row => exact h.fill hRow hPlain fun after hAfter => hAfter

/-- Every scalar keeps the record attributable. -/
theorem Recording.handleScalar (h : Recording parser state) (replicates : Replicates env)
    (value : CString) :
    Safe (step env) attributable (Daemon.handleScalar value parser) RecordsOn state := by
  have hKey (key : Key) : Recording { parser with currentState := key } state :=
    ⟨h.tracked, h.within, h.owning⟩
  rw [Daemon.handleScalar]
  cases packageInfoMappingCheckKey value with
  | value =>
      change Safe _ _ (handleValue value parser) _ _
      rw [handleValue]
      cases parser.currentState with
      | value => exact h
      | pkg => exact h.beginRecord value
      | pv => exact h.setColumn .packageInfoVersion value fun _ => rfl
      | srcRev =>
          change Safe _ _ (if _ then _ else _) _ _
          split
          · exact h
          · exact h.setColumn .packageInfoVersion value fun _ => rfl
      | srcUrl => exact h.setColumn .packageInfoSrcUrl value fun _ => rfl
      | type => exact h.endRecord replicates value
  | _ => exact hKey _

/-- And so does the document. -/
theorem Recording.parseEvents (h : Recording parser state) (replicates : Replicates env)
    (events : List YamlEvent) :
    Safe (step env) attributable (Daemon.parseEvents events parser) RecordsOn state := by
  induction events generalizing parser state with
  | nil => exact h
  | cons event events ih =>
      cases event with
      | streamEnd => exact h
      | other => exact ih h
      | scalar value =>
          refine (h.handleScalar replicates value).bind fun result after hResult => ?_
          cases result with
          | none => exact hResult
          | some parser => exact ih hResult

/-- Whatever the document, each batch stays with the rows it has inserted. -/
theorem Between.populatePackages (h : Between state) (replicates : Replicates env) :
    Safe (step env) attributable Daemon.populatePackages (fun _ => Between) state := by
  rw [populatePackages_eq]
  have hTable : RegisteredTable .packageInfo := by decide
  refine safe_rows.mpr ⟨attributable_rows (.inl hTable), ?_⟩
  cases (state.view.ids .packageInfo).head? with
  | some _ => exact h
  | none =>
      refine safe_openVersionDetail.mpr ⟨attributable_plain trivial, fun answer _ => ?_⟩
      cases answer with
      | none => exact h
      | some events =>
          have hStart : Recording .initial state := h.recording rfl
          refine (hStart.parseEvents replicates events).bind fun result after hResult => ?_
          cases result with
          | none => exact hResult
          | some parser =>
              have hRecording : Recording parser after := hResult
              rw [commitLastBatch]
              cases hTxn : parser.txn with
              | none =>
                  exact ⟨Option.map_eq_none_iff.mp (hRecording.tracked.symm.trans hTxn), hRecording.within⟩
              | some txn =>
                  exact hRecording.commit replicates fun last hLast => hLast

end Packages

section Rounds

variable {World Result : Type} {env : Environment World} {config : Config} {state : State World}

theorem attributable_passCalls : PassCalls (@attributable World) := by
  intro state request hCall
  cases request with
  | rows table =>
      cases table with
      | system => exact attributable_rows (.inl (by decide : RegisteredTable .system))
      | _ => exact hCall.elim
  | read _ _ | commitBlock _ | idlRun => exact hCall.elim
  | _ => exact attributable_plain trivial

/-- The configuration stays with its own rows. -/
theorem Between.configureFirst (h : Between state) (replicates : Replicates env) :
    Safe (step env) attributable (Daemon.configureFirst config) (fun _ => Between) state := by
  refine safe_txnCreate.mpr ⟨attributable_plain trivial, fun _ => ?_⟩
  change Safe _ _ (sysdInitialConfigure config state.nextTxn >>= _) _ _
  refine (sysdInitialConfigure_owns.start (owning_created h.within)).bind fun _ after hOwning => ?_
  refine safe_commitBlock.mpr ⟨attributable_commit (.inl hOwning.contained), ?_⟩
  intro current _ _ status world link hCommit
  exact safe_txnDestroy.mpr ⟨attributable_plain trivial, rfl,
    replicates.commit hOwning.within hCommit⟩

/-- The software information is neither read nor committed. -/
theorem safe_attributable_sysdUpdateSwInfo (hClosed : state.txn = none) (cfg : RowId) :
    Safe (step env) attributable (sysdUpdateSwInfo config cfg) (fun _ after => after = state) state := by
  have hWrite (column : Column) (arg : column.Arg) (middle : State World) :
      attributable middle (.write cfg column arg) := attributable_plain trivial
  have hIssues : (sysdUpdateSwInfo config cfg).Issues
      fun request => ∀ middle : State World, attributable middle request := by
    refine ⟨fun _ => attributable_plain trivial, fun release => ?_⟩
    cases release with
    | none => trivial
    | some lines => simp [hWrite]
  have hSame : Safe (step env) anyCall (sysdUpdateSwInfo config cfg) (fun _ after => after = state) state :=
    safe_sysdUpdateSwInfo_closed hClosed cfg fun _ _ => trivial
  exact hSame.permit_issued hIssues fun middle _ hAll => hAll middle

/-- The check looks at watched columns, and the publication is what it is. -/
theorem Between.checkHardware (h : Between state) (replicates : Replicates env) (cfg : RowId) :
    Safe (step env) attributable (Daemon.checkHardware config cfg) (fun _ => Between) state := by
  refine attributable_passCalls.safe_checkHardware (safe_attributable_sysdUpdateSwInfo h.closed cfg)
    (fun _ => h) fun _ => ?_
  have hCalls : ∀ request, CheckCall request → Attributable sysdCustody state request := by
    intro request hCall
    cases request with
    | rows table =>
        cases table with
        | daemon => exact attributable_rows (.inl (by decide : RegisteredTable .daemon))
        | _ => exact hCall.elim
    | read row column =>
        cases column with
        | daemonIsHwHandler | daemonName | daemonCurHw =>
            exact attributable_read (.inr (by decide : WatchedColumn _))
        | _ => exact hCall.elim
    | _ => exact hCall.elim
  refine (safe_check hCalls h.closed).mpr ⟨fun _ => ?_, fun _ => h⟩
  have hCommit : PublicationCalls attributable state := {
    create := attributable_plain trivial
    rows := fun middle => attributable_passCalls middle _ trivial
    write := fun _ _ _ _ _ _ _ => attributable_plain trivial
    commit := attributable_commit (.inr rfl)
    destroy := fun _ _ => attributable_plain trivial
    store := fun middle => attributable_passCalls middle _ trivial }
  exact hCommit.safe fun status world link hDone => ⟨rfl, replicates.commit h.within hDone⟩

theorem Between.sysdHandleTimezoneUpdate (h : Between state) :
    Safe (step env) attributable Daemon.sysdHandleTimezoneUpdate (fun _ => Between) state := by
  rw [Daemon.sysdHandleTimezoneUpdate, first_bind]
  refine safe_rows.mpr ⟨attributable_passCalls state _ trivial, ?_⟩
  cases (state.view.ids .system).head? with
  | none => exact h
  | some cfg =>
      have hColumn : WatchedColumn .systemTimezone := by decide
      refine safe_read.mpr ⟨attributable_read (.inr hColumn), ?_⟩
      cases state.view.get cfg .systemTimezone with
      | none => exact safe_fault.mpr (attributable_plain trivial)
      | some timezone =>
          change Safe _ _ (if _ then _ else _) _ _
          split
          · exact safe_fault.mpr (attributable_plain trivial)
          · refine safe_unlink.mpr ⟨attributable_plain trivial, fun _ => ?_⟩
            exact safe_symlink.mpr ⟨attributable_plain trivial, fun _ _ => h⟩

/-- The end of a pass adds rows of its own only. -/
theorem Between.restOfPass (h : Between state) (replicates : Replicates env) :
    Safe (step env) attributable Daemon.restOfPass (fun _ => Between) state :=
  (h.populatePackages replicates).bind fun _ _ hAfter => hAfter.sysdHandleTimezoneUpdate

theorem Between.passEnd (h : Between state) : PassEnd attributable Between state where
  serves := attributable_plain trivial
  blocks _ := attributable_plain trivial
  kept := h

/-- A round keeps to what is attributable. -/
theorem Between.mainRound (h : Between state) (replicates : Replicates env) :
    Safe (step env) attributable (Daemon.mainRound config) (fun _ => Between) state := by
  refine attributable_passCalls.safe_mainRound (attributable_idlRun h.closed) (fun world link hRun _ => ?_) ?_
  · exact Between.passEnd ⟨h.closed, replicates.run h.within hRun⟩
  intro world link hRun _ _
  have hHere : Between { state with world, link } := ⟨h.closed, replicates.run h.within hRun⟩
  have hSampled : Between (sampled { state with world, link }) := ⟨h.closed, hHere.within⟩
  refine (attributable_passCalls.safe_processChange Between hHere.closed
    (fun _ => hSampled.configureFirst replicates) (fun cfg _ => hSampled.checkHardware replicates cfg)
    fun after hAfter => hAfter.restOfPass replicates).mono fun _ after hAfter => hAfter.passEnd

/-- A daemon that is started has no transaction open. -/
theorem between_boot (world : World) : Between (State.boot world) where
  closed := rfl
  within _ hRow := absurd hRow List.not_mem_nil

/-- A process that has just been started. -/
def Booted (state : State World) : Prop := ∃ world, state = State.boot world

/-- Every call of every run is attributable. -/
theorem attributable_of_reaches (replicates : Replicates env) {request : Request}
    (hReaches : LoopReaches (step env) (mainRound config) restart Booted request state) :
    Attributable sysdCustody state request := by
  refine hReaches.allowed Between ?_ ?_ fun before h => h.mainRound replicates
  · rintro _ ⟨world, rfl⟩
    exact between_boot world
  · rintro before _ - rfl
    exact between_boot before.world

end Rounds

section Commits

variable {World : Type} {env : Environment World} {config : Config} {state : State World}

/-- The cells of the publication. -/
def PublishedCell (db : Database) (row : RowId) (column : Column) : Prop :=
  HwDoneColumn column ∧ row ∈ db.ids .system

/-- The publication writes two columns of System rows. -/
theorem hwDoneOps_writes {systems : List RowId} {row : RowId} {column : Column} {value : column.Val}
    (h : Op.write row column value ∈ hwDoneOps systems) : HwDoneColumn column ∧ row ∈ systems := by
  obtain ⟨system, hSystem, hOp⟩ := List.mem_flatMap.mp h
  rcases List.mem_cons.mp hOp with hCurHw | hNextHw
  · cases hCurHw
    exact ⟨.inl rfl, hSystem⟩
  · cases List.mem_singleton.mp hNextHw
    exact ⟨.inr rfl, hSystem⟩

/-- In every run, a transaction that is committed stays with the rows it inserts,
or it is the publication. Wherever such rows are new, it changes no other cell
than those of the publication. -/
theorem commit_spares_others (replicates : Replicates env) {txn : TxnId}
    (hCommit : LoopReaches (step env) (mainRound config) restart Booted (.commitBlock txn) state) :
    (SelfContained state.ops ∨ state.ops = hwDoneOps (state.link.replica.ids .system)) ∧
      ∀ db : Database, (∀ row, Inserts state.ops row → ¬ db.Exists row) →
        db.Extends (PublishedCell state.link.replica) (applyOps db state.ops) := by
  have hOps := (attributable_of_reaches replicates hCommit).commits txn rfl
  refine ⟨hOps, fun db hFresh => ?_⟩
  rcases hOps with hContained | hPublished
  · exact (hContained.spares hFresh).mono fun _ _ _ => False.elim
  · rw [hPublished]
    exact extends_applyOps db _ fun row column value hWrite _ => hwDoneOps_writes hWrite

/-- An environment that delivers one configured switch. -/
def pmdEnv : Environment Unit where
  run _ _ _ link := link = pmdLink
  commit _ _ _ status _ link := status = .success ∧ link = pmdLink
  insertFails _ _ := False
  discards _ _ _ _ := True
  symlinkFails _ _ := True
  osRelease _ lines := lines = none
  versionDetail _ events := events = none

/-- It delivers registered tables only. -/
theorem pmdEnv_replicates : Replicates pmdEnv := by
  have hWithin : pmdLink.replica.Within RegisteredTable := by
    intro row hRow
    rcases List.mem_cons.mp hRow with rfl | hRest
    · decide
    rcases List.mem_cons.mp hRest with rfl | hLast
    · decide
    · cases List.mem_singleton.mp hLast
      decide
  exact ⟨fun _ hRun => hRun ▸ hWithin, fun _ hCommit => hCommit.2 ▸ hWithin⟩

/-- On that switch a first pass commits the publication. -/
theorem exists_commit_pmdEnv : ∃ state : State Unit,
    LoopReaches (step pmdEnv) (mainRound pmdConfig) restart Booted (.commitBlock 0) state ∧
      state.ops = hwDoneOps [0] := by
  by_contra hNone
  have hSafe : Safe (step pmdEnv) (fun state request =>
      request = .commitBlock 0 → state.ops ≠ hwDoneOps [0]) (mainRound pmdConfig) (fun _ _ => True)
      (State.boot ()) := by
    refine safe_iff.mpr ⟨?_, fun _ _ _ => trivial⟩
    rintro request state hReaches rfl hOps
    exact hNone ⟨state, ⟨_, .start ⟨(), rfl⟩, hReaches⟩, hOps⟩
  have hRun : pmdEnv.run () .initial () pmdLink := rfl
  have hChange := change_of_safe hSafe hRun rfl Nat.one_ne_zero
  have hCheck := check_of_safe (branch_of_safe hChange rfl rfl) rfl rfl
  have hCalls : ∀ request, CheckCall request → request = .commitBlock 0 →
      State.ops (sampled { State.boot () with link := pmdLink }) ≠ hwDoneOps [0] := by
    rintro _ hCall rfl
    exact hCall.elim
  have hSet := ((safe_check hCalls rfl).mp hCheck).1 pmdDone_ready
  exact (safe_commitBlock.mp (written_of_safe hSet rfl)).1 rfl rfl

/-- The publication of a daemon's completion is such a commit. -/
theorem commit_spares_others_pmd : ∃ state : State Unit,
    LoopReaches (step pmdEnv) (mainRound pmdConfig) restart Booted (.commitBlock 0) state ∧
      (SelfContained state.ops ∨ state.ops = hwDoneOps (state.link.replica.ids .system)) := by
  obtain ⟨state, hReaches, -⟩ := exists_commit_pmdEnv
  exact ⟨state, hReaches, (commit_spares_others pmdEnv_replicates hReaches).1⟩

end Commits
end OpsSysd.Daemon
