import OpsSysd.Daemon.Footprint

/-! The lists that the initial configuration puts into its transaction, and
whether all their elements come from the daemon. -/
namespace OpsSysd.Daemon

open CLib Interaction Interaction.Program Idl

/-- Whenever the initial configuration sets this column, the count does not pass
the initialised elements of the array, and so the call says what is stored. -/
structure SetsInitialised {World : Type} (env : Environment World) (config : Config) (txn : TxnId)
    (column : Column) : Prop where
  bounded : ∀ state row arg middle, state.Opened txn →
    Reaches (step env) (sysdInitialConfigure config txn) state (.write row column arg) middle →
      column.shape.Initialised arg
  determined : ∀ state row arg middle, state.Opened txn →
    Reaches (step env) (sysdInitialConfigure config txn) state (.write row column arg) middle →
      ∀ value other, column.shape.Stored arg value → column.shape.Stored arg other → value = other

/-- A list that is set is initialised, or is the table id of a VRF. -/
def ListsInitialised : Request → Prop
  | .write _ column arg => column ≠ .vrfTableId → column.shape.Initialised arg
  | _ => True

section Lists

variable {World : Type} {env : Environment World} {config : Config} {txn : TxnId}
  {state : State World} {column : Column}

theorem setsInitialised_of_issues {allowed : Request → Prop}
    (hIssues : (sysdInitialConfigure config txn).Issues allowed)
    (hAllowed : ∀ row arg, allowed (.write row column arg) → column.shape.Initialised arg) :
    SetsInitialised env config txn column where
  bounded _ row arg _ _ hReaches := hAllowed row arg (hIssues.of_reaches hReaches)
  determined _ row arg _ _ hReaches _ _ hValue hOther :=
    (hAllowed row arg (hIssues.of_reaches hReaches)).stored_unique hValue hOther

/-- The counts of all other lists are right, for every description. -/
theorem sysdInitialConfigure_lists :
    (sysdInitialConfigure config txn).Issues ListsInitialised := by
  rw [sysdInitialConfigure, issues_insertRow_bind]
  refine ⟨trivial, trivial, fun system => (configureSystem_lists system).mono fun request h => ?_⟩
  cases request with
  | write row column arg => exact h.2
  | _ => trivial

/-- Without a management interface nothing is set at all. -/
theorem sysdInitialConfigure_of_none (hNone : config.mgmtIntf = none) :
    (sysdInitialConfigure config txn).Issues fun request : Request =>
      ∀ row column arg, request ≠ .write row column arg := by
  rw [sysdInitialConfigure, issues_insertRow_bind]
  refine ⟨by simp, by simp, fun system => ?_⟩
  rw [configureSystem, issues_orFault_bind, hNone]
  simp

theorem sysdConfigureDefaultBridge_runs {permitted : State World → Request → Prop}
    (admits : Admits env permitted) (system : RowId) :
    Runs env permitted txn (sysdConfigureDefaultBridge config txn system) := by
  refine (runs_insertRow admits _).bind fun bridge => (runs_write admits _ _ _).bind fun _ => ?_
  refine (runs_write admits _ _ _).bind fun _ => (runs_insertRow admits _).bind fun iface => ?_
  refine (runs_write admits _ _ _).bind fun _ => (runs_write admits _ _ _).bind fun _ => ?_
  refine (runs_write admits _ _ _).bind fun _ => (runs_write admits _ _ _).bind fun _ => ?_
  refine (runs_insertRow admits _).bind fun port => (runs_write admits _ _ _).bind fun _ => ?_
  exact (runs_write admits _ _ _).bind fun _ => runs_write admits _ _ _

/-- A row's table id is set to eight elements, of which there is one. -/
def SetsTableId (request : Request) : Prop := ∃ row, request = .write row .vrfTableId ⟨[0], 8⟩

/-- With one, some run comes to the VRF. -/
theorem sysdInitialConfigure_setsTableId (total : env.Total) (hOpen : state.Opened txn)
    (hIntf : config.mgmtIntf ≠ none) :
    MayIssue env SetsTableId (sysdInitialConfigure config txn) state := by
  obtain ⟨mgmtIntf, hSome⟩ := Option.ne_none_iff_exists'.mp hIntf
  rw [sysdInitialConfigure]
  apply MayIssue.after (runs_insertRow admits_accepting _) total hOpen
  intro system inserted hInserted
  rw [configureSystem, hSome]
  apply MayIssue.after (runs_done mgmtIntf) total hInserted
  intro _ named hNamed
  apply MayIssue.after (runs_write admits_accepting _ _ _) total hNamed
  intro _ written hWritten
  apply MayIssue.after (sysdConfigureDefaultBridge_runs admits_accepting system) total hWritten
  intro _ bridged hBridged
  apply MayIssue.first
  rw [sysdConfigureDefaultVrf]
  apply MayIssue.after (runs_insertRow admits_accepting _) total hBridged
  intro vrf added hAdded
  apply MayIssue.after (runs_write admits_accepting _ _ _) total hAdded
  intro _ titled hTitled
  apply MayIssue.after (runs_write admits_accepting _ _ _) total hTitled
  intro _ referred _
  exact ⟨_, referred, ⟨vrf, rfl⟩, .here _ _ _⟩

theorem not_setsInitialised_tableId (total : env.Total) (hOpen : state.Opened txn)
    (hIntf : config.mgmtIntf ≠ none) : ¬ SetsInitialised env config txn .vrfTableId := by
  intro hSets
  obtain ⟨_, middle, ⟨row, rfl⟩, hReaches⟩ := sysdInitialConfigure_setsTableId total hOpen hIntf
  have hBounded := hSets.bounded state row ⟨[0], 8⟩ middle hOpen hReaches
  exact absurd hBounded (show ¬ 8 ≤ 1 by decide)

/-- The lists are initialised exactly where nothing is set, because of the table
id alone. -/
theorem setsInitialised_iff (total : env.Total) (hOpen : state.Opened txn) :
    ((∀ column, SetsInitialised env config txn column) ↔ config.mgmtIntf = none) ∧
      ∀ column ≠ .vrfTableId, SetsInitialised env config txn column := by
  have hOthers : ∀ column ≠ .vrfTableId, SetsInitialised env config txn column :=
    fun column hOther => setsInitialised_of_issues sysdInitialConfigure_lists fun _ _ h => h hOther
  refine ⟨⟨fun hAll => by_contra fun hIntf => ?_, fun hNone column => ?_⟩, hOthers⟩
  · exact not_setsInitialised_tableId total hOpen hIntf (hAll .vrfTableId)
  · apply setsInitialised_of_issues (sysdInitialConfigure_of_none hNone)
    exact fun row arg h => absurd rfl (h row column arg)

theorem onePort_setsInitialised_iff :
    ((∀ column, SetsInitialised anyEnv (.onePort []) 0 column) ↔
        (Config.onePort []).mgmtIntf = none) ∧
      ∀ column ≠ .vrfTableId, SetsInitialised anyEnv (.onePort []) 0 column :=
  setsInitialised_iff anyEnv_total configuring_opened

/-- One element is there for the table id, and eight are announced. -/
theorem onePort_not_setsInitialised :
    ¬ ∀ column, SetsInitialised anyEnv (.onePort []) 0 column := by
  intro hAll
  have hIntf : (Config.onePort []).mgmtIntf ≠ none := nofun
  exact not_setsInitialised_tableId anyEnv_total configuring_opened hIntf (hAll .vrfTableId)

end Lists
end OpsSysd.Daemon
