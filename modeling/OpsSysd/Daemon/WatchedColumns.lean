import OpsSysd.Daemon.Attribution
import OpsSysd.Idl.Replica

/-! What the daemon can learn from the database. It behaves the same on a copy
that lacks every column but the watched ones; so what it registers is enough. -/
namespace OpsSysd.Daemon

open CLib Interaction Interaction.Program Idl

variable {World : Type} {env : Environment World} {config : Config} {kept : Column → Prop}
  [DecidablePred kept]

/-- A daemon that is started again, in a world that has the whole database. -/
def restartCopy (before after : State (World × Link)) : Prop :=
  after = State.boot (before.world.1, .initial)

def BootedCopy (state : State (World × Link)) : Prop := ∃ world, state = State.boot (world, .initial)

theorem restart_mirrors : LoopMirrors (@restart World) restartCopy Booted BootedCopy Between
    (State.keeping kept) where
  start {other} := by
    constructor
    · rintro ⟨world, rfl⟩
      exact ⟨State.boot world, rfl, world, rfl⟩
    · rintro ⟨state, rfl, world, rfl⟩
      exact ⟨world, rfl⟩
  move {before other} _ := by
    constructor
    · rintro rfl
      exact ⟨State.boot before.world, rfl, rfl⟩
    · rintro ⟨after, rfl, rfl⟩
      rfl

/-- On copies that lack all columns but some with the watched ones among them,
the daemon comes to the same states and makes the same requests in them, in
every run, as on whole copies. -/
theorem unwatched_columns_unseen (replicates : Replicates env)
    (hKept : ∀ column, WatchedColumn column → kept column) (request : Request)
    (other : State (World × Link)) :
    LoopReaches (step (env.keeping kept)) (mainRound config) restartCopy BootedCopy request other ↔
      ∃ state, other = state.keeping kept ∧
        LoopReaches (step env) (mainRound config) restart Booted request state := by
  have hMirrors : Mirrors (step env) (step (env.keeping kept)) attributable Fresh (State.keeping kept) :=
    mirrors_keeping hKept
  refine hMirrors.loopReaches_iff restart_mirrors (fun _ h => fresh_of_closed h.closed) ?_ ?_
    fun state h => h.mainRound replicates
  · rintro _ ⟨world, rfl⟩
    exact between_boot world
  · rintro before _ - rfl
    exact between_boot before.world

/-- The registered columns are among those that will do. -/
theorem unwatched_columns_unseen_registered : ∃ other,
    LoopReaches (step (pmdEnv.keeping RegisteredColumn)) (mainRound pmdConfig) restartCopy BootedCopy
      (.commitBlock 0) other ∧ other.ops = hwDoneOps [0] := by
  obtain ⟨state, hReaches, hOps⟩ := exists_commit_pmdEnv
  refine ⟨state.keeping RegisteredColumn, ?_, hOps⟩
  exact (unwatched_columns_unseen pmdEnv_replicates (fun _ h => (watched_registered h).1) _ _).mpr
    ⟨state, rfl, hReaches⟩

end OpsSysd.Daemon
