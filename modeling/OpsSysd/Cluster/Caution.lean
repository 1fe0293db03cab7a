import OpsSysd.Cluster.Network
import OpsSysd.Daemon.PartialConfiguration

/-! What a daemon can be relied on for, whatever it learns from the server: it
commits a configuration under the lock only, and where its copy has no System
row. -/
namespace OpsSysd.Cluster

open Interaction Interaction.Program Idl Daemon

section Daemon

variable {config : Config} {state : State Unit} {request : Request}

/-- A configuration is committed under the lock, where the copy has no System row. -/
def Cautious (state : State Unit) (request : Request) : Prop :=
  ∀ txn current, request = .commitBlock txn → state.txn = some current →
    Configuration current.ops → state.link.hasLock = true ∧ ¬ state.link.replica.Has .system ∧
      ∃ system, insertions .system current.ops = [system]

/-- A call that does not commit a configuration is cautious. -/
theorem cautious_of_notConfiguring (h : NotConfiguring state request) : Cautious state request :=
  fun txn current hRequest hOpen hConfiguration => absurd hConfiguration (h txn current hRequest hOpen)

theorem cautious_grants : Grants Cautious where
  loop hLoop := cautious_of_notConfiguring (notConfiguring_grants.loop hLoop)
  create hClosed := cautious_of_notConfiguring (notConfiguring_grants.create hClosed)
  insert table hOpen := cautious_of_notConfiguring (notConfiguring_grants.insert table hOpen)
  fill hFilling hOpen := cautious_of_notConfiguring (notConfiguring_grants.fill hFilling hOpen)
  commit hOpen hOps := cautious_of_notConfiguring (notConfiguring_grants.commit hOpen hOps)
  destroy txn hClosed := cautious_of_notConfiguring (notConfiguring_grants.destroy txn hClosed)

/-- Between two rounds no transaction is open. -/
def RoundEnd (_ : Bool) (state : State Unit) : Prop := state.txn = none

/-- Under the lock, with no System row in sight, a configuration may be committed. -/
theorem safe_cautious_configureFirst (hClosed : state.txn = none) (hLock : state.link.hasLock = true)
    (hNone : ¬ state.link.replica.Has .system) :
    Safe (step anyEnv) Cautious (configureFirst config) (fun _ after => after.txn = none) state := by
  refine safe_configureFirst cautious_grants hClosed ?_ fun _ _ _ _ _ _ _ => rfl
  intro system more hMore txn current _ hOpen _
  obtain rfl := Option.some.inj hOpen
  refine ⟨hLock, hNone, system, ?_⟩
  have hRest : insertions .system more = [] := not_not.mp (not_configuration_ordinary hMore)
  exact (insertions_append .system [.insert system .system] more).trans (by rw [hRest]; rfl)

/-- Where a pass has ended, the calls that are left ask for nothing. -/
theorem cautious_passEnd (hClosed : state.txn = none) :
    PassEnd Cautious (fun after => after.txn = none) state where
  serves _ _ hRequest := by cases hRequest
  blocks _ _ _ hRequest := by cases hRequest
  kept := hClosed

/-- Every round is cautious. -/
theorem safe_cautious_mainRound (hClosed : state.txn = none) :
    Safe (step anyEnv) Cautious (mainRound config) RoundEnd state := by
  refine safe_mainRound cautious_grants (fun world link _ _ => cautious_passEnd hClosed) ?_
  intro world link _ hLock _
  let delivered : State Unit := { state with world, link }
  have hSampled : (sampled delivered).txn = none := hClosed
  have hHeld : (sampled delivered).link.hasLock = true := hLock
  have hPass : Safe (step anyEnv) Cautious (processChange config) (fun _ after => after.txn = none)
      delivered := by
    refine safe_processChange _ cautious_grants hClosed
      (safe_cautious_configureFirst hSampled hHeld) (fun cfg _ => ?_) fun after hAfter => ?_
    · exact (safe_notConfiguring_checkHardware hSampled cfg).permit
        fun _ _ => cautious_of_notConfiguring
    · exact (safe_notConfiguring_restOfPass hAfter).permit fun _ _ => cautious_of_notConfiguring
  exact hPass.mono fun _ after => cautious_passEnd

/-- Other calls leave the copy alone. -/
theorem step_link {World : Type} {env : Environment World} {before after : State World}
    {answer : request.Response} (hStep : step env before request answer after)
    (hLocal : Local request) : after.link = before.link := by
  refine (step_inward hStep ?_ fun txn => ?_).2
  · rintro rfl
    exact hLocal
  · rintro rfl
    exact hLocal

end Daemon

section Parties

variable {config : Config} {party after : Party}

/-- Whatever the server has still to say, the daemon goes on with caution. -/
def Party.Sound (party : Party) : Prop :=
  match party.phase with
  | .running program => Safe (step anyEnv) Cautious program RoundEnd party.state
  | .committing next _ => ∀ status link,
      Safe (step anyEnv) Cautious (next status) RoundEnd { party.state with link }

/-- An instance that runs is sound if the rest of its round is safe. -/
theorem sound_running {program : Program Calls Bool} (hPhase : party.phase = .running program) :
    party.Sound ↔ Safe (step anyEnv) Cautious program RoundEnd party.state := by
  rw [Party.Sound, hPhase]

/-- One that waits is if the rest is safe after any answer. -/
theorem sound_committing {next : TxnStatus → Program Calls Bool} {status : Option TxnStatus}
    (hPhase : party.phase = .committing next status) : party.Sound ↔
      ∀ status link, Safe (step anyEnv) Cautious (next status) RoundEnd { party.state with link } := by
  rw [Party.Sound, hPhase]

/-- An instance that is started is sound. -/
theorem started_sound : (Party.started config).Sound :=
  (sound_running rfl).mpr (safe_cautious_mainRound rfl)

/-- Where the library listens, the copy may change and a status come. -/
theorem Party.Sound.listen (h : party.Sound) (hListens : party.phase.Listens) {link : Link}
    (hState : after.state = { party.state with link })
    (hPhase : after.phase = party.phase ∨ ∃ status, after.phase = party.phase.settle status) :
    after.Sound := by
  generalize hBefore : party.phase = before at hListens hPhase
  cases hListens with
  | run next =>
      have hAfter : after.phase = .running (.call .idlRun next) := by
        rcases hPhase with hSame | ⟨_, hSettled⟩
        · exact hSame
        · exact hSettled
      rw [sound_running hBefore] at h
      rw [sound_running hAfter, hState]
      refine safe_idlRun.mpr ⟨cautious_grants.loop trivial, fun world link _ => ?_⟩
      exact (safe_idlRun.mp h).2 world link trivial
  | commit next status =>
      have hAfter : ∃ status', after.phase = .committing next status' := by
        rcases hPhase with hSame | ⟨given, hSettled⟩
        · exact ⟨status, hSame⟩
        · cases status with
          | none => exact ⟨some given, hSettled⟩
          | some status => exact ⟨some status, hSettled⟩
      obtain ⟨status', hAfter⟩ := hAfter
      rw [sound_committing hBefore] at h
      rw [sound_committing hAfter, hState]
      exact fun status link => h status link

/-- A message may settle the commit that is waited for. -/
theorem settle_message (message : Message) (phase : Phase) :
    message.settle phase = phase ∨ ∃ status, message.settle phase = phase.settle status := by
  cases message with
  | reply status snapshot => exact .inr ⟨status, rfl⟩
  | _ => exact .inl rfl

/-- What a daemon does by itself leaves it sound. -/
theorem Party.Sound.move (h : party.Sound) (hMove : Move config party after) : after.Sound := by
  cases hMove with
  | call hPhase hLocal hStep =>
      rw [sound_running hPhase] at h
      exact (sound_running rfl).mpr (h.2 _ _ hStep)
  | receive seqno hListens hInbox => exact h.listen hListens rfl (settle_message _ _)
  | reconnect status alive hListens hClosed => exact h.listen hListens rfl (.inr ⟨status, rfl⟩)
  | endRun hPhase =>
      rw [sound_running hPhase] at h
      exact (sound_running rfl).mpr ((safe_idlRun.mp h).2 () party.state.link trivial)
  | submit hPhase hOpen hId =>
      rw [sound_running hPhase] at h
      refine (sound_committing rfl).mpr fun status link => ?_
      exact (safe_commitBlock.mp h).2 _ hOpen hId status () link trivial
  | giveUp status hPhase hOpen hId =>
      rw [sound_running hPhase] at h
      refine (sound_committing rfl).mpr fun status link => ?_
      exact (safe_commitBlock.mp h).2 _ hOpen hId status () link trivial
  | endCommit hPhase =>
      rw [sound_committing hPhase] at h
      exact (sound_running rfl).mpr (h _ party.state.link)
  | nextRound hPhase =>
      rw [sound_running hPhase] at h
      exact (sound_running rfl).mpr (safe_cautious_mainRound h)

end Parties

end OpsSysd.Cluster
