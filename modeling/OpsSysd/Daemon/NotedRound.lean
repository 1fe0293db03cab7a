import OpsSysd.Daemon.Round
import OpsSysd.Library.Noted

/-! Rules for a round of the main loop with a note of what the daemon does with
a change. The calls around that work leave the note as it is. -/
namespace OpsSysd.Daemon

open CLib Interaction Interaction.Program Idl

/-- Calls of a round outside what it does with a change. -/
def RoundCall (request : Request) : Prop :=
  PassCall request ∨ request = .idlRun ∨ request = .unixctlServerRun ∨ request = .pollBlock

section Rules

variable {World Note Result : Type} {env : Environment World}
  {mark : (request : Request) → request.Response → Note → Note}
  {permitted : State World × Note → Request → Prop} {invariant : State World × Note → Prop}
  {state : State World} {note : Note} {config : Config}

/-- The note does not depend on them. -/
def Overlooks (mark : (request : Request) → request.Response → Note → Note) : Prop :=
  ∀ request, RoundCall request → @Unmarked Calls Note mark request

theorem Overlooks.safe_call (overlooks : Overlooks mark) {request : Request}
    {next : request.Response → Program Calls Result} {post : Result → State World × Note → Prop}
    (hCall : RoundCall request) (hPermitted : permitted (state, note) request)
    (hNext : ∀ answer after, step env state request answer after →
      Safe (noted mark (step env)) permitted (next answer) post (after, note)) :
    Safe (noted mark (step env)) permitted (.call request next) post (state, note) := by
  refine safe_noted_call.mpr ⟨hPermitted, fun answer after hStep => ?_⟩
  have hSame : mark request answer note = note := overlooks request hCall answer note
  rw [hSame]
  exact hNext answer after hStep

/-- What is to be shown where a pass has ended. -/
structure NotedEnd (permitted : State World × Note → Request → Prop)
    (invariant : State World × Note → Prop) (current : State World × Note) : Prop where
  serves : permitted current .unixctlServerRun
  blocks : current.1.idlSeqno = current.1.link.seqno → permitted current .pollBlock
  kept : invariant current

theorem safe_noted_rest (overlooks : Overlooks mark)
    (calls : ∀ current request, PassCall request → permitted current request)
    (h : NotedEnd permitted invariant (state, note)) :
    Safe (noted mark (step env)) permitted (do
      let exiting ← unixctlServerRun
      sysdWait exiting) (fun _ => invariant) (state, note) := by
  refine overlooks.safe_call (.inr (.inr (.inl rfl))) h.serves ?_
  rintro exiting after hAfter
  obtain rfl := (show state = after from hAfter.symm)
  refine overlooks.safe_call (.inl trivial) (calls _ _ trivial) ?_
  rintro _ after ⟨rfl, hAfter⟩
  obtain rfl := Eq.symm hAfter
  refine overlooks.safe_call (.inl trivial) (calls _ _ trivial) ?_
  rintro _ after ⟨rfl, hAfter⟩
  obtain rfl := Eq.symm hAfter
  change Safe _ _ (if state.idlSeqno ≠ state.link.seqno then _ else _) _ _
  by_cases hSame : state.idlSeqno = state.link.seqno
  · rw [if_neg (not_not.mpr hSame)]
    split
    · exact h.kept
    · refine overlooks.safe_call (.inr (.inr (.inr rfl))) (h.blocks hSame) ?_
      rintro _ after hAfter
      obtain rfl := (show state = after from hAfter.symm)
      exact h.kept
  · rw [if_pos hSame]
    exact h.kept

/-- A round, up to what its pass does with a change. -/
theorem safe_noted_mainRound (overlooks : Overlooks mark)
    (calls : ∀ current request, PassCall request → permitted current request)
    (hPermitted : permitted (state, note) .idlRun)
    (hIdle : ∀ world link, env.run state.world state.link world link →
      NotedEnd permitted invariant ({ state with world, link }, note))
    (hChange : ∀ world link, env.run state.world state.link world link →
      Safe (noted mark (step env)) permitted (processChange config)
        (fun _ => NotedEnd permitted invariant) ({ state with world, link }, note)) :
    Safe (noted mark (step env)) permitted (mainRound config) (fun _ => invariant) (state, note) := by
  have hPass : Safe (noted mark (step env)) permitted (sysdRun config)
      (fun _ => NotedEnd permitted invariant) (state, note) := by
    refine overlooks.safe_call (.inr (.inl rfl)) hPermitted ?_
    rintro _ _ ⟨world, link, hRun, rfl⟩
    have hEnd := hIdle world link hRun
    refine overlooks.safe_call (.inl trivial) (calls _ _ trivial) ?_
    rintro _ _ ⟨rfl, rfl⟩
    change Safe _ _ (if link.isLockContended then _ else _) _ _
    split
    · exact hEnd
    refine overlooks.safe_call (.inl trivial) (calls _ _ trivial) ?_
    rintro _ _ ⟨rfl, rfl⟩
    change Safe _ _ (if !link.hasLock then _ else _) _ _
    split
    · exact hEnd
    refine overlooks.safe_call (.inl trivial) (calls _ _ trivial) ?_
    rintro _ _ ⟨rfl, rfl⟩
    refine overlooks.safe_call (.inl trivial) (calls _ _ trivial) ?_
    rintro _ _ ⟨rfl, rfl⟩
    have hComplete : ∀ after, NotedEnd permitted invariant after →
        Safe (noted mark (step env)) permitted daemonizeComplete
          (fun _ => NotedEnd permitted invariant) after := by
      rintro ⟨after, last⟩ hAfter
      refine overlooks.safe_call (.inl trivial) (calls _ _ trivial) ?_
      rintro _ _ rfl
      exact hAfter
    change Safe _ _ (if link.seqno ≠ state.idlSeqno
      then processChange config >>= fun _ => daemonizeComplete else daemonizeComplete) _ _
    split
    · exact (hChange world link hRun).bind fun _ => hComplete
    · exact hComplete _ hEnd
  exact hPass.bind fun _ after hEnd => safe_noted_rest overlooks calls hEnd

end Rules
end OpsSysd.Daemon
