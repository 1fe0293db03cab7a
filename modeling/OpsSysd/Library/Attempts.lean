import OpsSysd.Library.Program

/-! A program that is started again and again, and may be cut short anywhere. -/
namespace Interaction
namespace Program

variable {I : Interface} {Result State : Type}

/-- States in which the next start finds what earlier ones have left. -/
inductive Attempts (step : Semantics I State) (program : Program I Result) (start : State → Prop) :
    State → Prop where
  | start {state : State} (hStart : start state) : Attempts step program start state
  | cut {before state : State} {request : I.Request} (prior : Attempts step program start before)
      (reaches : Reaches step program before request state) : Attempts step program start state
  | ended {before after : State} {result : Result} (prior : Attempts step program start before)
      (run : Exec step program before result after) : Attempts step program start after

/-- What holds at every point of one start holds at every point of all of them. -/
theorem Attempts.keeps {step : Semantics I State} {program : Program I Result} {start : State → Prop}
    (invariant : State → Prop) (hStart : ∀ state, start state → invariant state)
    (hSafe : ∀ state, invariant state →
      Safe step (fun state _ => invariant state) program (fun _ => invariant) state)
    {state : State} (attempts : Attempts step program start state) : invariant state := by
  induction attempts with
  | start hState => exact hStart _ hState
  | cut _ reaches ih => exact (safe_iff.mp (hSafe _ ih)).1 _ _ reaches
  | ended _ run ih => exact (safe_iff.mp (hSafe _ ih)).2 _ _ run

/-- A round is cut short anywhere, and the next one begins where this leads to. -/
def CutShort (step : Semantics I State) (body : Program I Result) (restart : State → State → Prop)
    (before after : State) : Prop :=
  ∃ request state, Reaches step body before request state ∧ restart state after

section Foreseen

variable {View : Type} {step : Semantics I State} {permitted : State → I.Request → Prop}
  {program : Program I Result} {post : Result → State → Prop} {view : State → View}
  {good : View → Prop} {state : State}

/-- Where the view need not change before it is known to be good, it is good already. -/
theorem Safe.foretells (safe : Safe step permitted program post state)
    (hPost : ∀ result after, post result after → good (view after))
    (hWait : ∀ state request, permitted state request →
      good (view state) ∨ ∃ answer after, step state request answer after ∧ view after = view state) :
    good (view state) := by
  induction program generalizing state with
  | done result => exact hPost result state safe
  | call request next ih =>
      rcases hWait state request safe.1 with hNow | ⟨answer, after, hStep, hSame⟩
      · exact hNow
      · exact hSame ▸ ih answer (safe.2 answer after hStep)

/-- So it holds at every call. -/
theorem Safe.foreseen (safe : Safe step permitted program post state)
    (hPost : ∀ result after, post result after → good (view after))
    (hWait : ∀ state request, permitted state request →
      good (view state) ∨ ∃ answer after, step state request answer after ∧ view after = view state) :
    Safe step (fun state _ => good (view state)) program post state := by
  induction program generalizing state with
  | done result => exact safe
  | call request next ih =>
      exact ⟨safe.foretells hPost hWait, fun answer after hStep => ih answer (safe.2 answer after hStep)⟩

end Foreseen

end Program
end Interaction
