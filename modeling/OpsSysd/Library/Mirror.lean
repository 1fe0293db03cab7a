import OpsSysd.Library.Program

/-! An environment seen through a function on its states. Where a program asks
only for what the function does not hide, it behaves in the one as in the other. -/
namespace Interaction
namespace Program

variable {I : Interface} {Result State Other : Type}

/-- On permitted requests, the second environment is the first one seen through
`project`, in states with this invariant. -/
structure Mirrors (step : Semantics I State) (step' : Semantics I Other)
    (permitted : State → I.Request → Prop) (invariant : State → Prop) (project : State → Other) :
    Prop where
  keeps {before after : State} {request : I.Request} {answer : I.Response request}
    (h : invariant before) (hPermitted : permitted before request)
    (hStep : step before request answer after) : invariant after
  mirror {before : State} {other : Other} {request : I.Request} {answer : I.Response request}
    (h : invariant before) (hPermitted : permitted before request) :
    step' (project before) request answer other ↔
      ∃ after, other = project after ∧ step before request answer after

variable {step : Semantics I State} {step' : Semantics I Other}
  {permitted : State → I.Request → Prop} {invariant : State → Prop} {project : State → Other}

section Executions

variable {program : Program I Result} {post : Result → State → Prop} {start : State}

/-- The executions there are those here, seen through the function. -/
theorem Mirrors.exec_iff (mirrors : Mirrors step step' permitted invariant project)
    (safe : Safe step permitted program post start) (hStart : invariant start) {result : Result}
    {other : Other} :
    Exec step' program (project start) result other ↔
      ∃ finish, other = project finish ∧ Exec step program start result finish := by
  induction program generalizing start with
  | done value =>
      constructor
      · intro hExec
        cases hExec
        exact ⟨start, rfl, .done _ _⟩
      · rintro ⟨finish, rfl, hExec⟩
        cases hExec
        exact .done _ _
  | call request next ih =>
      constructor
      · intro hExec
        cases hExec with
        | call first rest =>
            obtain ⟨middle, rfl, hStep⟩ := (mirrors.mirror hStart safe.1).mp first
            have hMiddle := mirrors.keeps hStart safe.1 hStep
            obtain ⟨finish, hFinish, hRest⟩ := (ih _ (safe.2 _ _ hStep) hMiddle).mp rest
            exact ⟨finish, hFinish, .call hStep hRest⟩
      · rintro ⟨finish, rfl, hExec⟩
        cases hExec with
        | @call _ _ _ middle _ _ _ first rest =>
            have hMiddle := mirrors.keeps hStart safe.1 first
            have hFirst := (mirrors.mirror hStart safe.1).mpr ⟨middle, rfl, first⟩
            exact .call hFirst ((ih _ (safe.2 _ _ first) hMiddle).mpr ⟨finish, rfl, rest⟩)

/-- And so are the requests. -/
theorem Mirrors.reaches_iff (mirrors : Mirrors step step' permitted invariant project)
    (safe : Safe step permitted program post start) (hStart : invariant start) {request : I.Request}
    {other : Other} :
    Reaches step' program (project start) request other ↔
      ∃ state, other = project state ∧ Reaches step program start request state := by
  induction program generalizing start with
  | done value => simp
  | call first next ih =>
      rw [reaches_call]
      constructor
      · rintro (⟨rfl, rfl⟩ | ⟨answer, middle, hOther, hRest⟩)
        · exact ⟨start, rfl, .here _ _ _⟩
        · obtain ⟨middle, rfl, hStep⟩ := (mirrors.mirror hStart safe.1).mp hOther
          have hMiddle := mirrors.keeps hStart safe.1 hStep
          obtain ⟨state, hState, hReaches⟩ := (ih _ (safe.2 _ _ hStep) hMiddle).mp hRest
          exact ⟨state, hState, .later hStep hReaches⟩
      · rintro ⟨state, rfl, hReaches⟩
        rcases reaches_call.mp hReaches with ⟨rfl, rfl⟩ | ⟨answer, middle, hStep, hRest⟩
        · exact .inl ⟨rfl, rfl⟩
        · have hMiddle := mirrors.keeps hStart safe.1 hStep
          have hFirst := (mirrors.mirror hStart safe.1).mpr ⟨middle, rfl, hStep⟩
          exact .inr ⟨answer, project middle, hFirst,
            (ih _ (safe.2 _ _ hStep) hMiddle).mpr ⟨state, rfl, hRest⟩⟩

end Executions

section Loop

variable {body : Program I Bool} {between : State → State → Prop} {between' : Other → Other → Prop}
  {starts : State → Prop} {starts' : Other → Prop} {entry : State → Prop}

/-- Rounds of a loop mirror each other, where a round may begin in a state of
this kind, and what happens in between is mirrored. -/
structure LoopMirrors (between : State → State → Prop) (between' : Other → Other → Prop)
    (starts : State → Prop) (starts' : Other → Prop) (entry : State → Prop) (project : State → Other) :
    Prop where
  start {other : Other} : starts' other ↔ ∃ state, other = project state ∧ starts state
  move {before : State} {other : Other} (h : entry before) :
    between' (project before) other ↔ ∃ after, other = project after ∧ between before after

theorem Mirrors.loopTop_iff (mirrors : Mirrors step step' permitted invariant project)
    (loop : LoopMirrors between between' starts starts' entry project)
    (hEntry : ∀ state, entry state → invariant state)
    (hStart : ∀ state, starts state → entry state)
    (hMove : ∀ before after, entry before → between before after → entry after)
    (hBody : ∀ state, entry state → Safe step permitted body (fun _ => entry) state) {other : Other} :
    LoopTop step' body between' starts' other ↔
      ∃ state, other = project state ∧ LoopTop step body between starts state := by
  have hKeeps : ∀ state, LoopTop step body between starts state → entry state :=
    fun state top => top.keeps hStart hMove hBody
  constructor
  · intro top
    induction top with
    | start hState =>
        obtain ⟨state, hOther, hFirst⟩ := loop.start.mp hState
        exact ⟨state, hOther, .start hFirst⟩
    | round _ run ih =>
        obtain ⟨state, rfl, hTop⟩ := ih
        have hState := hKeeps state hTop
        obtain ⟨after, hAfter, hExec⟩ :=
          (mirrors.exec_iff (hBody state hState) (hEntry state hState)).mp run
        exact ⟨after, hAfter, .round hTop hExec⟩
    | between _ move ih =>
        obtain ⟨state, rfl, hTop⟩ := ih
        obtain ⟨after, hAfter, hNext⟩ := (loop.move (hKeeps state hTop)).mp move
        exact ⟨after, hAfter, .between hTop hNext⟩
  · rintro ⟨state, rfl, top⟩
    induction top with
    | start hState => exact .start (loop.start.mpr ⟨_, rfl, hState⟩)
    | round prior run ih =>
        have hState := hKeeps _ prior
        exact .round ih ((mirrors.exec_iff (hBody _ hState) (hEntry _ hState)).mpr ⟨_, rfl, run⟩)
    | between prior move ih => exact .between ih ((loop.move (hKeeps _ prior)).mpr ⟨_, rfl, move⟩)

/-- The requests of all rounds of all runs. -/
theorem Mirrors.loopReaches_iff (mirrors : Mirrors step step' permitted invariant project)
    (loop : LoopMirrors between between' starts starts' entry project)
    (hEntry : ∀ state, entry state → invariant state)
    (hStart : ∀ state, starts state → entry state)
    (hMove : ∀ before after, entry before → between before after → entry after)
    (hBody : ∀ state, entry state → Safe step permitted body (fun _ => entry) state)
    {request : I.Request} {other : Other} :
    LoopReaches step' body between' starts' request other ↔
      ∃ state, other = project state ∧ LoopReaches step body between starts request state := by
  have hTop (other : Other) : LoopTop step' body between' starts' other ↔
      ∃ state, other = project state ∧ LoopTop step body between starts state :=
    mirrors.loopTop_iff loop hEntry hStart hMove hBody
  constructor
  · rintro ⟨top, hLoop, hReaches⟩
    obtain ⟨state, rfl, hState⟩ := (hTop _).mp hLoop
    have hHere : entry state := hState.keeps hStart hMove hBody
    obtain ⟨target, hTarget, hIssued⟩ := (mirrors.reaches_iff (hBody state hHere) (hEntry state hHere)).mp
      hReaches
    exact ⟨target, hTarget, state, hState, hIssued⟩
  · rintro ⟨target, rfl, state, hState, hReaches⟩
    have hHere : entry state := hState.keeps hStart hMove hBody
    exact ⟨project state, (hTop _).mpr ⟨state, rfl, hState⟩,
      (mirrors.reaches_iff (hBody state hHere) (hEntry state hHere)).mpr ⟨target, rfl, hReaches⟩⟩

end Loop

end Program
end Interaction
