import OpsSysd.Library.Program

/-! A note kept beside the state while a program runs. Every request and its
answer may change the note; nothing depends on it. -/
namespace Interaction
namespace Program

variable {I : Interface} {Result Next State Note : Type}

/-- The same environment, with a note of what has been asked and answered. -/
def noted (mark : (request : I.Request) → I.Response request → Note → Note)
    (step : Semantics I State) : Semantics I (State × Note) :=
  fun before request answer after =>
    step before.1 request answer after.1 ∧ after.2 = mark request answer before.2

variable {mark : (request : I.Request) → I.Response request → Note → Note}
  {step : Semantics I State}

/-- Requests that leave the note as it is. -/
def Unmarked (mark : (request : I.Request) → I.Response request → Note → Note)
    (request : I.Request) : Prop :=
  ∀ answer note, mark request answer note = note

/-- Forgetting the notes of an execution leaves an execution. -/
theorem Exec.of_noted {program : Program I Result} {start finish : State × Note} {result : Result}
    (exec : Exec (noted mark step) program start result finish) :
    Exec step program start.1 result finish.1 := by
  induction exec with
  | done result state => exact .done result state.1
  | call first _ ih => exact .call first.1 ih

/-- What a program comes to with notes taken, it comes to without them. -/
theorem Reaches.of_noted {program : Program I Result} {start state : State × Note}
    {request : I.Request} (reaches : Reaches (noted mark step) program start request state) :
    Reaches step program start.1 request state.1 := by
  induction reaches with
  | here request next state => exact .here request next state.1
  | later first _ ih => exact .later first.1 ih

/-- And notes may be added to any execution. -/
theorem Exec.exists_noted {program : Program I Result} {start finish : State} {result : Result}
    (exec : Exec step program start result finish) (note : Note) :
    ∃ last, Exec (noted mark step) program (start, note) result (finish, last) := by
  induction exec generalizing note with
  | done result state => exact ⟨note, .done result (state, note)⟩
  | @call request next before middle after answer result first _ ih =>
      obtain ⟨last, rest⟩ := ih (mark request answer note)
      have hFirst : noted mark step (before, note) request answer (middle, mark request answer note) :=
        ⟨first, rfl⟩
      exact ⟨last, .call hFirst rest⟩

/-- And the other way round, with some note. -/
theorem Reaches.exists_noted {program : Program I Result} {start state : State}
    {request : I.Request} (reaches : Reaches step program start request state) (note : Note) :
    ∃ last, Reaches (noted mark step) program (start, note) request (state, last) := by
  induction reaches generalizing note with
  | here request next state => exact ⟨note, .here request next (state, note)⟩
  | @later request next before middle state answer target first _ ih =>
      obtain ⟨last, rest⟩ := ih (mark request answer note)
      have hFirst : noted mark step (before, note) request answer (middle, mark request answer note) :=
        ⟨first, rfl⟩
      exact ⟨last, .later hFirst rest⟩

section Safe

variable {permitted : State → I.Request → Prop} {post : Result → State → Prop}

/-- The rule for one request, with the note that is made of its answer. -/
theorem safe_noted_call {permitted : State × Note → I.Request → Prop}
    {post : Result → State × Note → Prop} {request : I.Request}
    {next : I.Response request → Program I Result} {state : State} {note : Note} :
    Safe (noted mark step) permitted (.call request next) post (state, note) ↔
      permitted (state, note) request ∧ ∀ answer after, step state request answer after →
        Safe (noted mark step) permitted (next answer) post (after, mark request answer note) := by
  rw [safe_call]
  refine and_congr_right fun _ => ⟨fun h answer after hStep => h answer _ ⟨hStep, rfl⟩, ?_⟩
  rintro h answer ⟨after, last⟩ ⟨hStep, rfl⟩
  exact h answer after hStep

/-- What is safe stays safe when notes are kept. -/
theorem Safe.noted {program : Program I Result} {state : State}
    (safe : Safe step permitted program post state) (note : Note) :
    Safe (Program.noted mark step) (fun state request => permitted state.1 request) program
      (fun result after => post result after.1) (state, note) := by
  induction program generalizing state note with
  | done result => exact safe
  | call request next ih =>
      refine ⟨safe.1, ?_⟩
      rintro answer ⟨after, last⟩ ⟨hStep, rfl⟩
      exact ih answer (safe.2 answer after hStep) _

/-- A program that asks for nothing of note leaves the note as it is. -/
theorem Safe.unmarked {program : Program I Result} {state : State}
    (safe : Safe step permitted program post state) (hIssues : program.Issues (Unmarked mark))
    (note : Note) :
    Safe (Program.noted mark step) (fun state request => permitted state.1 request) program
      (fun result after => post result after.1 ∧ after.2 = note) (state, note) := by
  induction program generalizing state with
  | done result => exact ⟨safe, rfl⟩
  | call request next ih =>
      refine ⟨safe.1, ?_⟩
      rintro answer ⟨after, last⟩ ⟨hStep, rfl⟩
      have hSame : mark request answer note = note := hIssues.1 answer note
      simp only [hSame]
      exact ih answer (safe.2 answer after hStep) (hIssues.2 answer)

/-- So does one whose obligations leave no room for such requests. -/
theorem Safe.unnoted {program : Program I Result} {state : State}
    (safe : Safe step permitted program post state)
    (hUnmarked : ∀ state request, permitted state request → Unmarked mark request) (note : Note) :
    Safe (Program.noted mark step) (fun state request => permitted state.1 request) program
      (fun result after => post result after.1 ∧ after.2 = note) (state, note) := by
  induction program generalizing state with
  | done result => exact ⟨safe, rfl⟩
  | call request next ih =>
      refine ⟨safe.1, ?_⟩
      rintro answer ⟨after, last⟩ ⟨hStep, rfl⟩
      have hSame : mark request answer note = note := hUnmarked state request safe.1 answer note
      simp only [hSame]
      exact ih answer (safe.2 answer after hStep)

end Safe

section Loop

variable {body : Program I Bool} {between : State → State → Prop} {start : State → Prop}

/-- The rounds of a loop, without the notes. -/
theorem LoopTop.of_noted {state : State × Note}
    (top : LoopTop (Program.noted mark step) body (fun before after => between before.1 after.1)
      (fun state => start state.1) state) :
    LoopTop step body between start state.1 := by
  induction top with
  | start hStart => exact .start hStart
  | round _ run ih => exact .round ih run.of_noted
  | between _ move ih => exact .between ih move

/-- Notes may be kept in any run of a loop, whatever they say at its start. -/
theorem LoopTop.exists_noted {state : State} (top : LoopTop step body between start state)
    (note : Note) : ∃ last, LoopTop (Program.noted mark step) body
      (fun before after => between before.1 after.1 ∧ after.2 = before.2) (fun state => start state.1)
      (state, last) := by
  induction top with
  | start hStart => exact ⟨note, .start hStart⟩
  | round _ run ih =>
      obtain ⟨last, top⟩ := ih
      obtain ⟨last', run'⟩ := run.exists_noted last
      exact ⟨last', .round top run'⟩
  | between _ move ih =>
      obtain ⟨last, top⟩ := ih
      exact ⟨last, .between top ⟨move, rfl⟩⟩

/-- Notes may be taken of a whole run, kept from round to round. -/
theorem LoopReaches.exists_noted {request : I.Request} {state : State}
    (reaches : LoopReaches step body between start request state) (note : Note) :
    ∃ last, LoopReaches (Program.noted mark step) body
      (fun before after => between before.1 after.1 ∧ after.2 = before.2) (fun state => start state.1)
      request (state, last) := by
  obtain ⟨top, hTop, hReaches⟩ := reaches
  obtain ⟨last, hTop⟩ := hTop.exists_noted note
  obtain ⟨last', hReaches⟩ := hReaches.exists_noted last
  exact ⟨last', (top, last), hTop, hReaches⟩

end Loop

end Program
end Interaction
