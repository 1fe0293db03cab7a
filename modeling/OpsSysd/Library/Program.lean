import Mathlib.Tactic.Common
import Mathlib.Data.List.Basic

/-! Programs that talk to an environment they do not control. A program is a
finite tree of requests; the environment answers each request and may change
the state while doing so. Nothing here fixes what the requests mean. -/
namespace Interaction

/-- The requests a program may issue, and what an answer to each looks like. -/
structure Interface where
  Request : Type
  Response : Request → Type

/-- A program that ends with a result. -/
inductive Program (I : Interface) (Result : Type) where
  | done (result : Result)
  | call (request : I.Request) (next : I.Response request → Program I Result)

namespace Program

variable {I : Interface} {Result Next State : Type}

def bind : Program I Result → (Result → Program I Next) → Program I Next
  | .done result, after => after result
  | .call request next, after => .call request fun answer => (next answer).bind after

instance : Monad (Program I) where
  pure := Program.done
  bind := Program.bind

@[simp] theorem pure_eq (result : Result) : (pure result : Program I Result) = .done result := rfl

@[simp] theorem bind_eq (program : Program I Result) (after : Result → Program I Next) :
    program.bind after = program >>= after := rfl

@[simp] theorem done_bind (result : Result) (after : Result → Program I Next) :
    (Program.done result >>= after) = after result := rfl

@[simp] theorem call_bind (request : I.Request) (next : I.Response request → Program I Result)
    (after : Result → Program I Next) :
    (Program.call request next >>= after) = .call request fun answer => next answer >>= after := rfl

/-- What follows a branch follows in both. -/
@[simp] theorem ite_bind {condition : Prop} [Decidable condition]
    (yes no : Program I Result) (after : Result → Program I Next) :
    ((if condition then yes else no) >>= after) =
      if condition then yes >>= after else no >>= after := by
  split <;> rfl

/-- Nothing more to do after a program leaves it as it is. -/
theorem bind_done (program : Program I Result) : program >>= Program.done = program := by
  induction program with
  | done result => rfl
  | call request next ih => exact congrArg (Program.call request) (funext ih)

/-- Sequencing is associative. -/
theorem bind_bind {Last : Type} (program : Program I Result) (after : Result → Program I Next)
    (last : Next → Program I Last) :
    (program >>= after) >>= last = program >>= fun result => after result >>= last := by
  induction program with
  | done result => rfl
  | call request next ih => exact congrArg (Program.call request) (funext ih)

instance : LawfulMonad (Program I) :=
  LawfulMonad.mk' _ bind_done (fun _ _ => rfl) bind_bind

/-- Every request the program can ever issue satisfies the predicate, whatever
the environment answers. -/
def Issues (allowed : I.Request → Prop) : Program I Result → Prop
  | .done _ => True
  | .call request next => allowed request ∧ ∀ answer, (next answer).Issues allowed

section Issues

variable {allowed : I.Request → Prop}

@[simp] theorem issues_done (result : Result) :
    (Program.done result : Program I Result).Issues allowed := trivial

/-- A program that begins with a request issues it, and what comes after any answer. -/
@[simp] theorem issues_call (request : I.Request)
    (next : I.Response request → Program I Result) :
    (Program.call request next).Issues allowed ↔
      allowed request ∧ ∀ answer, (next answer).Issues allowed := Iff.rfl

@[simp] theorem issues_ite {condition : Prop} [Decidable condition] (yes no : Program I Result) :
    (if condition then yes else no).Issues allowed ↔
      (condition → yes.Issues allowed) ∧ (¬ condition → no.Issues allowed) := by
  split <;> simp_all

/-- What both parts of a program may issue, the whole may. -/
theorem Issues.bind {program : Program I Result} {after : Result → Program I Next}
    (hProgram : program.Issues allowed) (hAfter : ∀ result, (after result).Issues allowed) :
    (program >>= after).Issues allowed := by
  induction program with
  | done result => exact hAfter result
  | call request next ih => exact ⟨hProgram.1, fun answer => ih answer (hProgram.2 answer)⟩

/-- The allowed requests may be widened. -/
theorem Issues.mono {wider : I.Request → Prop} {program : Program I Result}
    (hProgram : program.Issues allowed) (hWider : ∀ request, allowed request → wider request) :
    program.Issues wider := by
  induction program with
  | done result => trivial
  | call request next ih =>
      exact ⟨hWider request hProgram.1, fun answer => ih answer (hProgram.2 answer)⟩

/-- A loop issues what its body issues. -/
theorem Issues.forM {Item : Type} {body : Item → Program I PUnit} {items : List Item}
    (hBody : ∀ item ∈ items, (body item).Issues allowed) :
    (forM items body).Issues allowed := by
  induction items with
  | nil => trivial
  | cons item items ih =>
      rw [List.forM_cons]
      exact (hBody item List.mem_cons_self).bind
        fun _ => ih fun later hLater => hBody later (List.mem_cons_of_mem _ hLater)

/-- So does a loop that collects results. -/
theorem Issues.mapM {Item : Type} {body : Item → Program I Result} {items : List Item}
    (hBody : ∀ item ∈ items, (body item).Issues allowed) :
    (items.mapM body).Issues allowed := by
  induction items with
  | nil => simp
  | cons item items ih =>
      rw [List.mapM_cons]
      exact (hBody item List.mem_cons_self).bind fun _ =>
        (ih fun later hLater => hBody later (List.mem_cons_of_mem _ hLater)).bind fun _ => trivial

/-- Every result the program can end with satisfies the predicate, whatever the
environment answers. -/
def Yields (good : Result → Prop) : Program I Result → Prop
  | .done result => good result
  | .call _ next => ∀ answer, (next answer).Yields good

/-- What the first part yields may be used to see what the second does. -/
theorem Yields.bind {good : Result → Prop} {last : Next → Prop} {program : Program I Result}
    {after : Result → Program I Next} (hProgram : program.Yields good)
    (hAfter : ∀ result, good result → (after result).Yields last) :
    (program >>= after).Yields last := by
  induction program with
  | done result => exact hAfter result hProgram
  | call request next ih => exact fun answer => ih answer (hProgram answer)

theorem yields_any (program : Program I Result) : program.Yields fun _ => True := by
  induction program with
  | done result => trivial
  | call request next ih => exact ih

/-- What follows a program need only be right for the results it can end with. -/
theorem Issues.bind_yields {good : Result → Prop} {program : Program I Result}
    {after : Result → Program I Next} (hProgram : program.Issues allowed)
    (hYields : program.Yields good) (hAfter : ∀ result, good result → (after result).Issues allowed) :
    (program >>= after).Issues allowed := by
  induction program with
  | done result => exact hAfter result hYields
  | call request next ih =>
      exact ⟨hProgram.1, fun answer => ih answer (hProgram.2 answer) (hYields answer)⟩

/-- A loop ends with one result for each item. -/
theorem yields_mapM {Item : Type} (body : Item → Program I Result) (items : List Item) :
    (items.mapM body).Yields fun results => results.length = items.length := by
  induction items with
  | nil =>
      rw [List.mapM_nil]
      rfl
  | cons item items ih =>
      rw [List.mapM_cons]
      refine (yields_any (body item)).bind fun result _ => ih.bind fun results hLength => ?_
      exact congrArg Nat.succ hLength

end Issues

/-- How an environment answers: `step before request answer after`. -/
abbrev Semantics (I : Interface) (State : Type) :=
  State → (request : I.Request) → I.Response request → State → Prop

variable {step : Semantics I State}

/-- A complete execution, with its result and its last state. -/
inductive Exec (step : Semantics I State) :
    Program I Result → State → Result → State → Prop where
  | done (result : Result) (state : State) : Exec step (.done result) state result state
  | call {request : I.Request} {next : I.Response request → Program I Result}
      {before middle after : State} {answer : I.Response request} {result : Result}
      (first : step before request answer middle)
      (rest : Exec step (next answer) middle result after) :
      Exec step (.call request next) before result after

/-- Some execution, complete or not, issues this request in this state. -/
inductive Reaches (step : Semantics I State) :
    Program I Result → State → I.Request → State → Prop where
  | here (request : I.Request) (next : I.Response request → Program I Result) (state : State) :
      Reaches step (.call request next) state request state
  | later {request : I.Request} {next : I.Response request → Program I Result}
      {before middle state : State} {answer : I.Response request} {target : I.Request}
      (first : step before request answer middle)
      (rest : Reaches step (next answer) middle target state) :
      Reaches step (.call request next) before target state

/-- Two runs make one of the sequence. -/
theorem Exec.bind {program : Program I Result} {after : Result → Program I Next}
    {start middle finish : State} {result : Result} {last : Next}
    (first : Exec step program start result middle)
    (rest : Exec step (after result) middle last finish) :
    Exec step (program >>= after) start last finish := by
  induction first with
  | done result state => exact rest
  | call hStep _ ih => exact .call hStep (ih rest)

/-- What happens in an environment happens in one that may do more. -/
theorem Exec.widen {wider : Semantics I State} {program : Program I Result} {start finish : State}
    {result : Result} (exec : Exec step program start result finish)
    (hWider : ∀ before request answer after, step before request answer after →
      wider before request answer after) : Exec wider program start result finish := by
  induction exec with
  | done result state => exact .done result state
  | call first _ ih => exact .call (hWider _ _ _ _ first) ih

/-- What a program that issues such requests only does, it does where others have
no answer. -/
theorem Exec.restrict {narrower : Semantics I State} {allowed : I.Request → Prop}
    {program : Program I Result} {start finish : State} {result : Result}
    (exec : Exec step program start result finish) (hIssues : program.Issues allowed)
    (hNarrower : ∀ before request answer after, allowed request → step before request answer after →
      narrower before request answer after) : Exec narrower program start result finish := by
  induction exec with
  | done result state => exact .done result state
  | call first _ ih => exact .call (hNarrower _ _ _ _ hIssues.1 first) (ih (hIssues.2 _))

/-- What a program comes to, it comes to whatever follows. -/
theorem Reaches.bind_left {program : Program I Result} {after : Result → Program I Next}
    {start state : State} {request : I.Request} (reaches : Reaches step program start request state) :
    Reaches step (program >>= after) start request state := by
  induction reaches with
  | here request next state => exact .here _ _ _
  | later hStep _ ih => exact .later hStep ih

/-- After a whole run of the first part, a sequence comes to what the second does. -/
theorem Reaches.bind_right {program : Program I Result} {after : Result → Program I Next}
    {start middle state : State} {result : Result} {request : I.Request}
    (first : Exec step program start result middle)
    (rest : Reaches step (after result) middle request state) :
    Reaches step (program >>= after) start request state := by
  induction first with
  | done result state => exact rest
  | call hStep _ ih => exact .later hStep (ih rest)

/-- Whatever an execution issues is of the class of the program's requests. -/
theorem Issues.of_reaches {allowed : I.Request → Prop} {program : Program I Result}
    (hIssues : program.Issues allowed) {start state : State} {request : I.Request}
    (reaches : Reaches step program start request state) : allowed request := by
  induction reaches with
  | here request next state => exact hIssues.1
  | later first _ ih => exact ih (hIssues.2 _)

section Reaches

variable {start state : State} {target : I.Request}

/-- A program that has ended comes to no request. -/
@[simp] theorem not_reaches_done (result : Result) :
    ¬ Reaches step (.done result : Program I Result) start target state :=
  fun hReaches => nomatch hReaches

/-- A program issues its first request, and what it issues after an answer. -/
theorem reaches_call {request : I.Request} {next : I.Response request → Program I Result} :
    Reaches step (.call request next) start target state ↔
      (target = request ∧ state = start) ∨
        ∃ answer middle, step start request answer middle ∧
          Reaches step (next answer) middle target state := by
  constructor
  · intro hReaches
    cases hReaches with
    | here => exact .inl ⟨rfl, rfl⟩
    | later first rest => exact .inr ⟨_, _, first, rest⟩
  · intro hReaches
    cases hReaches with
    | inl hHere =>
        obtain ⟨rfl, rfl⟩ := hHere
        exact .here _ _ _
    | inr hLater =>
        obtain ⟨answer, middle, first, rest⟩ := hLater
        exact .later first rest

end Reaches

/-- Partial correctness with an obligation at every request: each request is
permitted in the state in which it is issued, and a complete execution ends in
the postcondition. -/
def Safe (step : Semantics I State) (permitted : State → I.Request → Prop) :
    Program I Result → (Result → State → Prop) → State → Prop
  | .done result, post, state => post result state
  | .call request next, post, state => permitted state request ∧
      ∀ answer after, step state request answer after → Safe step permitted (next answer) post after

section Safe

variable {permitted : State → I.Request → Prop} {post : Result → State → Prop}

@[simp] theorem safe_done (result : Result) (state : State) :
    Safe step permitted (.done result) post state ↔ post result state := Iff.rfl

/-- The rule for one request: it is permitted, and each answer leads to a safe rest. -/
theorem safe_call (request : I.Request) (next : I.Response request → Program I Result)
    (state : State) :
    Safe step permitted (.call request next) post state ↔ permitted state request ∧
      ∀ answer after, step state request answer after →
        Safe step permitted (next answer) post after := Iff.rfl

/-- A postcondition may be weakened. -/
theorem Safe.mono {weaker : Result → State → Prop} {program : Program I Result} {state : State}
    (safe : Safe step permitted program post state)
    (hPost : ∀ result after, post result after → weaker result after) :
    Safe step permitted program weaker state := by
  induction program generalizing state with
  | done result => exact hPost result state safe
  | call request next ih =>
      exact ⟨safe.1, fun answer after hStep => ih answer (safe.2 answer after hStep)⟩

/-- Obligations may be weakened. -/
theorem Safe.permit {weaker : State → I.Request → Prop} {program : Program I Result} {state : State}
    (safe : Safe step permitted program post state)
    (hPermit : ∀ state request, permitted state request → weaker state request) :
    Safe step weaker program post state := by
  induction program generalizing state with
  | done result => exact safe
  | call request next ih =>
      exact ⟨hPermit state request safe.1, fun answer after hStep => ih answer (safe.2 answer after hStep)⟩

/-- And exchanged for others that every request issued meets. -/
theorem Safe.permit_issued {weaker : State → I.Request → Prop} {allowed : I.Request → Prop}
    {program : Program I Result} {state : State} (safe : Safe step permitted program post state)
    (hIssues : program.Issues allowed)
    (hPermit : ∀ state request, allowed request → weaker state request) :
    Safe step weaker program post state := by
  induction program generalizing state with
  | done result => exact safe
  | call request next ih =>
      exact ⟨hPermit state request hIssues.1, fun answer after hStep =>
        ih answer (safe.2 answer after hStep) (hIssues.2 answer)⟩

/-- A sequence is safe exactly if its first part is, up to a safe second. -/
theorem safe_bind {program : Program I Result} {after : Result → Program I Next}
    {post : Next → State → Prop} {state : State} :
    Safe step permitted (program >>= after) post state ↔
      Safe step permitted program (fun result => Safe step permitted (after result) post) state := by
  induction program generalizing state with
  | done result => exact Iff.rfl
  | call request next ih =>
      simp only [call_bind, safe_call, ih]

/-- The same with an assertion in the middle. -/
theorem Safe.bind {program : Program I Result} {after : Result → Program I Next}
    {middle : Result → State → Prop} {post : Next → State → Prop} {state : State}
    (first : Safe step permitted program middle state)
    (rest : ∀ result state', middle result state' → Safe step permitted (after result) post state') :
    Safe step permitted (program >>= after) post state :=
  safe_bind.mpr (first.mono rest)

/-- A complete execution ends with a result that the program can end with. -/
theorem Safe.yields {good : Result → Prop} {program : Program I Result} {state : State}
    (safe : Safe step permitted program post state) (hYields : program.Yields good) :
    Safe step permitted program (fun result after => post result after ∧ good result) state := by
  induction program generalizing state with
  | done result => exact ⟨safe, hYields⟩
  | call request next ih =>
      exact ⟨safe.1, fun answer after hStep => ih answer (safe.2 answer after hStep) (hYields answer)⟩

/-- The obligations of `Safe` are exactly those met along every execution. -/
theorem safe_iff {program : Program I Result} {state : State} :
    Safe step permitted program post state ↔
      (∀ request middle, Reaches step program state request middle → permitted middle request) ∧
      (∀ result after, Exec step program state result after → post result after) := by
  induction program generalizing state with
  | done result =>
      constructor
      · intro h
        refine ⟨fun request middle hReaches => (nomatch hReaches), fun result' after hExec => ?_⟩
        cases hExec
        exact h
      · exact fun h => h.2 result state (.done result state)
  | call request next ih =>
      constructor
      · refine fun h => ⟨fun target middle hReaches => ?_, fun result after hExec => ?_⟩
        · cases hReaches with
          | here => exact h.1
          | later first rest => exact ((ih _).mp (h.2 _ _ first)).1 _ _ rest
        · cases hExec with
          | call first rest => exact ((ih _).mp (h.2 _ _ first)).2 _ _ rest
      · refine fun h => ⟨h.1 _ _ (.here request next state), fun answer after hStep => ?_⟩
        exact (ih answer).mpr ⟨fun target middle hReaches => h.1 _ _ (.later hStep hReaches),
          fun result last hExec => h.2 _ _ (.call hStep hExec)⟩

/-- Two arguments about one program may be made separately. -/
theorem Safe.and {permitted' : State → I.Request → Prop} {post' : Result → State → Prop}
    {program : Program I Result} {state : State} (first : Safe step permitted program post state)
    (second : Safe step permitted' program post' state) :
    Safe step (fun state request => permitted state request ∧ permitted' state request) program
      (fun result after => post result after ∧ post' result after) state := by
  induction program generalizing state with
  | done result => exact ⟨first, second⟩
  | call request next ih =>
      exact ⟨⟨first.1, second.1⟩, fun answer after hStep =>
        ih answer (first.2 answer after hStep) (second.2 answer after hStep)⟩

/-- Where a permitted request always has an answer, a safe program runs to its
end. -/
theorem Safe.exec {program : Program I Result} {state : State}
    (hTotal : ∀ state request, permitted state request →
      ∃ answer after, step state request answer after)
    (safe : Safe step permitted program post state) :
    ∃ result after, Exec step program state result after ∧ post result after := by
  induction program generalizing state with
  | done result => exact ⟨result, state, .done result state, safe⟩
  | call request next ih =>
      obtain ⟨answer, middle, first⟩ := hTotal state request safe.1
      obtain ⟨result, after, rest, hPost⟩ := ih answer (safe.2 answer middle first)
      exact ⟨result, after, .call first rest, hPost⟩

/-- An invariant kept by every request of a class holds throughout a program
that issues only requests of that class. -/
theorem Safe.of_issues {allowed : I.Request → Prop} {invariant : State → Prop}
    {program : Program I Result} (hIssues : program.Issues allowed)
    (hPermitted : ∀ state request, allowed request → invariant state → permitted state request)
    (hStep : ∀ before request answer after, allowed request → invariant before →
      step before request answer after → invariant after)
    {state : State} (hState : invariant state) :
    Safe step permitted program (fun _ => invariant) state := by
  induction program generalizing state with
  | done result => exact hState
  | call request next ih =>
      refine ⟨hPermitted state request hIssues.1 hState, fun answer after hTaken => ?_⟩
      exact ih answer (hIssues.2 answer) (hStep state request answer after hIssues.1 hState hTaken)

/-- Loop rule for a body run once for each item of a list. -/
theorem Safe.forM {Item : Type} {body : Item → Program I PUnit} {invariant : List Item → State → Prop}
    (hBody : ∀ item rest state, invariant (item :: rest) state →
      Safe step permitted (body item) (fun _ => invariant rest) state)
    (items : List Item) {state : State} (hState : invariant items state) :
    Safe step permitted (forM items body) (fun _ => invariant []) state := by
  induction items generalizing state with
  | nil => exact hState
  | cons item items ih =>
      rw [List.forM_cons]
      exact (hBody item items state hState).bind fun _ middle hMiddle => ih hMiddle

end Safe

/-- States in which the next round of `while (!stop) body` begins. Between two
rounds the rest of the system may move. -/
inductive LoopTop (step : Semantics I State) (body : Program I Bool) (between : State → State → Prop)
    (start : State → Prop) : State → Prop where
  | start {state : State} (hStart : start state) : LoopTop step body between start state
  | round {before after : State} (prior : LoopTop step body between start before)
      (run : Exec step body before false after) : LoopTop step body between start after
  | between {before after : State} (prior : LoopTop step body between start before)
      (move : between before after) : LoopTop step body between start after

/-- A request is issued in some round of the loop. -/
def LoopReaches (step : Semantics I State) (body : Program I Bool) (between : State → State → Prop)
    (start : State → Prop) (request : I.Request) (state : State) : Prop :=
  ∃ top, LoopTop step body between start top ∧ Reaches step body top request state

section Loop

variable {body : Program I Bool} {between : State → State → Prop} {start : State → Prop}
  {permitted : State → I.Request → Prop} {invariant : State → Prop}

/-- An invariant of the body holds at the top of every round. -/
theorem LoopTop.keeps (hStart : ∀ state, start state → invariant state)
    (hBetween : ∀ before after, invariant before → between before after → invariant after)
    (hBody : ∀ state, invariant state →
      Safe step permitted body (fun _ after => invariant after) state)
    {state : State} (top : LoopTop step body between start state) : invariant state := by
  induction top with
  | start hState => exact hStart _ hState
  | round _ run ih => exact (safe_iff.mp (hBody _ ih)).2 _ _ run
  | between _ move ih => exact hBetween _ _ ih move

/-- Invariant rule: what one round keeps and permits, every round of every run
permits. -/
theorem LoopReaches.allowed (invariant : State → Prop)
    (hStart : ∀ state, start state → invariant state)
    (hBetween : ∀ before after, invariant before → between before after → invariant after)
    (hBody : ∀ state, invariant state →
      Safe step permitted body (fun _ after => invariant after) state)
    {request : I.Request} {state : State}
    (reaches : LoopReaches step body between start request state) : permitted state request := by
  obtain ⟨top, hTop, hReaches⟩ := reaches
  exact (safe_iff.mp (hBody top (hTop.keeps hStart hBetween hBody))).1 _ _ hReaches

end Loop

end Program
end Interaction
