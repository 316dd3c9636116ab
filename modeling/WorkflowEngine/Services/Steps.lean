import WorkflowEngine.Services.Known
import WorkflowEngine.Workflow.Provenance

/-!
# Steps of the platform

What each action does to the platform.  At most one job goes on in a step, either by an
operation of its own or because the call of the engine that it waits for has ended.
-/

namespace WorkflowEngine

open DocStore

variable {Val : Type}

namespace Next

/-- The state of the job; `call` is the next call of the engine. -/
def state (call : Nat) : Next Val → JobState Val
  | .operation first => .ready first
  | .call _ waiting => .waiting waiting call none
  | .answer _ => .ended

def answered (request : Request Val) : Next Val → List (Answered Val)
  | .answer result => [⟨request, result⟩]
  | _ => []

/-- The engine with the call that is made. -/
def calling (sys : Sys Val) : Next Val → Sys Val
  | .call op _ => { sys with calls := sys.calls ++ [[.transaction op]] }
  | _ => sys

@[simp] theorem calling_db (sys : Sys Val) (next : Next Val) : (next.calling sys).db = sys.db := by
  cases next <;> rfl

theorem calling_calls (sys : Sys Val) (next : Next Val) :
    ∃ more, (next.calling sys).calls = sys.calls ++ more := by
  cases next with
  | operation | answer => exact ⟨[], (List.append_nil _).symm⟩
  | call op => exact ⟨[[.transaction op]], rfl⟩

end Next

/-- The call of the engine that a job waits for. -/
def Job.call? (job : Job Val) : Option Nat :=
  match job.state with
  | .waiting _ call _ => some call
  | _ => none

/-- A job that waits for the engine never calls it right away again. -/
theorem Waiting.resume_ne_call {waiting later : Waiting Val} {reply : Reply Val} {op : Op Val} :
    waiting.resume reply ≠ .call op later := by
  have threw : ∀ (waiting : Waiting Val) thrown, waiting.threw thrown ≠ .call op later := by
    intro waiting thrown calls
    cases waiting with
    | run user workflowId input idempotencyKey =>
        simp only [Waiting.threw, Waiting.refused] at calls
        split at calls <;> cases calls
    | _ => cases calls
  intro calls
  simp only [Waiting.resume] at calls
  split at calls
  case h_4 | h_5 | h_6 =>
    simp only [Waiting.controlled] at calls
    split at calls <;> cases calls
  case h_1 | h_8 => exact threw _ _ calls
  all_goals cases calls

namespace Platform

section Steps

variable [Mixed Val] [ToJson Val] {deployment : Deployment} {platform next : Platform Val}

omit [ToJson Val] in
theorem settle_eq {index : Nat} {request : Request Val} {goal : Next Val} :
    settle platform index request goal = some
      { platform with
        sys := goal.calling platform.sys
        jobs := platform.jobs.set index ⟨request, goal.state platform.sys.calls.length⟩
        log := goal.answered request ++ platform.log } := by
  cases goal <;> rfl

/-- How a job goes on by itself: it performs an operation, or an operation throws. -/
inductive Goes (deployment : Deployment) (platform : Platform Val) (index : Nat) :
    Action Val → JobState Val → Collection (WorkflowDocument Val) → Next Val → Prop where
  | performed {env : Env} {operation : Operation Val}
      {workflows : Collection (WorkflowDocument Val)} {goal : Next Val} :
      env.objectId ∉ platform.workflows.ids →
      perform deployment env platform.now platform.workflows platform.sys.db platform.log.length
        operation = (workflows, goal) →
      Goes deployment platform index (.perform index env) (.ready operation) workflows goal
  | failed {message : String} {operation : Operation Val} :
      Goes deployment platform index (.fail index message) (.ready operation) platform.workflows
        (.answer (.error (.store message)))
  | threw {message : String} {waiting : Waiting Val} {call : Nat} {reply : Option (Reply Val)} :
      Goes deployment platform index (.fail index message) (.waiting waiting call reply)
        platform.workflows (waiting.threw (.store message))

/-- What a step of the platform does. -/
inductive Moved (deployment : Deployment) (platform : Platform Val) :
    Action Val → Platform Val → Prop where
  | tick {ms : Nat} :
      Moved deployment platform (.tick ms) { platform with now := platform.now + ms }
  | submitted {request : Request Val} :
      Moved deployment platform (.submit request)
        { platform with jobs := platform.jobs ++ [⟨request, .ready (.first request)⟩] }
  | went {action : Action Val} {index : Nat} {request : Request Val} {state : JobState Val}
      {workflows : Collection (WorkflowDocument Val)} {goal : Next Val} :
      platform.jobs[index]? = some ⟨request, state⟩ →
      Goes deployment platform index action state workflows goal →
      Moved deployment platform action
        { platform with
          sys := goal.calling platform.sys
          workflows
          jobs := platform.jobs.set index ⟨request, goal.state platform.sys.calls.length⟩
          log := goal.answered request ++ platform.log }
  | stopped {index : Nat} {job : Job Val} :
      platform.jobs[index]? = some job →
      Moved deployment platform (.stop index)
        { platform with jobs := platform.jobs.set index ⟨job.request, .ended⟩ }
  | invoked {frame : Frame Val} {sys : Sys Val} :
      startsRun frame = false → platform.sys.step (.invoke frame) = some sys →
      Moved deployment platform (.invoke frame) { platform with sys }
  | crashed {call : Nat} {sys : Sys Val} :
      platform.sys.step (.crash call) = some sys →
      Moved deployment platform (.crash call) { platform with sys }
  | advanced {call : Nat} {env : Env} {sys : Sys Val} :
      platform.drawsFresh call env = true →
      platform.sys.step (.advance call env) = some sys →
      Moved deployment platform (.advance call env) (platform.advanced call sys)

theorem moved_of_step {action : Action Val} (taken : step deployment platform action = some next) :
    Moved deployment platform action next := by
  cases action with
  | tick ms =>
      cases taken
      exact .tick
  | submit request =>
      cases taken
      exact .submitted
  | perform index env =>
      simp only [step] at taken
      split at taken
      · next found =>
        split at taken
        · cases taken
        · next fresh =>
          rw [settle_eq] at taken
          cases taken
          refine .went found (.performed ?_ rfl)
          intro present
          exact fresh (List.contains_iff_mem.mpr present)
      · cases taken
  | fail index message =>
      simp only [step] at taken
      split at taken
      · next found =>
        rw [settle_eq] at taken
        cases taken
        exact .went found .failed
      · next found =>
        rw [settle_eq] at taken
        cases taken
        exact .went found .threw
      · cases taken
  | stop index =>
      rcases Option.map_eq_some_iff.mp taken with ⟨job, found, rfl⟩
      exact .stopped found
  | invoke frame =>
      simp only [step] at taken
      split at taken
      · cases taken
      · next other =>
        rcases Option.map_eq_some_iff.mp taken with ⟨sys, stepped, rfl⟩
        exact .invoked (Bool.not_eq_true _ ▸ other) stepped
  | advance call env =>
      simp only [step] at taken
      split at taken
      · next fresh =>
        rcases Option.map_eq_some_iff.mp taken with ⟨sys, stepped, rfl⟩
        exact .advanced fresh stepped
      · cases taken
  | crash call =>
      simp only [step] at taken
      rcases Option.map_eq_some_iff.mp taken with ⟨sys, stepped, rfl⟩
      exact .crashed stepped

end Steps

/-! ## A step of the engine -/

/-- No two jobs wait for one call. -/
def OneWaits (jobs : List (Job Val)) : Prop :=
  ∀ (left right : Nat) (leftJob rightJob : Job Val) (call : Nat), jobs[left]? = some leftJob →
    jobs[right]? = some rightJob → leftJob.call? = some call → rightJob.call? = some call →
      left = right

/-- A function that changes one element at most. -/
theorem map_eq_set {α : Type} {list : List α} {index : Nat} {element : α} {change : α → α}
    (found : list[index]? = some element)
    (others : ∀ other found, other ≠ index → list[other]? = some found → change found = found) :
    list.map change = list.set index (change element) := by
  apply List.ext_getElem?
  intro other
  rw [List.getElem?_map, List.getElem?_set]
  split
  · next same =>
    rw [← same, found, if_pos (List.getElem?_eq_some_iff.mp found).1]
    rfl
  · next different =>
    cases search : list[other]? with
    | none => rfl
    | some present =>
        rw [Option.map_some, others other present (fun same => different same.symm) search]

theorem flatMap_eq_single {α β : Type} {list : List α} {index : Nat} {element : α}
    {results : α → List β} (found : list[index]? = some element)
    (others : ∀ other found, other ≠ index → list[other]? = some found → results found = []) :
    list.flatMap results = results element := by
  induction list generalizing index with
  | nil => cases found
  | cons head rest ih =>
      cases index with
      | zero =>
          cases found
          have nothing : rest.flatMap results = [] := by
            apply List.flatMap_eq_nil_iff.mpr
            intro other membership
            rcases List.getElem?_of_mem membership with ⟨position, present⟩
            exact others (position + 1) other (Nat.succ_ne_zero _) present
          rw [List.flatMap_cons, nothing, List.append_nil]
      | succ index =>
          rw [List.flatMap_cons, others 0 head (Nat.succ_ne_zero _).symm rfl, List.nil_append]
          apply ih found
          intro other present different search
          exact others (other + 1) present (fun same => different (Nat.succ.inj same)) search

/-- What a job knows after a step that has given this reply. -/
def known (label before : Option (Reply Val)) : Option (Reply Val) :=
  (label.filter Reply.returns).orElse fun _ => before

/-- The platform after a step of a call of the engine. -/
inductive Advanced (platform : Platform Val) (call : Nat) (sys : Sys Val)
    (label : Option (Reply Val)) : Platform Val → Prop where
  | idle :
      (∀ job ∈ platform.jobs, job.call? ≠ some call) →
      Advanced platform call sys label { platform with sys }
  | pending {index : Nat} {request : Request Val} {waiting : Waiting Val}
      {before : Option (Reply Val)} :
      platform.jobs[index]? = some ⟨request, .waiting waiting call before⟩ →
      Advanced platform call sys label
        { platform with
          sys
          jobs := platform.jobs.set index
            ⟨request, .waiting waiting call (known label before)⟩ }
  | resumed {index : Nat} {request : Request Val} {waiting : Waiting Val}
      {before : Option (Reply Val)} {reply : Reply Val} :
      platform.jobs[index]? = some ⟨request, .waiting waiting call before⟩ →
      sys.calls[call]? = some [] → known label before = some reply →
      Advanced platform call sys label
        { platform with
          sys
          jobs := platform.jobs.set index ⟨request, (waiting.resume reply).state 0⟩
          log := (waiting.resume reply).answered request ++ platform.log }

theorem Job.resumed_other {job : Job Val} {call : Nat} {reply : Option (Reply Val)} {ended : Bool}
    (other : job.call? ≠ some call) : Job.resumed call reply ended job = (job, []) := by
  rcases job with ⟨request, state⟩
  cases state with
  | waiting waiting pending before =>
      simp only [Job.resumed]
      rw [if_neg]
      intro same
      exact other (congrArg some same)
  | ready | ended => rfl

/-- The reply of a step, if the caller acts upon it. -/
theorem find_returns {sys next : Sys Val} {label : Option (Reply Val)}
    (log : next.log = label.toList ++ sys.log) :
    (next.log.take (next.log.length - sys.log.length)).find? Reply.returns =
      label.filter Reply.returns := by
  have replies : next.log.take (next.log.length - sys.log.length) = label.toList := by
    rw [log, List.length_append, Nat.add_sub_cancel]
    exact List.take_left
  rw [replies]
  cases label with
  | none => rfl
  | some reply =>
      rw [Option.toList_some, List.find?_cons, Option.filter_some]
      cases reply.returns <;> rfl

/-- The job that waits for a call, after a step of the call. -/
theorem advanced_job {platform : Platform Val} {call : Nat} {sys : Sys Val}
    {label before : Option (Reply Val)}
    {index : Nat} {request : Request Val} {waiting : Waiting Val}
    (log : sys.log = label.toList ++ platform.sys.log)
    (found : platform.jobs[index]? = some ⟨request, .waiting waiting call before⟩) :
    (platform.advanced call sys).jobs[index]? = some
      (match sys.calls[call]?.any List.isEmpty, known label before with
      | true, some reply => ⟨request, (waiting.resume reply).state 0⟩
      | _, reply => ⟨request, .waiting waiting call reply⟩) := by
  have isKnown : Option.orElse (label.filter Reply.returns) (fun _ => before) =
      known label before := rfl
  simp only [Platform.advanced, find_returns log, List.getElem?_map, found, Option.map_some,
    Job.resumed, if_true, isKnown]
  congr 1
  cases sys.calls[call]?.any List.isEmpty with
  | false => rfl
  | true =>
      cases known label before with
      | none => rfl
      | some reply =>
          simp only
          cases goes : waiting.resume reply with
          | operation | answer => rfl
          | call => exact absurd goes Waiting.resume_ne_call

theorem advanced_cases (oneWaits : OneWaits platform.jobs) {call : Nat} {sys : Sys Val}
    {label : Option (Reply Val)} (log : sys.log = label.toList ++ platform.sys.log) :
    Advanced platform call sys label (platform.advanced call sys) := by
  simp only [Platform.advanced, find_returns log]
  by_cases waits : ∃ job ∈ platform.jobs, job.call? = some call
  · rcases waits with ⟨job, jobMem, isCall⟩
    rcases List.getElem?_of_mem jobMem with ⟨index, found⟩
    have others : ∀ other present, other ≠ index → platform.jobs[other]? = some present →
        Job.resumed call (label.filter Reply.returns) (sys.calls[call]?.any List.isEmpty) present =
          (present, []) := by
      intro other present different search
      apply Job.resumed_other
      intro same
      exact different (oneWaits other index present job call search found same isCall)
    rw [List.map_map, List.flatMap_map, map_eq_set found, flatMap_eq_single found]
    · rcases job with ⟨request, state⟩
      cases state with
      | ready | ended => cases isCall
      | waiting waiting pending before =>
          cases isCall
          have isKnown : Option.orElse (label.filter Reply.returns) (fun _ => before) =
              known label before := rfl
          simp only [Function.comp_apply, Job.resumed, if_true, isKnown]
          split
          · next reply ended isReply =>
            rcases Option.any_eq_true _ _ |>.mp ended with ⟨stack, isStack, empty⟩
            rw [List.isEmpty_iff.mp empty] at isStack
            split
            · next goes =>
              have moved : Advanced platform call sys label _ := .resumed found isStack isReply
              rw [goes] at moved
              exact moved
            · next goes =>
              have moved : Advanced platform call sys label _ := .resumed found isStack isReply
              rw [goes] at moved
              exact moved
            · next goes => exact absurd goes Waiting.resume_ne_call
          · exact .pending found
    · intro other present different search
      rw [others other present different search]
    · intro other present different search
      rw [Function.comp_apply, others other present different search]
  · have others : ∀ job ∈ platform.jobs, job.call? ≠ some call := by
      intro job jobMem isCall
      exact waits ⟨job, jobMem, isCall⟩
    have unmoved : platform.jobs.map (Job.resumed call (label.filter Reply.returns)
        (sys.calls[call]?.any List.isEmpty)) = platform.jobs.map fun job => (job, []) := by
      apply List.map_congr_left
      intro job jobMem
      exact Job.resumed_other (others job jobMem)
    have same : (platform.jobs.map fun job => (job, ([] : List (Answered Val)))).map Prod.fst =
        platform.jobs := by
      rw [List.map_map]
      exact List.map_id _
    have silent : (platform.jobs.map fun job => (job, ([] : List (Answered Val)))).flatMap Prod.snd =
        [] := by
      rw [List.flatMap_map]
      exact List.flatMap_eq_nil_iff.mpr fun _ _ => rfl
    rw [unmoved, same, silent, List.nil_append]
    exact .idle others

end Platform

end WorkflowEngine
