import WorkflowEngine.Services.Guarantees.Versions

/-!
# Ticks of the scheduler

What the calls of `runDue` that are in progress have read: the workflow that they work on
and those that are left.  A call reads them once and then works them off.
-/

namespace WorkflowEngine

open DocStore

variable {Val : Type}

/-- The tick that a job works off. -/
def JobState.tick? : JobState Val → Option (Tick Val)
  | .ready (.advance tick _) | .waiting (.slot tick) _ _ => some tick
  | _ => none

def Job.tick? (job : Job Val) : Option (Tick Val) := job.state.tick?

def Next.tick? : Next Val → Option (Tick Val)
  | .operation (.advance tick _) | .call _ (.slot tick) => some tick
  | _ => none

@[simp] theorem Next.tick?_state (goal : Next Val) (call : Nat) :
    (goal.state call).tick? = goal.tick? := by
  cases goal with
  | operation later => cases later <;> rfl
  | call op waiting => cases waiting <;> rfl
  | answer => rfl

theorem Next.answered_of_tick {goal : Next Val} {tick : Tick Val} {request : Request Val}
    (isTick : goal.tick? = some tick) : goal.answered request = [] := by
  cases goal with
  | answer => cases isTick
  | operation | call => rfl

/-- The due workflows that a tick has not moved on yet. -/
def Tick.dues (tick : Tick Val) : List (Due Val) := tick.due :: tick.rest

/-- A tick goes on with what it has read. -/
structure Tick.Continues (tick earlier : Tick Val) : Prop where
  current : tick.current = earlier.current
  seen : tick.seen = earlier.seen
  dues : ∀ due ∈ tick.dues, due ∈ earlier.dues

theorem Tick.Continues.refl (tick : Tick Val) : tick.Continues tick := ⟨rfl, rfl, fun _ => id⟩

/-- A tick has just read what is due. -/
structure Tick.Read (platform : Platform Val) (tick : Tick Val) : Prop where
  seen : tick.seen = platform.log.length
  dues : ∀ due ∈ tick.dues, due.workflow ∈ platform.workflows.values

/-- The ticks that are in progress. -/
def Platform.Ticking (platform : Platform Val) (tick : Tick Val) : Prop :=
  ∃ job ∈ platform.jobs, job.tick? = some tick

/-- The scheduler goes on to the next workflow that it has read. -/
theorem Platform.startNext_tick {current : Time} {started seen : Nat} {rest : List (Due Val)}
    {tick : Tick Val} (isTick : (startNext current started seen rest).tick? = some tick) :
    startNext current started seen rest =
        .call (.startExecution (slotParams tick.due)) (.slot tick) ∧
      tick.current = current ∧ tick.seen = seen ∧ tick.dues = rest := by
  cases rest with
  | nil => cases isTick
  | cons due rest =>
      cases isTick
      exact ⟨rfl, rfl, rfl, rfl⟩

theorem Waiting.threw_tick {waiting : Waiting Val} {thrown : ServiceError} {tick : Tick Val}
    (isTick : (waiting.threw thrown).tick? = some tick) : waiting = .slot tick := by
  cases waiting with
  | slot other =>
      cases isTick
      rfl
  | run =>
      simp only [Waiting.threw, Waiting.refused] at isTick
      split at isTick <;> cases isTick
  | control | resolve => cases isTick

theorem Waiting.resume_tick {waiting : Waiting Val} {reply : Reply Val} {tick : Tick Val}
    (isTick : (waiting.resume reply).tick? = some tick) :
    ∃ earlier, waiting = .slot earlier ∧ tick.Continues earlier ∧ tick.due = earlier.due := by
  have threw : ∀ {thrown}, (waiting.threw thrown).tick? = some tick →
      ∃ earlier, waiting = .slot earlier ∧ tick.Continues earlier ∧ tick.due = earlier.due :=
    fun isTick => ⟨tick, Waiting.threw_tick isTick, .refl tick, rfl⟩
  simp only [Waiting.resume] at isTick
  split at isTick
  case h_1 | h_8 => exact threw isTick
  case h_3 earlier _ _ =>
    cases isTick
    exact ⟨earlier, rfl, ⟨rfl, rfl, fun _ => id⟩, rfl⟩
  case h_4 | h_5 | h_6 =>
    simp only [Waiting.controlled] at isTick
    split at isTick <;> cases isTick
  all_goals cases isTick

variable [Mixed Val] [ToJson Val] {deployment : Deployment} {versions : Versions Val}
  {platform next : Platform Val}

omit [Mixed Val] in
theorem Platform.begin_tick {env : Env} {now : Time} {db : Db Val} {request : Request Val}
    {workflows final : Collection (WorkflowDocument Val)} {goal : Next Val}
    (performed : begin deployment env now workflows db request = (final, goal)) :
    goal.tick? = none := by
  cases request with
  | createWorkflow | listWorkflows | getWorkflow | setSchedule | clearSchedule | updateWorkflow
  | run | control | getExecution =>
      simp only [begin] at performed
      split at performed <;> cases performed <;> rfl
  | listApprovals =>
      cases performed
      simp only [require]
      split <;> rfl
  | getApproval =>
      cases performed
      simp only [require]
      split
      · split <;> rfl
      · rfl
  | resolve =>
      cases performed
      simp only [require]
      split
      · split
        · split <;> rfl
        · rfl
      · rfl
  | runDue =>
      cases performed
      rfl

omit [Mixed Val] in
/-- The tick that an operation goes on with. -/
theorem Platform.perform_tick {env : Env} {operation : Operation Val}
    {final : Collection (WorkflowDocument Val)} {goal : Next Val} {tick : Tick Val}
    (performed : perform deployment env platform.now platform.workflows platform.sys.db
      platform.log.length operation = (final, goal)) (isTick : goal.tick? = some tick) :
    goal = .call (.startExecution (slotParams tick.due)) (.slot tick) ∧
      ((∃ earlier lastError, operation = .advance earlier lastError ∧ tick.Continues earlier) ∨
        tick.Read platform ∧ final = platform.workflows) := by
  cases operation with
  | first request =>
      rw [begin_tick performed] at isTick
      cases isTick
  | replaceSchedule | explainConflict =>
      simp only [perform] at performed
      split at performed <;> cases performed <;> cases isTick
  | findExisting =>
      simp only [perform] at performed
      split at performed
      · split at performed <;> cases performed <;> cases isTick
      · cases performed
        cases isTick
  | rereadApproval =>
      simp only [perform] at performed
      split at performed <;> split at performed <;> cases performed <;> cases isTick
  | rereadExecution | findTasks | recordDecision =>
      cases performed
      cases isTick
  | findDue current =>
      simp only [perform] at performed
      split at performed
      · next found _ ran =>
        have isDue := findDue_ok ran
        cases performed
        rcases startNext_tick isTick with ⟨isCall, _, seen, dues⟩
        refine ⟨isCall, .inr ⟨⟨seen, ?_⟩, rfl⟩⟩
        intro due membership
        rw [dues] at membership
        rcases List.mem_map.mp membership with ⟨read, readMem, rfl⟩
        exact (isDue read readMem).1
      · cases performed
        cases isTick
  | advance earlier lastError =>
      simp only [perform] at performed
      split at performed
      · cases performed
        rcases startNext_tick isTick with ⟨isCall, current, seen, dues⟩
        refine ⟨isCall, .inl ⟨earlier, lastError, rfl, current, seen, ?_⟩⟩
        intro due membership
        rw [dues] at membership
        exact List.mem_cons_of_mem _ membership
      · cases performed
        cases isTick

/-- Where the ticks come from: a tick goes on with what it has read, or it has just read
what is due. -/
theorem Platform.Inv.ticking (inv : platform.Inv deployment versions)
    {action : Platform.Action Val} (moved : Moved deployment platform action next)
    {tick : Tick Val} (ticking : next.Ticking tick) :
    (∃ earlier, platform.Ticking earlier ∧ tick.Continues earlier) ∨
      (tick.Read platform ∧ next.workflows = platform.workflows ∧ next.log = platform.log) := by
  have old : ∀ {job : Job Val}, job ∈ platform.jobs → job.tick? = some tick →
      ∃ earlier, platform.Ticking earlier ∧ tick.Continues earlier :=
    fun membership isTick => ⟨tick, ⟨_, membership, isTick⟩, .refl tick⟩
  rcases ticking with ⟨job, membership, isTick⟩
  cases moved with
  | tick | invoked | crashed => exact .inl (old membership isTick)
  | submitted =>
      rcases List.mem_append.mp membership with before | new
      · exact .inl (old before isTick)
      · cases List.mem_singleton.mp new
        cases isTick
  | stopped found =>
      rcases mem_set_cases membership with rfl | ⟨_, _, isOther⟩
      · cases isTick
      · exact .inl (old (List.mem_of_getElem? isOther) isTick)
  | @went _ index request state workflows goal found goes =>
      rcases mem_set_cases membership with rfl | ⟨_, _, isOther⟩
      · rw [Job.tick?, Next.tick?_state] at isTick
        cases goes with
        | performed fresh performed =>
            rcases (perform_tick performed isTick).2 with
              ⟨earlier, lastError, rfl, continues⟩ | ⟨read, same⟩
            · exact .inl ⟨earlier, ⟨_, List.mem_of_getElem? found, rfl⟩, continues⟩
            · rw [Next.answered_of_tick isTick, List.nil_append]
              exact .inr ⟨read, same, rfl⟩
        | failed => cases isTick
        | @threw _ waiting _ _ =>
            cases Waiting.threw_tick isTick
            exact .inl ⟨tick, ⟨_, List.mem_of_getElem? found, rfl⟩, .refl tick⟩
      · exact .inl (old (List.mem_of_getElem? isOther) isTick)
  | @advanced call env sys fresh taken =>
      rcases inv.sys.stepped taken with ⟨label, stepped⟩
      have advanced : Advanced platform call sys label (platform.advanced call sys) :=
        advanced_cases inv.oneWaits stepped.log
      generalize platform.advanced call sys = next at advanced membership
      cases advanced with
      | idle => exact .inl (old membership isTick)
      | @pending index request waiting before found =>
          rcases mem_set_cases membership with rfl | ⟨_, _, isOther⟩
          · refine .inl ⟨tick, ⟨_, List.mem_of_getElem? found, ?_⟩, .refl tick⟩
            cases waiting with
            | slot => exact isTick
            | run | control | resolve => cases isTick
          · exact .inl (old (List.mem_of_getElem? isOther) isTick)
      | @resumed index request waiting before reply found ended isKnown =>
          rcases mem_set_cases membership with rfl | ⟨_, _, isOther⟩
          · rw [Job.tick?, Next.tick?_state] at isTick
            rcases Waiting.resume_tick isTick with ⟨earlier, rfl, continues, _⟩
            exact .inl ⟨earlier, ⟨_, List.mem_of_getElem? found, rfl⟩, continues⟩
          · exact .inl (old (List.mem_of_getElem? isOther) isTick)

end WorkflowEngine
