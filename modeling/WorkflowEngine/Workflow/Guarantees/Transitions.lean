import WorkflowEngine.Workflow.History
import WorkflowEngine.Workflow.Run.Paths

/-!
# Status changes

Most commits change statuses without consulting the transition tables.  Every change
they make is a path of the tables all the same, and final statuses stay.
-/

namespace WorkflowEngine

open DocStore

variable {Val : Type}

variable [Mixed Val]

/-- Every status of the first database moves along its table to the second one. -/
structure Db.MovesLegally (db next : Db Val) : Prop where
  tasks : ∀ task ∈ db.tasks.values, ∃ later ∈ next.tasks.values, later.id = task.id ∧
    Machine.task.Path task.status later.status
  executions : ∀ execution ∈ db.executions.values, ∃ later ∈ next.executions.values,
    later.id = execution.id ∧ Machine.execution.Path execution.status later.status

/-- Final statuses of the first database are those of the second one.  FAILED is final
for a committed task: the commit that dead-letters it passes through FAILED. -/
structure Db.KeepsFinal (db later : Db Val) : Prop where
  tasks : ∀ task ∈ db.tasks.values,
    isTerminal .task task.status = true ∨ task.status = .failed →
      ∃ now ∈ later.tasks.values, now.id = task.id ∧ now.status = task.status
  executions : ∀ execution ∈ db.executions.values,
    isTerminal .execution execution.status = true →
      ∃ now ∈ later.executions.values, now.id = execution.id ∧ now.status = execution.status

theorem Sys.Stepped.movesLegally {sys next : Sys Val} {action : Action Val}
    {label : Option (Reply Val)} (stepped : sys.Stepped action next label) :
    sys.db.MovesLegally next.db := by
  have inv := stepped.inv.db
  constructor
  · intro task membership
    rcases stepped.moves membership with ⟨later, laterMem, isTask, ⟨rfl, _⟩ | ⟨moved, _⟩⟩
    · exact ⟨later, laterMem, rfl, .refl _⟩
    · exact ⟨later, laterMem, isTask, moved.path⟩
  · intro execution membership
    rcases stepped.advances.forward inv membership with ⟨later, laterMem, laterId, ⟨_, same⟩ | ran⟩
    · have isExecution : later = execution := congrArg Run.execution same
      exact ⟨later, laterMem, laterId, isExecution ▸ .refl _⟩
    · exact ⟨later, laterMem, laterId, ran.path⟩

theorem Db.KeepsFinal.of_path {db : Db Val} (inv : db.Inv) {later : Db Val}
    (since : Db.Since db later)
    (executions : ∀ execution ∈ db.executions.values, ∃ now ∈ later.executions.values,
      now.id = execution.id ∧ Machine.execution.Path execution.status now.status) :
    db.KeepsFinal later := by
  constructor
  · intro task membership final
    rcases since.task inv membership with ⟨now, nowMem, evolves⟩
    have finished : task.status.unfinished = false := by
      cases status : task.status <;> rw [status] at final <;>
        first | rfl | (rcases final with terminal | failed <;> contradiction)
    exact ⟨now, nowMem, evolves.id_eq, (evolves.final finished).1⟩
  · intro execution membership terminal
    rcases executions execution membership with ⟨now, nowMem, isId, path⟩
    exact ⟨now, nowMem, isId, path.eq_of_isTerminal terminal⟩

/-- From a reachable state, statuses only move along the tables. -/
theorem Sys.executions_path {sys later : Sys Val} (leads : (engineSystem Val).Leads sys later)
    (inv : sys.Inv) :
    ∀ execution ∈ sys.db.executions.values, ∃ now ∈ later.db.executions.values,
      now.id = execution.id ∧ Machine.execution.Path execution.status now.status := by
  induction leads with
  | refl => exact fun execution membership => ⟨execution, membership, rfl, .refl _⟩
  | @tail middle next leads taken ih =>
      rcases taken with ⟨action, taken⟩
      rcases (since_of_leads leads inv).1.stepped taken with ⟨label, stepped⟩
      intro execution membership
      rcases ih execution membership with ⟨now, nowMem, isId, path⟩
      rcases stepped.movesLegally.executions now nowMem with ⟨last, lastMem, lastId, last_path⟩
      exact ⟨last, lastMem, lastId.trans isId, path.trans last_path⟩

/-- Every step of the system moves the statuses of tasks and executions along the
transition tables, and whatever follows a reachable state keeps its final statuses. -/
theorem legal_transitions {sys : Sys Val} (reachable : (engineSystem Val).Reachable sys) :
    (∀ action next, sys.step action = some next → sys.db.MovesLegally next.db) ∧
      ∀ later, (engineSystem Val).Leads sys later → sys.db.KeepsFinal later.db := by
  have inv := Sys.inv_of_reachableBy reachable
  constructor
  · intro action next taken
    rcases inv.stepped taken with ⟨label, stepped⟩
    exact stepped.movesLegally
  · intro later leads
    exact .of_path inv.db (Sys.since_of_leads leads inv).2 (Sys.executions_path leads inv)

namespace Schedule

/-- The only task is started, its worker vanishes and another one takes it over. -/
def replaced : List (Action Plain) :=
  oneStarted ++ .invoke (.startTask ⟨2, "A"⟩ "v") :: steps 2 [200, 201, 202]

end Schedule

theorem legal_transitions_replaced :
    ((Schedule.after Schedule.replaced (by decide)).step (.crash 2)).isSome = true ∧
    ∀ action next, (Schedule.after Schedule.replaced (by decide)).step action = some next →
      (Schedule.after Schedule.replaced (by decide)).db.MovesLegally next.db :=
  ⟨by decide, (legal_transitions (Schedule.after_reachable Schedule.replaced (by decide))).1⟩

end WorkflowEngine
