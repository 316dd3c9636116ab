import WorkflowEngine.Workflow.Frames

/-!
# Decisions find their task

The engine refuses a decision whose task no longer waits.  On a snapshot of a
committed database there is no such decision, so no call ever throws
APPROVAL_NOT_ACTIONABLE.
-/

namespace WorkflowEngine

open DocStore

variable {Val : Type} [Mixed Val]

section Snapshots

variable {env : Env} {db : Db Val}

/-- The task of a PENDING request is waiting for it. -/
theorem Db.Inv.waiting_of_pending (inv : db.Inv) {request : ApprovalRequest Val}
    (membership : request ∈ db.approvals.values) (pending : request.status = .pending) :
    ∃ task, db.tasks.findById request.taskId = some task ∧ task.status = .waitingForApproval := by
  rcases Collection.mem_ids.mp (inv.approvalHome request membership) with
    ⟨execution, executionMem, home⟩
  have inRun : request ∈ (db.runOf execution).approvals :=
    mem_runOf_approvals.mpr ⟨membership, home.symm⟩
  rcases (inv.runInv executionMem).inStep.agrees request inRun with ⟨task, taskMem, isTask, status⟩
  have found := inv.findById_task (mem_runOf_tasks.mp taskMem).1
  rw [isTask] at found
  exact ⟨task, found, by rw [status, pending]; rfl⟩

/-- On a committed snapshot `resolveApproval` never finds the task of a PENDING request
in another status. -/
theorem resolveApproval_actionable (inv : db.Inv) (params : ResolveParams) :
    (resolveApproval env params).run db ≠ .error .approvalNotActionable := by
  intro threw
  have keeps : KeepsKeyed (Session.findOneAndUpdate params.approvalId
      (recordDecision params env.now) : Txn Val (Option (ApprovalRequest Val))) :=
    .findOneAndUpdate
  rcases Session.bind_eq_error.mp threw with failed | ⟨found, middle, searched, threw'⟩
  · exact keeps.thrown inv.keyed failed rfl
  · have middleKeyed := keeps.final inv.keyed searched
    rcases Session.findOneAndUpdate_eq_ok inv.keyed.approvals searched with
      ⟨rfl, rfl⟩ | ⟨request, search, matched, rfl, rfl⟩
    · cases threw'
    · simp only at threw'
      rcases Session.bind_eq_error.mp threw' with failed | ⟨won, after, transitioned, rest⟩
      · exact transitionTask_keyed.thrown middleKeyed failed rfl
      · have requestMem := ((Collection.findById_eq_some inv.keyed.approvals).mp search).1
        simp only [recordDecision, Bool.and_eq_true, decide_eq_true_eq] at matched
        rcases inv.waiting_of_pending requestMem matched.1 with ⟨task, isTask, waiting⟩
        rcases transitionTask_ok middleKeyed.tasks transitioned with
          ⟨rfl, _, lost⟩ | ⟨rfl, _, _, _, _, _⟩
        · refine lost task isTask ?_ waiting
          split <;> rfl
        · have afterKeyed := transitionTask_keyed.final middleKeyed transitioned
          rw [if_pos rfl] at rest
          refine (Session.Preserves.bind .findById fun waiting => ?_ : KeepsKeyed _).thrown
            afterKeyed rest rfl
          cases waiting with
          | none => exact .throw (by simp)
          | some task =>
              exact .ite
                (.bind afterTaskSucceeded_keyed fun _ => .bind emit_keyed fun _ => .pure)
                (.bind afterTaskFailedForGood_keyed fun _ => .bind emit_keyed fun _ => .pure)

end Snapshots

/-- No operation on a committed snapshot throws APPROVAL_NOT_ACTIONABLE. -/
theorem Op.run_actionable {env : Env} {db : Db Val} (inv : db.Inv) (op : Op Val) :
    (op.run env).run db ≠ .error .approvalNotActionable := by
  have clean : ∀ {session : Txn Val (Reply Val)}, KeepsKeyed session →
      session.run db ≠ .error .approvalNotActionable :=
    fun keeps threw => keeps.thrown inv.keyed threw rfl
  cases op with
  | startExecution => exact clean (.bind startExecution_keyed fun _ => .pure)
  | pauseExecution => exact clean (.bind pauseExecution_keyed fun _ => .pure)
  | resumeExecution => exact clean (.bind resumeExecution_keyed fun _ => .pure)
  | cancelExecution => exact clean (.bind cancelExecution_keyed fun _ => .pure)
  | completeTask => exact clean (.bind completeTask_keyed fun _ => .pure)
  | failTask => exact clean (.bind failTask_keyed fun _ => .pure)
  | suspendForApproval => exact clean (.bind suspendForApproval_keyed fun _ => .pure)
  | resolveApproval params =>
      intro threw
      rcases Session.bind_eq_error.mp threw with threw' | ⟨_, _, _, threw'⟩
      · exact resolveApproval_actionable inv params threw'
      · cases threw'

/-- No step of a call throws APPROVAL_NOT_ACTIONABLE. -/
theorem Frame.step_actionable {env : Env} {db : Db Val} {frame : Frame Val} (inv : db.Inv)
    (ok : frame.Ok db) : frame.step env db ≠ .error .approvalNotActionable := by
  -- a frame that runs one statement and then returns
  have single : ∀ {α : Type} {session : Txn Val α} {next : α × Db Val → Outcome Val},
      KeepsKeyed session →
      (session.run db >>= fun ran => .ok (next ran)) ≠ .error .approvalNotActionable := by
    intro α session next keeps threw
    rcases Session.error_of_bind threw with threw' | ⟨_, _, threw'⟩
    · exact keeps.thrown inv.keyed threw' rfl
    · cases threw'
  intro threw
  cases frame with
  | callback op snapshot =>
      rcases Session.error_of_bind threw with threw' | ⟨_, _, threw'⟩
      · exact op.run_actionable ok.1 threw'
      · simp only at threw'
        split at threw' <;> cases threw'
  | startTask taskId workerId =>
      rcases Session.error_of_bind threw with threw' | ⟨_, _, threw'⟩
      · exact Db.claimTask_keyed.thrown inv.keyed threw' rfl
      · simp only at threw'
        split at threw' <;> cases threw'
  | renewLease => exact single Db.renewTaskLease_keyed threw
  | dispatchTask => exact single transitionTask_keyed threw
  | abandonAttempts task =>
      have keeps : KeepsKeyed (Session.updateMany (abandonment task env.now) : Txn Val Nat) :=
        .updateMany
      exact single keeps threw
  | recordAttempt task workerId =>
      have keeps : KeepsKeyed (Session.create .duplicateKey (newAttempt task workerId env.now) :
          Txn Val Unit) := .create nofun
      exact single keeps threw
  | announce => exact single emit_keyed threw
  | dispatchReady =>
      simp only [step] at threw
      split at threw <;> cases threw
  | checkBudget =>
      simp only [step] at threw
      split at threw <;> cases threw
  | redispatch stuck =>
      cases stuck with
      | nil => cases threw
      | cons taskId rest =>
          simp only [step] at threw
          split at threw
          · cases threw
          · split at threw <;> cases threw
  | _ => cases threw

end WorkflowEngine
