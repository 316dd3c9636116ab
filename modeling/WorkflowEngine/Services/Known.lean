import WorkflowEngine.Services.Edits

/-!
# Versions of a workflow

A version of a workflow names one definition: whoever read a workflow from the store knows
the definition of the version that it read, whatever happens to the workflow later.
-/

namespace WorkflowEngine

open DocStore

variable {Val : Type}

/-- What every version of every workflow has been. -/
abbrev Versions (Val : Type) := ObjectId → Nat → List (TaskDefinition Val)

/-- A definition that was read from the store. -/
structure Known (versions : Versions Val) (workflows : Collection (WorkflowDocument Val))
    (workflow : Workflow Val) : Prop where
  tasks : versions workflow.id workflow.version = workflow.tasks
  stored : ∃ stored ∈ workflows.values, stored.id = workflow.id ∧
    stored.ownerId = workflow.ownerId ∧ workflow.version ≤ stored.version

/-- Every stored workflow is at a version that names its definition. -/
def Consistent (versions : Versions Val) (workflows : Collection (WorkflowDocument Val)) : Prop :=
  ∀ workflow ∈ workflows.values, versions workflow.id workflow.version = workflow.tasks

theorem Consistent.known {versions : Versions Val} {workflows : Collection (WorkflowDocument Val)}
    (consistent : Consistent versions workflows) {workflow : WorkflowDocument Val}
    (membership : workflow ∈ workflows.values) : Known versions workflows workflow.toWorkflow :=
  ⟨consistent workflow membership, workflow, membership, rfl, rfl, Nat.le_refl _⟩

/-- The later collection knows what the earlier one knew. -/
structure Learns (versions : Versions Val) (workflows : Collection (WorkflowDocument Val))
    (versions' : Versions Val) (workflows' : Collection (WorkflowDocument Val)) : Prop where
  nodup : workflows'.ids.Nodup
  consistent : Consistent versions' workflows'
  known : ∀ workflow, Known versions workflows workflow → Known versions' workflows' workflow

namespace Learns

variable {versions : Versions Val} {workflows : Collection (WorkflowDocument Val)}

variable (nodup : workflows.ids.Nodup) (consistent : Consistent versions workflows)
include nodup consistent

theorem refl : Learns versions workflows versions workflows :=
  ⟨nodup, consistent, fun _ known => known⟩

/-- An update that leaves owners, versions and definitions alone. -/
theorem unedited {update : Update (WorkflowDocument Val)}
    (same : ∀ workflow, (update.set workflow).toWorkflow = workflow.toWorkflow) :
    Learns versions workflows versions (workflows.updateMany update) := by
  have unchanged : ∀ workflow, (update.onValue workflow).toWorkflow = workflow.toWorkflow := by
    intro workflow
    unfold Update.onValue
    split
    · exact same workflow
    · rfl
  refine ⟨?_, ?_, ?_⟩
  · rw [Collection.ids_updateMany]
    exact nodup
  · intro workflow membership
    rw [Collection.values_updateMany] at membership
    rcases List.mem_map.mp membership with ⟨stored, storedMem, rfl⟩
    rw [unchanged]
    exact consistent stored storedMem
  · intro workflow known
    rcases known.stored with ⟨stored, storedMem, isId, owner, older⟩
    refine ⟨known.tasks, update.onValue stored, ?_, ?_⟩
    · rw [Collection.values_updateMany]
      exact List.mem_map_of_mem storedMem
    · rw [unchanged]
      exact ⟨isId, owner, older⟩

/-- A new workflow. -/
theorem created {workflow : WorkflowDocument Val} (fresh : workflow.id ∉ workflows.ids) :
    ∃ versions', Learns versions workflows versions' (workflows ++ [⟨0, workflow⟩]) := by
  have apart : ∀ stored ∈ workflows.values, stored.id ≠ workflow.id := by
    intro stored storedMem same
    exact fresh (Collection.mem_ids.mpr ⟨stored, storedMem, same⟩)
  have values : (workflows ++ [⟨0, workflow⟩] : Collection (WorkflowDocument Val)).values =
      workflows.values ++ [workflow] := by
    rw [Collection.values, List.map_append]
    rfl
  refine ⟨fun id version => if id = workflow.id then workflow.tasks else versions id version,
    ?_, ?_, ?_⟩
  · rw [Collection.ids, List.map_append]
    exact List.nodup_append_comm.mp (List.nodup_cons.mpr ⟨fresh, nodup⟩)
  · intro stored storedMem
    rw [values] at storedMem
    rcases List.mem_append.mp storedMem with old | new
    · exact (if_neg (apart stored old)).trans (consistent stored old)
    · rw [List.mem_singleton.mp new]
      exact if_pos rfl
  · intro known isKnown
    rcases isKnown.stored with ⟨stored, storedMem, isId, owner, older⟩
    refine ⟨?_, stored, ?_, isId, owner, older⟩
    · exact (if_neg (isId ▸ apart stored storedMem)).trans isKnown.tasks
    · rw [values]
      exact List.mem_append_left _ storedMem

/-- A definition is replaced, under the next version. -/
theorem replaced {user : User} {id : ObjectId} {version : Nat} {body : DefinitionBody Val}
    {stored : WorkflowDocument Val} (found : workflows.findById id = some stored)
    (current : stored.version = version) :
    ∃ versions', Learns versions workflows versions'
      (workflows.updateMany ((replacement user version body).only id)) := by
  have search := (Collection.findById_eq_some nodup).mp found
  have only : ∀ other ∈ workflows.values, other.id = id → other = stored := by
    intro other otherMem isId
    exact Collection.value_eq_of_id_eq nodup otherMem search.1 (isId.trans search.2.symm)
  have elsewhere : ∀ other : WorkflowDocument Val, other.id ≠ id →
      ((replacement user version body).only id).onValue other = other := by
    intro other different
    apply if_neg
    intro matched
    exact different (Update.id_of_only matched)
  refine ⟨fun id' version' => if id' = id ∧ version' = version + 1 then body.tasks
    else versions id' version', ?_, ?_, ?_⟩
  · rw [Collection.ids_updateMany]
    exact nodup
  · intro workflow membership
    rw [Collection.values_updateMany] at membership
    rcases List.mem_map.mp membership with ⟨other, otherMem, rfl⟩
    by_cases isId : other.id = id
    · cases only other otherMem isId
      unfold Update.onValue
      split
      · have isNext : ((replacement user version body).set stored).version = version + 1 := by
          rw [← current]
          rfl
        exact if_pos ⟨isId, isNext⟩
      · have old : ¬ (stored.id = id ∧ stored.version = version + 1) := by omega
        exact (if_neg old).trans (consistent stored otherMem)
    · rw [elsewhere other isId]
      have old : ¬ (other.id = id ∧ other.version = version + 1) := fun both => isId both.1
      exact (if_neg old).trans (consistent other otherMem)
  · intro known isKnown
    rcases isKnown.stored with ⟨other, otherMem, isId, owner, older⟩
    refine ⟨?_, ((replacement user version body).only id).onValue other, ?_, ?_⟩
    · have old : ¬ (known.id = id ∧ known.version = version + 1) := by
        rintro ⟨sameId, next⟩
        cases only other otherMem (isId.trans sameId)
        omega
      exact (if_neg old).trans isKnown.tasks
    · rw [Collection.values_updateMany]
      exact List.mem_map_of_mem otherMem
    · unfold Update.onValue
      split
      · exact ⟨isId, owner, Nat.le_succ_of_le older⟩
      · exact ⟨isId, owner, older⟩

end Learns

/-- The workflows after an operation of a job. -/
theorem Edited.learns {deployment : Deployment} {env : Env} {versions : Versions Val}
    {workflows final : Collection (WorkflowDocument Val)} {operation : Operation Val}
    {next : Next Val} (edited : Edited deployment env workflows operation final next)
    (nodup : workflows.ids.Nodup) (consistent : Consistent versions workflows) :
    ∃ versions', Learns versions workflows versions' final := by
  cases edited with
  | nothing => exact ⟨versions, .refl nodup consistent⟩
  | created fresh => exact Learns.created nodup consistent fresh
  | scheduled => exact ⟨versions, .unedited nodup consistent fun _ => rfl⟩
  | cleared => exact ⟨versions, .unedited nodup consistent fun _ => rfl⟩
  | replaced found _ current _ => exact Learns.replaced nodup consistent found current
  | advanced => exact ⟨versions, .unedited nodup consistent fun _ => rfl⟩

end WorkflowEngine
