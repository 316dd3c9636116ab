import WorkflowEngine.Workflow.DagErrors

/-!
# What validation answers

`validateDag` accepts exactly the well-formed acyclic task lists, reports every
structural fault once, and reports a cycle only when nothing else is wrong.
-/

namespace WorkflowEngine

open Precedence

/-- Distinct keys, dependencies on other tasks of the list, none listed twice. -/
structure WellFormed (tasks : List DagTask) : Prop where
  keys_nodup : (tasks.map (·.key)).Nodup
  others : ∀ (i : Nat) (task : DagTask), tasks[i]? = some task → ∀ dep ∈ task.deps,
    ∃ (j : Nat) (other : DagTask), j ≠ i ∧ tasks[j]? = some other ∧ other.key = dep
  deps_nodup : ∀ task ∈ tasks, task.deps.Nodup

/-- No task depends on itself, directly or through others. -/
def Acyclic (tasks : List DagTask) : Prop :=
  ∀ key, ¬ Relation.TransGen (Needs tasks) key key

section Validation

variable {tasks : List DagTask}

theorem structuralErrors_eq_nil_iff : structuralErrors tasks = [] ↔ WellFormed tasks := by
  rw [structuralErrors_eq_nil]
  constructor
  · rintro ⟨keys_nodup, dependencies⟩
    refine ⟨keys_nodup, ?_, fun task membership => (dependencies task membership).1⟩
    intro i task found dep isDep
    rcases (dependencies task (List.mem_of_getElem? found)).2 dep isDep with ⟨different, known⟩
    rcases List.mem_map.mp known with ⟨other, otherMem, rfl⟩
    rcases List.mem_iff_getElem?.mp otherMem with ⟨j, isOther⟩
    refine ⟨j, other, ?_, isOther, rfl⟩
    rintro rfl
    rw [found] at isOther
    exact different (congrArg DagTask.key (Option.some.inj isOther)).symm
  · intro wellFormed
    refine ⟨wellFormed.keys_nodup, fun task membership =>
      ⟨wellFormed.deps_nodup task membership, ?_⟩⟩
    intro dep isDep
    rcases List.mem_iff_getElem?.mp membership with ⟨i, found⟩
    rcases wellFormed.others i task found dep isDep with ⟨j, other, different, isOther, rfl⟩
    refine ⟨?_, List.mem_map_of_mem (List.mem_of_getElem? isOther)⟩
    intro same
    have bound : j < (tasks.map (·.key)).length := by
      rw [List.length_map]
      exact (List.getElem?_eq_some_iff.mp isOther).1
    apply different
    apply (List.getElem?_inj bound wellFormed.keys_nodup).mp
    rw [List.getElem?_map, List.getElem?_map, isOther, found, Option.map_some, Option.map_some,
      same]

/-- Kahn's algorithm leaves a task of a well-formed list exactly when there is a
cycle. -/
theorem unprocessed_eq_nil_iff (wellFormed : WellFormed tasks) :
    (kahn tasks).unprocessed = [] ↔ Acyclic tasks := by
  have structural := structuralErrors_eq_nil_iff.mpr wellFormed
  constructor
  · intro processed key
    rcases validateDag_sound (accepted_iff.mpr ⟨structural, processed⟩) with ⟨_, _, _, rank, ranks⟩
    intro loop
    have isKey : ∀ key dep, Needs tasks key dep → key ∈ tasks.map (·.key) := by
      rintro _ dep ⟨task, membership, rfl, _⟩
      exact List.mem_map_of_mem membership
    exact absurd (ranks.lt_of_transGen isKey loop) (Nat.lt_irrefl _)
  · intro acyclic
    by_contra left
    rcases List.exists_mem_of_ne_nil _ left with ⟨start, isStart⟩
    have closed : ∀ key ∈ (kahn tasks).unprocessed,
        ∃ dep ∈ (kahn tasks).unprocessed, Needs tasks key dep := by
      intro key isLeft
      apply unprocessed_needs wellFormed.keys_nodup _ isLeft
      intro task membership dep isDep
      exact (((structuralErrors_eq_nil.mp structural).2 task membership).2 dep isDep).2
    rcases exists_transGen_self isStart closed with ⟨key, loop⟩
    exact acyclic key loop

/-- Validation is sound, complete and exact. -/
theorem validateDag_exact (tasks : List DagTask) :
    ((validateDag tasks).valid = true ↔ WellFormed tasks ∧ Acyclic tasks) ∧
    (¬ WellFormed tasks →
      (∃ faults : List Fault, faults.Nodup ∧ (∀ fault, fault ∈ faults ↔ fault.Occurs tasks) ∧
        (validateDag tasks).errors = faults.map Fault.error) ∧
      ∀ error ∈ (validateDag tasks).errors, error.code ≠ .cycle) ∧
    (WellFormed tasks → ¬ Acyclic tasks →
      ∃ error, (validateDag tasks).errors = [error] ∧ error.code = .cycle) ∧
    ((validateDag tasks).valid = false →
      (validateDag tasks).order = [] ∧ (validateDag tasks).levels = []) := by
  refine ⟨?_, ?_, ?_, ?_⟩
  · rw [accepted_iff, structuralErrors_eq_nil_iff]
    exact and_congr_right unprocessed_eq_nil_iff
  · intro malformed
    have broken : structuralErrors tasks ≠ [] := fun none =>
      malformed (structuralErrors_eq_nil_iff.mp none)
    have errors : (validateDag tasks).errors = structuralErrors tasks := by
      simp [validateDag, broken]
    rw [errors, structuralErrors_eq]
    refine ⟨⟨Fault.all tasks, Fault.all_nodup tasks, fun fault => Fault.mem_all, rfl⟩, ?_⟩
    intro error reported
    rcases List.mem_map.mp reported with ⟨fault, _, rfl⟩
    exact fault.error_code_ne_cycle
  · intro wellFormed cyclic
    have structural := structuralErrors_eq_nil_iff.mpr wellFormed
    have left : (kahn tasks).unprocessed ≠ [] := fun processed =>
      cyclic ((unprocessed_eq_nil_iff wellFormed).mp processed)
    simp [validateDag, structural, left]
  · intro refused
    by_cases structural : structuralErrors tasks = []
    · by_cases processed : (kahn tasks).unprocessed = []
      · rw [validateDag_eq structural processed] at refused
        cases refused
      · simp [validateDag, structural, processed]
    · simp [validateDag, structural]

end Validation

end WorkflowEngine
