import WorkflowEngine.Workflow.DagSearch

/-!
# The cycle that is reported

Among the tasks that Kahn's algorithm leaves over the search always finds a cycle.
-/

namespace WorkflowEngine

open Precedence FindCycle

section Cycles

variable {tasks : List DagTask}

/-- Leftovers of Kahn's algorithm are not all free of cycles. -/
theorem leftovers_not_sorted (nodup : (tasks.map (·.key)).Nodup)
    (known : ∀ task ∈ tasks, ∀ dep ∈ task.deps, dep ∈ tasks.map (·.key))
    (left : (kahn tasks).unprocessed ≠ []) {all : List Key} (sorted : Sorted (Needs tasks) all) :
    ¬ ∀ key ∈ (kahn tasks).unprocessed, key ∈ all := by
  intro covered
  rcases List.exists_mem_of_ne_nil _ left with ⟨start, isStart⟩
  rcases sorted.ranks_idxOf.exists_first (· ∈ (kahn tasks).unprocessed) covered isStart with
    ⟨key, isLeft, none⟩
  rcases unprocessed_needs nodup known isLeft with ⟨dep, depLeft, needed⟩
  exact none dep needed depLeft

/-- A cycle along dependencies read backwards runs in execution direction. -/
theorem FindCycle.IsCycle.reversed {found : List Key} (isCycle : IsCycle tasks found) :
    ∃ first rest, found.reverse = first :: rest ++ [first] ∧ 2 ≤ (first :: rest).length ∧
      (first :: rest).Nodup ∧ found.reverse.IsChain fun key next => Needs tasks next key := by
  rcases isCycle with ⟨first, rest, rfl, nonempty, nodup, linked⟩
  refine ⟨first, rest.reverse, by simp, ?_, ?_, List.isChain_reverse.mpr linked⟩
  · have positive := List.length_pos_of_ne_nil nonempty
    rw [List.length_cons, List.length_reverse]
    omega
  · rw [List.nodup_cons] at nodup ⊢
    exact ⟨fun again => nodup.1 (List.mem_reverse.mp again), List.nodup_reverse.mpr nodup.2⟩

/-- `findCycle` on the leftovers of Kahn's algorithm: a closed path of distinct tasks
in execution direction, found by the search itself under every bound on its
recursion that exceeds the number of tasks. -/
theorem findCycle_reports (nodup : (tasks.map (·.key)).Nodup)
    (known : ∀ task ∈ tasks, ∀ dep ∈ task.deps, dep ∈ tasks.map (·.key))
    (noSelf : ∀ task ∈ tasks, task.key ∉ task.deps) (left : (kahn tasks).unprocessed ≠ []) :
    (∃ first rest, findCycle tasks (kahn tasks).unprocessed = first :: rest ++ [first] ∧
      2 ≤ (first :: rest).length ∧ (first :: rest).Nodup ∧
      (findCycle tasks (kahn tasks).unprocessed).IsChain
        fun key next => Needs tasks next key) ∧
    ∀ fuel, tasks.length < fuel →
      fromCandidates (depsOf tasks) fuel (kahn tasks).unprocessed ⟨allWhite tasks, []⟩ =
        some (findCycle tasks (kahn tasks).unprocessed).reverse := by
  have within : ∀ fuel, tasks.length < fuel → WhiteWithin ⟨allWhite tasks, []⟩ fuel := by
    intro fuel enough
    rcases whiteWithin_start with ⟨keys, length, white⟩
    exact ⟨keys, by omega, white⟩
  have answers := fromCandidates_answers
    (fun _ dep ⟨task, membership, _, isDep⟩ => known task membership dep isDep)
    (fun _ ⟨task, membership, isKey, isDep⟩ => noSelf task membership (isKey ▸ isDep))
    nodup (tasks.length + 1) (kahn tasks).unprocessed
    (fun key isLeft => (mem_unprocessed.mp isLeft).1) inv_start
    (within _ (Nat.lt_succ_self _)) rfl
  cases search : fromCandidates (depsOf tasks) (tasks.length + 1) (kahn tasks).unprocessed
      ⟨allWhite tasks, []⟩ with
  | none =>
      rw [search] at answers
      rcases answers with ⟨all, sorted, _, covered⟩
      exact absurd covered (leftovers_not_sorted nodup known left sorted)
  | some found =>
      rw [search] at answers
      have reported : findCycle tasks (kahn tasks).unprocessed = found.reverse := by
        rw [findCycle_eq, search]
      rw [reported]
      refine ⟨answers.reversed, ?_⟩
      intro fuel enough
      rw [List.reverse_reverse, ← search]
      exact fromCandidates_fuel _ _ (within _ enough) (within _ (Nat.lt_succ_self _))

end Cycles

/-- A cycle behind a valid beginning, and a task behind the cycle. -/
def hiddenCycle : List DagTask :=
  [⟨"A", none⟩, ⟨"B", some ["A", "C"]⟩, ⟨"C", some ["B"]⟩, ⟨"D", some ["C"]⟩]

theorem findCycle_reports_hidden :
    (kahn hiddenCycle).unprocessed = ["B", "C", "D"] ∧
      ∃ first rest, findCycle hiddenCycle (kahn hiddenCycle).unprocessed =
          first :: rest ++ [first] ∧
        2 ≤ (first :: rest).length := by
  have left : (kahn hiddenCycle).unprocessed = ["B", "C", "D"] := by decide +kernel
  refine ⟨left, ?_⟩
  have nonempty : (kahn hiddenCycle).unprocessed ≠ [] := by
    rw [left]
    exact List.cons_ne_nil _ _
  rcases (findCycle_reports (by decide) (by decide) (by decide) nonempty).1 with
    ⟨first, rest, closed, long, _⟩
  exact ⟨first, rest, closed, long⟩

end WorkflowEngine
