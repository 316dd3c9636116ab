import WorkflowEngine.Foundations.Layers
import WorkflowEngine.Workflow.DagValid

/-!
# The waves of Kahn's algorithm

The waves are levels: a task is in the wave just above its highest dependency.
Inside a wave the tasks stand by the dependency that was completed last, and only
then by their place in the input.
-/

namespace WorkflowEngine

open Precedence

/-- `depth` is the number of tasks on a longest dependency chain that ends at `key`. -/
abbrev TaskDepth (tasks : List DagTask) : Key → Nat → Prop :=
  Depth (Needs tasks) (· ∈ tasks.map (·.key))

/-- A dependency chain of tasks. -/
abbrev TaskChain (tasks : List DagTask) : List Key → Prop :=
  Chain (Needs tasks) (· ∈ tasks.map (·.key))

namespace Kahn

variable {tasks : List DagTask} {degree : KeyMap Int} {done queue wave next : List Key}

theorem Inv.needs_done (inv : Inv tasks degree done queue) {key dep : Key} (emitted : key ∈ done ++ queue)
    (needed : Needs tasks key dep) : dep ∈ done := by
  rcases needed with ⟨task, membership, rfl, isDep⟩
  exact (inv.emitted task membership).mp emitted dep isDep

/-- A task of the next wave depends on a task of this one. -/
theorem Inv.needs_wave (inv : Inv tasks degree done wave)
    (after : Inv tasks next_degree (done ++ wave) next) {key : Key} (isNext : key ∈ next) :
    ∃ dep ∈ wave, Needs tasks key dep := by
  rcases List.mem_map.mp (after.keys key (List.mem_append_right _ isNext)) with
    ⟨task, membership, rfl⟩
  have allDone := (after.emitted task membership).mp (List.mem_append_right _ isNext)
  have notBefore : task.key ∉ done ++ wave := by
    intro before
    exact (List.nodup_append.mp after.nodup).2.2 _ before _ isNext rfl
  by_contra none
  apply notBefore
  apply (inv.emitted task membership).mpr
  intro dep isDep
  rcases List.mem_append.mp (allDone dep isDep) with isDone | inWave
  · exact isDone
  · exact absurd ⟨dep, inWave, task, membership, rfl, isDep⟩ none

/-- The waves stand on the levels emitted before them. -/
theorem waves_layered (keys_nodup : (tasks.map (·.key)).Nodup) (fuel : Nat)
    {levels : List (List Key)} (layered : Layered (Needs tasks) levels)
    (inv : Inv tasks degree levels.flatten wave)
    (support : ∀ lower, levels.getLast? = some lower → ∀ key ∈ wave,
      ∃ dep ∈ lower, Needs tasks key dep) :
    Layered (Needs tasks) (levels ++ waves (children tasks) fuel degree wave) := by
  induction fuel generalizing levels degree wave with
  | zero =>
      rw [waves, List.append_nil]
      exact layered
  | succ fuel ih =>
      by_cases nonempty : wave = []
      · rw [nonempty, waves_nil, List.append_nil]
        exact layered
      · have after := inv_pass keys_nodup inv
        have more : Layered (Needs tasks) (levels ++ [wave]) := by
          apply layered.snoc nonempty inv.nodup _ support
          intro key isKey dep needed
          exact inv.needs_done (List.mem_append_right _ isKey) needed
        rw [waves_cons _ _ _ nonempty, ← List.singleton_append, ← List.append_assoc]
        apply ih more
        · simpa using after
        · intro lower isLast key isNext
          rw [List.getLast?_concat] at isLast
          cases Option.some.inj isLast
          exact inv.needs_wave after isNext

/-! ## The order inside a wave -/

/-- No dependency of `key` in the wave comes after all those of `other`. -/
def NoLater (tasks : List DagTask) (wave : List Key) (key other : Key) : Prop :=
  ∀ dep ∈ wave, Needs tasks key dep →
    ∃ last ∈ wave, Needs tasks other last ∧ (dep = last ∨ Before wave dep last)

/-- How two tasks that are released by one wave follow each other: the last
dependency of the second is completed later, or at the same time and the second
comes later in the input. -/
def Released (tasks : List DagTask) (wave : List Key) (key other : Key) : Prop :=
  (∃ last ∈ wave, Needs tasks other last ∧
    ∀ dep ∈ wave, Needs tasks key dep → Before wave dep last) ∨
  NoLater tasks wave key other ∧ Before (tasks.map (·.key)) key other

theorem Released.noLater {key other : Key} (released : Released tasks wave key other) :
    NoLater tasks wave key other := by
  rcases released with ⟨last, isLast, needed, later⟩ | ⟨noLater, _⟩
  · intro dep isDep needsDep
    exact ⟨last, isLast, needed, .inr (later dep isDep needsDep)⟩
  · exact noLater

/-- Completing one more task first. -/
theorem Released.cons {head key other : Key} (released : Released tasks wave key other)
    (supported : ∃ dep ∈ wave, Needs tasks other dep) :
    Released tasks (head :: wave) key other := by
  rcases released with ⟨last, isLast, needed, later⟩ | ⟨noLater, before⟩
  · refine .inl ⟨last, List.mem_cons_of_mem _ isLast, needed, ?_⟩
    intro dep isDep needsDep
    rw [Before.cons_iff]
    rcases List.mem_cons.mp isDep with rfl | inRest
    · exact .inl ⟨rfl, isLast⟩
    · exact .inr (later dep inRest needsDep)
  · refine .inr ⟨?_, before⟩
    intro dep isDep needsDep
    rcases List.mem_cons.mp isDep with rfl | inRest
    · rcases supported with ⟨last, isLast, needed⟩
      exact ⟨last, List.mem_cons_of_mem _ isLast, needed,
        .inr (Before.cons_iff.mpr (.inl ⟨rfl, isLast⟩))⟩
    · rcases noLater dep inRest needsDep with ⟨last, isLast, needed, same | earlier⟩
      · exact ⟨last, List.mem_cons_of_mem _ isLast, needed, .inl same⟩
      · exact ⟨last, List.mem_cons_of_mem _ isLast, needed,
          .inr (Before.cons_iff.mpr (.inr earlier))⟩

/-- What completing the tasks of a wave appends to the next one. -/
theorem completeWave_released (keys_nodup : (tasks.map (·.key)).Nodup)
    (deps_nodup : ∀ task ∈ tasks, task.deps.Nodup) (wave next : List Key)
    (inv : Inv tasks degree done (wave ++ next)) :
    ∃ added, (wave.foldl (fun state key => (children tasks key).foldl release state)
        (degree, next)).2 = next ++ added ∧ added.Pairwise (Released tasks wave) ∧
      ∀ child ∈ added, ∃ dep ∈ wave, Needs tasks child dep := by
  induction wave generalizing degree done next with
  | nil => exact ⟨[], by simp, .nil, nofun⟩
  | cons key rest ih =>
      rcases process_added keys_nodup next inv with ⟨first, next_eq, sublist, _, mem_first⟩
      rw [children_eq deps_nodup] at sublist
      have inOrder : first.Sublist (tasks.map (·.key)) :=
        sublist.trans (List.filter_sublist.map _)
      have processed := inv_process keys_nodup rest next inv
      rcases ih _ processed with ⟨others, others_eq, pairwise, supported⟩
      have needsKey : ∀ child ∈ first, Needs tasks child key := by
        intro child isFirst
        rcases (mem_first child).mp isFirst with ⟨task, membership, rfl, isDep, _⟩
        exact ⟨task, membership, rfl, isDep⟩
      -- the children released with `key` have no later dependency in the wave
      have lastIsKey : ∀ child ∈ first, ∀ dep ∈ key :: rest, Needs tasks child dep →
          dep = key := by
        intro child isFirst dep isDep needed
        rcases (mem_first child).mp isFirst with ⟨task, membership, rfl, _, allDone⟩
        have isDone := allDone dep ((needs_key keys_nodup membership).mp needed)
        rcases List.mem_cons.mp isDep with isKey | inRest
        · exact isKey
        · exact absurd rfl ((List.nodup_append.mp processed.nodup).2.2 dep isDone dep
            (List.mem_append_left _ inRest))
      refine ⟨first ++ others, ?_, ?_, ?_⟩
      · rw [List.foldl_cons, ← List.append_assoc, ← next_eq]
        exact others_eq
      · apply List.pairwise_append.mpr
        refine ⟨?_, ?_, ?_⟩
        · apply List.pairwise_iff_forall_sublist.mpr
          intro child other before
          refine .inr ⟨?_, before.trans inOrder⟩
          intro dep isDep needed
          have isOther : other ∈ first := Before.mem_right before
          exact ⟨key, List.mem_cons_self, needsKey other isOther,
            .inl (lastIsKey child (Before.mem_left before) dep isDep needed)⟩
        · apply pairwise.imp_of_mem
          intro child other _ isOther released
          exact released.cons (supported other isOther)
        · intro child isFirst other isOther
          rcases supported other isOther with ⟨last, isLast, needed⟩
          refine .inl ⟨last, List.mem_cons_of_mem _ isLast, needed, ?_⟩
          intro dep isDep needsDep
          exact Before.cons_iff.mpr (.inl ⟨lastIsKey child isFirst dep isDep needsDep, isLast⟩)
      · intro child isAdded
        rcases List.mem_append.mp isAdded with isFirst | isOther
        · exact ⟨key, List.mem_cons_self, needsKey child isFirst⟩
        · rcases supported child isOther with ⟨dep, isDep, needed⟩
          exact ⟨dep, List.mem_cons_of_mem _ isDep, needed⟩

/-- A wave that consists of tasks in the order of their release follows the input
exactly when no earlier task of the input is released later. -/
theorem follows_input_iff (keys_nodup : (tasks.map (·.key)).Nodup) (distinct : next.Nodup)
    (subset : next ⊆ tasks.map (·.key)) (released : next.Pairwise (Released tasks wave))
    (waveNodup : wave.Nodup) :
    next.Sublist (tasks.map (·.key)) ↔ ∀ key ∈ next, ∀ other ∈ next,
      Before (tasks.map (·.key)) key other → NoLater tasks wave key other := by
  rw [List.pairwise_iff_forall_sublist] at released
  rw [Before.sublist_iff keys_nodup subset distinct]
  constructor
  · intro follows key isKey other isOther before
    have different : key ≠ other := by
      rintro rfl
      exact before.asymm keys_nodup before
    rcases Before.total isKey isOther different with inNext | back
    · exact (released inNext).noLater
    · exact absurd before ((follows other key back).asymm keys_nodup)
  · intro noLater key other before
    rcases released before with ⟨last, isLast, needed, later⟩ | ⟨_, follows⟩
    · have different : key ≠ other := by
        rintro rfl
        exact before.asymm distinct before
      rcases Before.total (subset before.mem_left) (subset before.mem_right) different with
        follows | back
      · exact follows
      · -- `other` would have to be released no later than `key`
        rcases noLater other before.mem_right key before.mem_left back last isLast needed with
          ⟨final, isFinal, needsFinal, same | after⟩
        · subst same
          exact absurd (later last isFinal needsFinal)
            ((later last isFinal needsFinal).asymm waveNodup)
        · exact absurd after ((later final isFinal needsFinal).asymm waveNodup)
    · exact follows

theorem waves_head {fuel : Nat} {level : List Key}
    (found : (waves (children tasks) fuel degree wave)[0]? = some level) : level = wave := by
  cases fuel with
  | zero => cases found
  | succ fuel =>
      cases wave with
      | nil => cases found
      | cons key rest => exact (Option.some.inj found).symm

/-- Every wave consists of tasks in the order in which the wave below releases them. -/
theorem waves_released (keys_nodup : (tasks.map (·.key)).Nodup)
    (deps_nodup : ∀ task ∈ tasks, task.deps.Nodup) (fuel : Nat)
    (inv : Inv tasks degree done wave) {i : Nat} {lower upper : List Key}
    (isLower : (waves (children tasks) fuel degree wave)[i]? = some lower)
    (isUpper : (waves (children tasks) fuel degree wave)[i + 1]? = some upper) :
    upper.Pairwise (Released tasks lower) := by
  induction fuel generalizing degree done wave i with
  | zero => cases isLower
  | succ fuel ih =>
      by_cases nonempty : wave = []
      · rw [nonempty, waves_nil] at isLower
        cases isLower
      · rw [waves_cons _ _ _ nonempty] at isLower isUpper
        rw [List.getElem?_cons_succ] at isUpper
        cases i with
        | zero =>
            cases Option.some.inj isLower
            rw [waves_head isUpper]
            rcases completeWave_released keys_nodup deps_nodup lower []
              (by rwa [List.append_nil]) with ⟨added, next_eq, pairwise, _⟩
            rw [List.nil_append] at next_eq
            rwa [completeWave, next_eq]
        | succ i =>
            rw [List.getElem?_cons_succ] at isLower
            exact ih (inv_pass keys_nodup inv) isLower isUpper

end Kahn

section Levels

variable {tasks : List DagTask}

theorem kahn_layered (keys_nodup : (tasks.map (·.key)).Nodup) :
    Layered (Needs tasks) (kahn tasks).levels := by
  have layered := Kahn.waves_layered keys_nodup tasks.length Layered.nil
    (Kahn.inv_init keys_nodup) nofun
  simpa [kahn] using layered

theorem kahn_released (keys_nodup : (tasks.map (·.key)).Nodup)
    (deps_nodup : ∀ task ∈ tasks, task.deps.Nodup) {i : Nat} {lower upper : List Key}
    (isLower : (kahn tasks).levels[i]? = some lower)
    (isUpper : (kahn tasks).levels[i + 1]? = some upper) :
    upper.Pairwise (Kahn.Released tasks lower) :=
  Kahn.waves_released keys_nodup deps_nodup tasks.length (Kahn.inv_init keys_nodup) isLower isUpper

/-- The first wave is taken from the input. -/
theorem kahn_first_sublist {level : List Key} (found : (kahn tasks).levels[0]? = some level) :
    level.Sublist (tasks.map (·.key)) := by
  rw [Kahn.waves_head found]
  exact List.filter_sublist.map _

end Levels

end WorkflowEngine
