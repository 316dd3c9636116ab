import Mathlib.Data.List.Perm.Subperm
import WorkflowEngine.Foundations.Counting
import WorkflowEngine.Foundations.Precedence
import WorkflowEngine.Workflow.Dag

/-!
# What an accepted task graph is

`validateDag` accepts a list of tasks only when the keys are distinct, every
dependency is a known key listed once, and the dependencies can be ranked.  The
rank comes from an invariant of Kahn's algorithm that is kept for every task it
processes.
-/

namespace WorkflowEngine

open Precedence Counting

/-- `key` lists `dep` in its `dependsOn`. -/
def Needs (tasks : List DagTask) (key dep : Key) : Prop :=
  ∃ task ∈ tasks, task.key = key ∧ dep ∈ task.deps

/-- The task lists an engine can run. -/
structure DagValid (tasks : List DagTask) : Prop where
  keys_nodup : (tasks.map (·.key)).Nodup
  known : ∀ task ∈ tasks, ∀ dep ∈ task.deps, dep ∈ tasks.map (·.key)
  deps_nodup : ∀ task ∈ tasks, task.deps.Nodup
  acyclic : ∃ rank, Ranks (Needs tasks) (· ∈ tasks.map (·.key)) rank

/-! ## Structural checks -/

theorem duplicateKeyErrors_eq_nil {seen : List Key} {tasks : List DagTask} :
    duplicateKeyErrors seen tasks = [] ↔
      (tasks.map (·.key)).Nodup ∧ ∀ task ∈ tasks, task.key ∉ seen := by
  induction tasks generalizing seen with
  | nil => simp [duplicateKeyErrors]
  | cons task rest ih =>
      simp only [duplicateKeyErrors, List.append_eq_nil_iff, ih, List.map_cons,
        List.nodup_cons, List.mem_cons, forall_eq_or_imp, not_or]
      constructor
      · intro both
        have new : task.key ∉ seen := by
          by_contra repeated
          simp [repeated] at both
        refine ⟨⟨?_, both.2.1⟩, new, fun other membership => (both.2.2 other membership).2⟩
        intro repeated
        rcases List.mem_map.mp repeated with ⟨other, membership, same⟩
        exact (both.2.2 other membership).1 same
      · intro both
        refine ⟨by simp [both.2.1], both.1.2, fun other membership => ⟨?_, both.2.2 other membership⟩⟩
        intro same
        exact both.1.1 (List.mem_map.mpr ⟨other, membership, same⟩)

theorem dependencyErrors_eq_nil {seen : List Key} {key : Key} {counted deps : List Key} :
    dependencyErrors seen key counted deps = [] ↔
      deps.Nodup ∧ ∀ dep ∈ deps, dep ≠ key ∧ dep ∈ seen ∧ dep ∉ counted := by
  induction deps generalizing counted with
  | nil => simp [dependencyErrors]
  | cons dep rest ih =>
      simp only [dependencyErrors, List.append_eq_nil_iff, ih, List.nodup_cons,
        List.mem_cons, forall_eq_or_imp, not_or]
      constructor
      · rintro ⟨⟨first, second⟩, nodup, others⟩
        have notKey : dep ≠ key := by
          intro same
          simp [same] at first
        have isSeen : dep ∈ seen := by
          by_contra unknown
          simp [notKey, unknown] at first
        have new : dep ∉ counted := by
          intro repeated
          simp [repeated] at second
        exact ⟨⟨fun again => (others dep again).2.2.1 rfl, nodup⟩, ⟨notKey, isSeen, new⟩,
          fun other membership =>
            ⟨(others other membership).1, (others other membership).2.1,
              (others other membership).2.2.2⟩⟩
      · rintro ⟨⟨absent, nodup⟩, ⟨notKey, isSeen, new⟩, others⟩
        refine ⟨⟨by simp [notKey, isSeen], by simp [new]⟩, nodup, ?_⟩
        intro other membership
        refine ⟨(others other membership).1, (others other membership).2.1, ?_,
          (others other membership).2.2⟩
        intro same
        exact absent (same ▸ membership)

theorem structuralErrors_eq_nil {tasks : List DagTask} :
    structuralErrors tasks = [] ↔
      (tasks.map (·.key)).Nodup ∧ ∀ task ∈ tasks, task.deps.Nodup ∧
        ∀ dep ∈ task.deps, dep ≠ task.key ∧ dep ∈ tasks.map (·.key) := by
  simp only [structuralErrors, List.append_eq_nil_iff, duplicateKeyErrors_eq_nil,
    List.flatMap_eq_nil_iff, dependencyErrors_eq_nil, List.not_mem_nil, not_false_eq_true,
    implies_true, and_true]

/-! ## The maps Kahn's algorithm reads -/

/-- A map filled from a list with distinct keys. -/
theorem foldl_set_of_mem {α β : Type} (keyOf : α → Key) (valueOf : α → β) {items : List α}
    (nodup : (items.map keyOf).Nodup) (map : KeyMap β) {item : α} (membership : item ∈ items) :
    items.foldl (fun map item => map.set (keyOf item) (valueOf item)) map (keyOf item) =
      valueOf item := by
  induction items generalizing map with
  | nil => cases membership
  | cons head rest ih =>
      rw [List.map_cons, List.nodup_cons] at nodup
      rw [List.foldl_cons]
      by_cases inRest : item ∈ rest
      · exact ih nodup.2 _ inRest
      · rcases List.mem_cons.mp membership with rfl | again
        · -- the later items have other keys
          have untouched : ∀ (others : List α) (map : KeyMap β),
              keyOf item ∉ others.map keyOf →
                others.foldl (fun map item => map.set (keyOf item) (valueOf item)) map
                  (keyOf item) = map (keyOf item) := by
            intro others
            induction others with
            | nil => intro map _; rfl
            | cons other others ihOthers =>
                intro map absent
                rw [List.map_cons, List.mem_cons, not_or] at absent
                rw [List.foldl_cons, ihOthers _ absent.2, KeyMap.set_of_ne _ _ absent.1]
          rw [untouched rest _ nodup.1, KeyMap.set_self]
        · exact absurd again inRest

/-- Entering one task's key under each of its dependencies. -/
theorem foldl_register (deps : List Key) (key dep : Key) (map : KeyMap (List Key)) :
    deps.foldl (fun map dep => map.set dep (map dep ++ [key])) map dep =
      map dep ++ List.replicate (deps.count dep) key := by
  induction deps generalizing map with
  | nil => simp
  | cons head rest ih =>
      rw [List.foldl_cons, ih]
      by_cases same : head = dep
      · subst same
        rw [KeyMap.set_self, List.count_cons_self, List.replicate_succ, List.append_assoc,
          List.singleton_append]
      · rw [KeyMap.set_of_ne _ _ (Ne.symm same), List.count_cons_of_ne same]

/-- The keys registered under `dep`, in task order. -/
theorem foldl_registerAll {α : Type} (keyOf : α → Key) (depsOf : α → List Key)
    (items : List α) (dep : Key) (map : KeyMap (List Key)) :
    items.foldl
        (fun map item => (depsOf item).foldl
          (fun map dep => map.set dep (map dep ++ [keyOf item])) map) map dep =
      map dep ++ items.flatMap fun item => List.replicate ((depsOf item).count dep) (keyOf item) := by
  induction items generalizing map with
  | nil => simp
  | cons head rest ih =>
      rw [List.foldl_cons, ih, foldl_register, List.flatMap_cons, List.append_assoc]

/-- With no repeated dependency every child is registered once. -/
theorem flatMap_replicate_count {α : Type} (keyOf : α → Key) (depsOf : α → List Key)
    {items : List α} (nodup : ∀ item ∈ items, (depsOf item).Nodup) (dep : Key) :
    (items.flatMap fun item => List.replicate ((depsOf item).count dep) (keyOf item)) =
      (items.filter fun item => decide (dep ∈ depsOf item)).map keyOf := by
  induction items with
  | nil => rfl
  | cons head rest ih =>
      rw [List.flatMap_cons, ih fun item membership => nodup item (List.mem_cons_of_mem _ membership)]
      by_cases isDep : dep ∈ depsOf head
      · rw [List.count_eq_one_of_mem (nodup head List.mem_cons_self) isDep,
          List.filter_cons_of_pos (by simp [isDep])]
        rfl
      · rw [List.count_eq_zero_of_not_mem isDep, List.filter_cons_of_neg (by simp [isDep])]
        rfl

namespace Kahn

variable {tasks : List DagTask}

theorem inDegree_eq (nodup : (tasks.map (·.key)).Nodup) {task : DagTask}
    (membership : task ∈ tasks) : inDegree tasks task.key = task.deps.length :=
  foldl_set_of_mem DagTask.key (fun task => (task.deps.length : Int)) nodup _ membership

/-- A task is registered under a dependency as often as it lists it. -/
theorem children_eq_flatMap (dep : Key) :
    children tasks dep =
      tasks.flatMap fun task => List.replicate (task.deps.count dep) task.key := by
  rw [children, foldl_registerAll DagTask.key DagTask.deps, List.nil_append]

theorem children_eq (nodup : ∀ task ∈ tasks, task.deps.Nodup) (dep : Key) :
    children tasks dep = (tasks.filter fun task => decide (dep ∈ task.deps)).map (·.key) := by
  rw [children_eq_flatMap, flatMap_replicate_count DagTask.key DagTask.deps nodup]

theorem mem_children {key dep : Key} : key ∈ children tasks dep ↔ Needs tasks key dep := by
  rw [children_eq_flatMap, List.mem_flatMap]
  constructor
  · rintro ⟨task, membership, registered⟩
    rcases List.mem_replicate.mp registered with ⟨listed, rfl⟩
    exact ⟨task, membership, rfl, List.count_pos_iff.mp (Nat.pos_of_ne_zero listed)⟩
  · rintro ⟨task, membership, rfl, isDep⟩
    refine ⟨task, membership, List.mem_replicate.mpr ⟨?_, rfl⟩⟩
    exact (List.count_pos_iff.mpr isDep).ne'

theorem count_children (keys_nodup : (tasks.map (·.key)).Nodup) {task : DagTask}
    (membership : task ∈ tasks) (dep : Key) :
    (children tasks dep).count task.key = task.deps.count dep := by
  rw [children_eq_flatMap]
  induction tasks with
  | nil => cases membership
  | cons head rest ih =>
      rw [List.map_cons, List.nodup_cons] at keys_nodup
      rw [List.flatMap_cons, List.count_append, List.count_replicate]
      rcases List.mem_cons.mp membership with rfl | inRest
      · have none : (rest.flatMap fun other =>
            List.replicate (other.deps.count dep) other.key).count task.key = 0 := by
          rw [List.count_eq_zero, List.mem_flatMap]
          rintro ⟨other, otherMem, registered⟩
          exact keys_nodup.1 ((List.mem_replicate.mp registered).2 ▸ List.mem_map_of_mem otherMem)
        rw [none, if_pos (beq_self_eq_true _), Nat.add_zero]
      · have different : ¬ (head.key == task.key) = true := by
          rw [beq_iff_eq]
          intro same
          exact keys_nodup.1 (same ▸ List.mem_map_of_mem inRest)
        rw [if_neg different, Nat.zero_add]
        exact ih keys_nodup.2 inRest

/-- Two tasks with the same key are one task. -/
theorem needs_key (keys_nodup : (tasks.map (·.key)).Nodup) {task : DagTask}
    (membership : task ∈ tasks) {dep : Key} : Needs tasks task.key dep ↔ dep ∈ task.deps := by
  constructor
  · rintro ⟨other, otherMem, same, isDep⟩
    cases List.inj_on_of_nodup_map keys_nodup otherMem membership same
    exact isDep
  · intro isDep
    exact ⟨task, membership, rfl, isDep⟩

/-! ## One processed task -/

/-- Releasing children lowers each in-degree by the releases and appends those
that reach zero, as long as no child is released more often than its in-degree. -/
theorem foldl_release {released : List Key} {degree : KeyMap Int} (next : List Key)
    (enough : ∀ child ∈ released, (released.count child : Int) ≤ degree child) :
    (∀ key, (released.foldl release (degree, next)).1 key = degree key - released.count key) ∧
      ∃ added, (released.foldl release (degree, next)).2 = next ++ added ∧
        added.Sublist released ∧ added.Nodup ∧
        ∀ key, key ∈ added ↔ key ∈ released ∧ degree key = released.count key := by
  induction released generalizing degree next with
  | nil => exact ⟨fun key => by simp, [], by simp⟩
  | cons child rest ih =>
      have lowered : ∀ key, (degree.set child (degree child - 1)) key + rest.count key =
          degree key - (if key = child then 1 else 0) + rest.count key := by
        intro key
        unfold KeyMap.set
        split
        · next same => rw [same]
        · omega
      have counted : ∀ key, ((child :: rest).count key : Int) =
          rest.count key + if key = child then 1 else 0 := by
        intro key
        rw [List.count_cons]
        by_cases same : key = child
        · simp [same]
        · simp [same, Ne.symm same]
      have stillEnough : ∀ key ∈ rest,
          (rest.count key : Int) ≤ (degree.set child (degree child - 1)) key := by
        intro key membership
        have before := enough key (List.mem_cons_of_mem _ membership)
        have one := lowered key
        rw [counted] at before
        omega
      rcases ih (if degree child - 1 = 0 then next ++ [child] else next) stillEnough with
        ⟨degree_eq, added, next_eq, sublist, nodup, mem_added⟩
      rw [List.foldl_cons]
      constructor
      · intro key
        have one := lowered key
        have two := counted key
        rw [release, degree_eq]
        omega
      · have mem_eq : ∀ key, key ∈ added ↔ key ∈ rest ∧ degree key = (child :: rest).count key := by
          intro key
          have one := lowered key
          rw [mem_added, counted]
          exact and_congr_right fun _ => by omega
        have count_child := counted child
        rw [if_pos rfl] at count_child
        by_cases last : degree child - 1 = 0
        · have absent : child ∉ rest := by
            intro again
            have more := enough child List.mem_cons_self
            have positive := List.count_pos_iff.mpr again
            omega
          refine ⟨child :: added, ?_, sublist.cons_cons child, ?_, ?_⟩
          · rw [release, next_eq, if_pos last, List.append_assoc, List.singleton_append]
          · exact List.nodup_cons.mpr ⟨fun again => absent ((mem_eq child).mp again).1, nodup⟩
          · intro key
            rw [List.mem_cons, List.mem_cons, mem_eq]
            constructor
            · rintro (rfl | ⟨inRest, exact⟩)
              · have none := List.count_eq_zero_of_not_mem absent
                exact ⟨.inl rfl, by omega⟩
              · exact ⟨.inr inRest, exact⟩
            · rintro ⟨rfl | inRest, exact⟩
              · exact .inl rfl
              · exact .inr ⟨inRest, exact⟩
        · refine ⟨added, ?_, sublist.cons child, nodup, ?_⟩
          · rw [release, next_eq, if_neg last]
          · intro key
            rw [mem_eq, List.mem_cons]
            constructor
            · exact fun both => ⟨.inr both.1, both.2⟩
            · rintro ⟨rfl | inRest, exact⟩
              · refine ⟨?_, exact⟩
                by_contra absent
                have none := List.count_eq_zero_of_not_mem absent
                omega
              · exact ⟨inRest, exact⟩

/-- What holds between two tasks that Kahn's algorithm processes: `done` are the
processed keys, `queue` the ones that wait to be processed. -/
structure Inv (tasks : List DagTask) (degree : KeyMap Int) (done queue : List Key) : Prop where
  nodup : (done ++ queue).Nodup
  sorted : Sorted (Needs tasks) done
  degree_eq : ∀ task ∈ tasks, degree task.key = task.deps.countP (· ∉ done)
  /-- a task is emitted exactly when all its dependencies are processed -/
  emitted : ∀ task ∈ tasks, task.key ∈ done ++ queue ↔ ∀ dep ∈ task.deps, dep ∈ done
  keys : ∀ key ∈ done ++ queue, key ∈ tasks.map (·.key)

variable {degree : KeyMap Int} {done queue wave next : List Key}

theorem inv_init (keys_nodup : (tasks.map (·.key)).Nodup) :
    Inv tasks (inDegree tasks) []
      ((tasks.filter fun task => inDegree tasks task.key = 0).map (·.key)) where
  nodup := keys_nodup.sublist (List.filter_sublist.map _)
  sorted := .nil
  degree_eq task membership := by
    rw [inDegree_eq keys_nodup membership]
    simp
  emitted task membership := by
    rw [List.nil_append, List.mem_map]
    constructor
    · rintro ⟨root, rootMem, same⟩
      rw [List.mem_filter, decide_eq_true_eq] at rootMem
      cases List.inj_on_of_nodup_map keys_nodup rootMem.1 membership same
      rw [inDegree_eq keys_nodup membership] at rootMem
      have empty : task.deps = [] := List.length_eq_zero_iff.mp (by omega)
      simp [empty]
    · intro none
      have empty : task.deps = [] := List.eq_nil_iff_forall_not_mem.mpr fun dep membership =>
        List.not_mem_nil (none dep membership)
      refine ⟨task, List.mem_filter.mpr ⟨membership, ?_⟩, rfl⟩
      rw [inDegree_eq keys_nodup membership, empty]
      rfl
  keys key membership := by
    rcases List.mem_map.mp membership with ⟨task, taskMem, rfl⟩
    exact List.mem_map_of_mem (List.mem_filter.mp taskMem).1

/-- Processing a key lowers the missing dependencies of its children. -/
theorem missing_process {deps : List Key} {key : Key} (new : key ∉ done) :
    deps.countP (· ∉ done) = deps.countP (· ∉ done ++ [key]) + deps.count key := by
  apply countP_leave_count
  · simpa using new
  · simp
  · intro dep different
    simp [different]

/-- What processing the first key of the queue appends: the children with no
dependency left. -/
theorem process_added (keys_nodup : (tasks.map (·.key)).Nodup) {key : Key} {queue : List Key}
    (next : List Key) (inv : Inv tasks degree done (key :: queue)) :
    ∃ added, ((children tasks key).foldl release (degree, next)).2 = next ++ added ∧
      added.Sublist (children tasks key) ∧ added.Nodup ∧ ∀ child, child ∈ added ↔ ∃ task ∈ tasks, task.key = child ∧
        key ∈ task.deps ∧ ∀ dep ∈ task.deps, dep ∈ done ++ [key] := by
  have new : key ∉ done := by
    intro processed
    exact (List.nodup_append.mp inv.nodup).2.2 key processed key List.mem_cons_self rfl
  have enough : ∀ child ∈ children tasks key,
      ((children tasks key).count child : Int) ≤ degree child := by
    intro child isChild
    rcases mem_children.mp isChild with ⟨task, membership, rfl, _⟩
    rw [count_children keys_nodup membership, inv.degree_eq task membership, missing_process new]
    omega
  rcases (foldl_release next enough).2 with ⟨added, next_eq, sublist, nodup, mem_added⟩
  refine ⟨added, next_eq, sublist, nodup, ?_⟩
  intro child
  rw [mem_added, mem_children]
  constructor
  · rintro ⟨⟨task, membership, rfl, isDep⟩, last⟩
    refine ⟨task, membership, rfl, isDep, ?_⟩
    rw [count_children keys_nodup membership, inv.degree_eq task membership,
      missing_process new] at last
    have none : task.deps.countP (· ∉ done ++ [key]) = 0 := by omega
    intro dep depMem
    simpa only [decide_eq_true_eq, not_not] using List.countP_eq_zero.mp none dep depMem
  · rintro ⟨task, membership, rfl, isDep, all⟩
    refine ⟨⟨task, membership, rfl, isDep⟩, ?_⟩
    have none : task.deps.countP (· ∉ done ++ [key]) = 0 :=
      List.countP_eq_zero.mpr fun dep depMem => by
        simpa only [decide_eq_true_eq, not_not] using all dep depMem
    rw [count_children keys_nodup membership, inv.degree_eq task membership,
      missing_process new, none, Nat.zero_add]

/-- The invariant is kept by processing the first key of the queue. -/
theorem inv_process (keys_nodup : (tasks.map (·.key)).Nodup) {key : Key} (wave next : List Key)
    (inv : Inv tasks degree done (key :: (wave ++ next))) :
    Inv tasks ((children tasks key).foldl release (degree, next)).1 (done ++ [key])
      (wave ++ ((children tasks key).foldl release (degree, next)).2) := by
  have new : key ∉ done := by
    intro processed
    exact (List.nodup_append.mp inv.nodup).2.2 key processed key List.mem_cons_self rfl
  have keyDeps : ∀ task ∈ tasks, task.key = key → ∀ dep ∈ task.deps, dep ∈ done := by
    intro task membership same
    exact (inv.emitted task membership).mp (by simp [same])
  have degree_eq : ∀ task ∈ tasks,
      ((children tasks key).foldl release (degree, next)).1 task.key =
        degree task.key - task.deps.count key := by
    intro task membership
    rw [(foldl_release next ?_).1, count_children keys_nodup membership]
    intro child isChild
    rcases mem_children.mp isChild with ⟨other, otherMem, rfl, _⟩
    rw [count_children keys_nodup otherMem, inv.degree_eq other otherMem, missing_process new]
    omega
  rcases process_added keys_nodup next inv with ⟨added, next_eq, _, nodup, mem_added⟩
  have addedNew : ∀ child ∈ added, child ∉ done ++ key :: (wave ++ next) := by
    intro child membership emittedBefore
    rcases (mem_added child).mp membership with ⟨task, taskMem, rfl, isDep, _⟩
    exact new ((inv.emitted task taskMem).mp emittedBefore key isDep)
  have queue_eq : (done ++ [key]) ++ (wave ++
      ((children tasks key).foldl release (degree, next)).2) =
        (done ++ key :: (wave ++ next)) ++ added := by
    rw [next_eq]
    simp
  constructor
  · rw [queue_eq]
    refine List.nodup_append.mpr ⟨inv.nodup, nodup, ?_⟩
    intro old oldMem child childMem same
    exact addedNew child childMem (same ▸ oldMem)
  · apply inv.sorted.snoc new
    rintro dep ⟨task, taskMem, same, isDep⟩
    exact keyDeps task taskMem same dep isDep
  · intro task membership
    rw [degree_eq task membership, inv.degree_eq task membership, missing_process new]
    omega
  · intro task membership
    rw [queue_eq, List.mem_append, inv.emitted task membership, mem_added]
    constructor
    · rintro (before | ⟨other, otherMem, same, _, now⟩)
      · exact fun dep depMem => List.mem_append_left _ (before dep depMem)
      · cases List.inj_on_of_nodup_map keys_nodup otherMem membership same
        exact now
    · intro now
      by_cases isDep : key ∈ task.deps
      · exact .inr ⟨task, membership, rfl, isDep, now⟩
      · refine .inl fun dep depMem => ?_
        rcases List.mem_append.mp (now dep depMem) with before | isKey
        · exact before
        · exact absurd (List.mem_singleton.mp isKey ▸ depMem) isDep
  · rw [queue_eq]
    intro other membership
    rcases List.mem_append.mp membership with old | isAdded
    · exact inv.keys other old
    · rcases (mem_added other).mp isAdded with ⟨task, taskMem, rfl, _⟩
      exact List.mem_map_of_mem taskMem

/-- The invariant is kept by completing a wave. -/
theorem inv_completeWave (keys_nodup : (tasks.map (·.key)).Nodup) (wave next : List Key)
    (inv : Inv tasks degree done (wave ++ next)) :
    Inv tasks
      (wave.foldl (fun state key => (children tasks key).foldl release state) (degree, next)).1
      (done ++ wave)
      (wave.foldl (fun state key => (children tasks key).foldl release state) (degree, next)).2 := by
  induction wave generalizing degree done next with
  | nil => simpa using inv
  | cons key rest ih =>
      have processed := inv_process keys_nodup rest next inv
      rw [List.foldl_cons, show done ++ key :: rest = (done ++ [key]) ++ rest by simp]
      exact ih _ processed

/-- The invariant is kept by a pass of the wave loop. -/
theorem inv_pass (keys_nodup : (tasks.map (·.key)).Nodup) (inv : Inv tasks degree done wave) :
    Inv tasks (completeWave (children tasks) degree wave).1 (done ++ wave)
      (completeWave (children tasks) degree wave).2 :=
  inv_completeWave keys_nodup wave [] (by rwa [List.append_nil])

/-! ## The wave loop -/

/-- Emitted keys are distinct keys of tasks. -/
theorem Inv.length_le (inv : Inv tasks degree done queue) :
    (done ++ queue).length ≤ tasks.length := by
  have bound := (inv.nodup.subperm inv.keys).length_le
  rwa [List.length_map] at bound

theorem waves_nil (children : KeyMap (List Key)) (fuel : Nat) (degree : KeyMap Int) :
    waves children fuel degree [] = [] := by
  cases fuel with
  | zero => rfl
  | succ fuel => rfl

theorem waves_cons (children : KeyMap (List Key)) (fuel : Nat) (degree : KeyMap Int)
    (nonempty : wave ≠ []) :
    waves children (fuel + 1) degree wave =
      wave :: waves children fuel (completeWave children degree wave).1
        (completeWave children degree wave).2 := by
  cases wave with
  | nil => exact absurd rfl nonempty
  | cons key rest => rfl

/-- A loop with as much fuel as keys are left ends with no key waiting. -/
theorem waves_end (keys_nodup : (tasks.map (·.key)).Nodup) (fuel : Nat)
    (enough : tasks.length ≤ done.length + fuel) (inv : Inv tasks degree done wave) :
    ∃ last, Inv tasks last (done ++ (waves (children tasks) fuel degree wave).flatten) [] := by
  induction fuel generalizing degree done wave with
  | zero =>
      have none : wave = [] := by
        have bound := inv.length_le
        rw [List.length_append] at bound
        exact List.length_eq_zero_iff.mp (by omega)
      subst none
      exact ⟨degree, by simpa [waves] using inv⟩
  | succ fuel ih =>
      cases wave with
      | nil => exact ⟨degree, by simpa [waves] using inv⟩
      | cons key rest =>
          rw [waves_cons _ _ _ (List.cons_ne_nil key rest), List.flatten_cons,
            ← List.append_assoc]
          refine ih ?_ (inv_pass keys_nodup inv)
          rw [List.length_append, List.length_cons]
          omega

/-- More fuel changes nothing: the loop of the source is the loop with this bound. -/
theorem waves_fuel (keys_nodup : (tasks.map (·.key)).Nodup) (fuel more : Nat)
    (enough : tasks.length ≤ done.length + fuel) (inv : Inv tasks degree done wave) :
    waves (children tasks) (fuel + more) degree wave = waves (children tasks) fuel degree wave := by
  induction fuel generalizing degree done wave with
  | zero =>
      have none : wave = [] := by
        have bound := inv.length_le
        rw [List.length_append] at bound
        exact List.length_eq_zero_iff.mp (by omega)
      subst none
      rw [waves_nil, waves_nil]
  | succ fuel ih =>
      cases wave with
      | nil => rw [waves_nil, waves_nil]
      | cons key rest =>
          have nonempty := List.cons_ne_nil key rest
          rw [Nat.succ_add, waves_cons _ _ _ nonempty, waves_cons _ _ _ nonempty]
          congr 1
          refine ih ?_ (inv_pass keys_nodup inv)
          rw [List.length_append, List.length_cons]
          omega

end Kahn

section Order

variable {tasks : List DagTask}

/-- After the loop no emitted task is left to process. -/
theorem kahn_end (keys_nodup : (tasks.map (·.key)).Nodup) :
    ∃ degree, Kahn.Inv tasks degree (kahn tasks).order [] := by
  rcases Kahn.waves_end keys_nodup tasks.length (by simp) (Kahn.inv_init keys_nodup) with
    ⟨degree, inv⟩
  exact ⟨degree, by simpa [kahn] using inv⟩

/-- A task is emitted exactly when all its dependencies are. -/
theorem mem_order (keys_nodup : (tasks.map (·.key)).Nodup) {task : DagTask}
    (membership : task ∈ tasks) :
    task.key ∈ (kahn tasks).order ↔ ∀ dep ∈ task.deps, dep ∈ (kahn tasks).order := by
  rcases kahn_end keys_nodup with ⟨degree, inv⟩
  have emitted := inv.emitted task membership
  rwa [List.append_nil] at emitted

/-- The bound on the waves cuts nothing off. -/
theorem kahn_levels_fuel (keys_nodup : (tasks.map (·.key)).Nodup) (more : Nat) :
    Kahn.waves (Kahn.children tasks) (tasks.length + more) (Kahn.inDegree tasks)
      ((tasks.filter fun task => Kahn.inDegree tasks task.key = 0).map (·.key)) =
        (kahn tasks).levels :=
  Kahn.waves_fuel keys_nodup tasks.length more (by simp) (Kahn.inv_init keys_nodup)

theorem mem_unprocessed {key : Key} :
    key ∈ (kahn tasks).unprocessed ↔ key ∈ tasks.map (·.key) ∧ key ∉ (kahn tasks).order := by
  simp [kahn]

/-- A task that is left over depends on another one that is. -/
theorem unprocessed_needs (keys_nodup : (tasks.map (·.key)).Nodup)
    (known : ∀ task ∈ tasks, ∀ dep ∈ task.deps, dep ∈ tasks.map (·.key)) {key : Key}
    (left : key ∈ (kahn tasks).unprocessed) :
    ∃ dep ∈ (kahn tasks).unprocessed, Needs tasks key dep := by
  rcases mem_unprocessed.mp left with ⟨isKey, notEmitted⟩
  rcases List.mem_map.mp isKey with ⟨task, membership, rfl⟩
  by_contra none
  apply notEmitted
  apply (mem_order keys_nodup membership).mpr
  intro dep isDep
  by_contra depLeft
  exact none ⟨dep, mem_unprocessed.mpr ⟨known task membership dep isDep, depLeft⟩,
    task, membership, rfl, isDep⟩

/-- The order Kahn's algorithm emits puts every task after its dependencies. -/
theorem kahn_sorted (keys_nodup : (tasks.map (·.key)).Nodup) :
    Sorted (Needs tasks) (kahn tasks).order := by
  rcases kahn_end keys_nodup with ⟨degree, inv⟩
  exact inv.sorted

end Order

section Accepted

variable {tasks : List DagTask}

/-- The check of a well-formed list without leftovers. -/
theorem validateDag_eq (structural : structuralErrors tasks = [])
    (processed : (kahn tasks).unprocessed = []) :
    validateDag tasks =
      { valid := true, errors := [], order := (kahn tasks).order
        levels := (kahn tasks).levels } := by
  simp [validateDag, structural, processed]

theorem accepted_iff :
    (validateDag tasks).valid = true ↔
      structuralErrors tasks = [] ∧ (kahn tasks).unprocessed = [] := by
  constructor
  · intro accepted
    have structural : structuralErrors tasks = [] := by
      by_contra broken
      simp [validateDag, broken] at accepted
    refine ⟨structural, ?_⟩
    by_contra cyclic
    simp [validateDag, structural, cyclic] at accepted
  · rintro ⟨structural, processed⟩
    rw [validateDag_eq structural processed]

/-- An accepted task list can be run. -/
theorem validateDag_sound (accepted : (validateDag tasks).valid = true) : DagValid tasks := by
  rcases accepted_iff.mp accepted with ⟨structural, processed⟩
  rcases structuralErrors_eq_nil.mp structural with ⟨keys_nodup, dependencies⟩
  refine ⟨keys_nodup, fun task membership dep isDep =>
    ((dependencies task membership).2 dep isDep).2,
    fun task membership => (dependencies task membership).1, ?_⟩
  refine ⟨fun key => (kahn tasks).order.idxOf key, ?_⟩
  intro key isKey
  apply (kahn_sorted keys_nodup).ranks_idxOf key
  have emitted := List.filter_eq_nil_iff.mp processed key isKey
  simpa [kahn] using emitted

/-- An accepted list is emitted whole. -/
theorem order_perm (accepted : (validateDag tasks).valid = true) :
    (kahn tasks).order.Perm (tasks.map (·.key)) := by
  have keys_nodup := (validateDag_sound accepted).keys_nodup
  rcases kahn_end keys_nodup with ⟨degree, inv⟩
  have nodup := inv.nodup
  have keys := inv.keys
  rw [List.append_nil] at nodup keys
  apply (List.perm_ext_iff_of_nodup nodup keys_nodup).mpr
  intro key
  refine ⟨keys key, fun isKey => ?_⟩
  by_contra left
  have leftover := mem_unprocessed.mpr ⟨isKey, left⟩
  rw [(accepted_iff.mp accepted).2] at leftover
  cases leftover

end Accepted

end WorkflowEngine
