import WorkflowEngine.Workflow.DagLevels

/-!
# Levels of an accepted graph

The levels of an accepted task list are the depths of its tasks.  A level follows
the input only where the last dependencies of its tasks do.
-/

namespace WorkflowEngine

open Precedence

section Levels

variable {tasks : List DagTask}

theorem accepted_layered (accepted : (validateDag tasks).valid = true) :
    Layered (Needs tasks) (kahn tasks).levels :=
  kahn_layered (validateDag_sound accepted).keys_nodup

theorem mem_levels (accepted : (validateDag tasks).valid = true) {key : Key} :
    key ∈ tasks.map (·.key) ↔ key ∈ (kahn tasks).levels.flatten :=
  (order_perm accepted).mem_iff.symm

/-- The levels of an accepted task list: a topological order cut into waves, where
the wave of a task is the length of a longest dependency chain that ends at it. -/
theorem validateDag_levels (accepted : (validateDag tasks).valid = true) :
    (validateDag tasks).order = (validateDag tasks).levels.flatten ∧
    (validateDag tasks).order.Perm (tasks.map (·.key)) ∧
    (∀ before key after, (validateDag tasks).order = before ++ key :: after →
      ∀ dep, Needs tasks key dep → dep ∈ before) ∧
    (∀ (i : Nat) (level : List Key), (validateDag tasks).levels[i]? = some level →
      ∀ key, key ∈ level ↔ TaskDepth tasks key (i + 1)) ∧
    IsGreatest {length | ∃ chain, TaskChain tasks chain ∧ chain.length = length}
      (validateDag tasks).levels.length ∧
    ∀ level ∈ (validateDag tasks).levels, ∀ key ∈ level, ∀ other ∈ level,
      ¬ Relation.TransGen (Needs tasks) key other := by
  rcases accepted_iff.mp accepted with ⟨structural, processed⟩
  rw [validateDag_eq structural processed]
  have keys_nodup := (validateDag_sound accepted).keys_nodup
  have layered := kahn_layered keys_nodup
  have isKeys : ∀ key, key ∈ tasks.map (·.key) ↔ key ∈ (kahn tasks).levels.flatten :=
    fun key => mem_levels accepted
  refine ⟨rfl, order_perm accepted, ?_, ?_, layered.length_isGreatest isKeys, ?_⟩
  · intro before key after split dep needed
    exact (kahn_sorted keys_nodup).needs_before split needed
  · intro i level found key
    exact layered.mem_level_iff isKeys found
  · intro level membership key isKey other isOther
    exact layered.not_needs_within membership isKey isOther

/-- Three tasks in two waves. -/
theorem validateDag_levels_diamond :
    ∃ tasks : List DagTask, (validateDag tasks).levels = [["A"], ["B", "C"], ["D"]] ∧
      IsGreatest {length | ∃ chain, TaskChain tasks chain ∧ chain.length = length} 3 := by
  refine ⟨[⟨"D", some ["B", "C"]⟩, ⟨"B", some ["A"]⟩, ⟨"A", none⟩, ⟨"C", some ["A"]⟩],
    by decide +kernel, ?_⟩
  exact (validateDag_levels (by decide +kernel)).2.2.2.2.1

/-! ## The order inside a level -/

/-- No task is followed in the input by a task of its own depth whose dependencies
one level below all come earlier than one of its own. -/
def FollowsInput (tasks : List DagTask) : Prop :=
  ∀ key other depth, Before (tasks.map (·.key)) key other →
    TaskDepth tasks key (depth + 1) → TaskDepth tasks other (depth + 1) →
    ∀ dep, Needs tasks key dep → TaskDepth tasks dep depth →
      ∃ last, Needs tasks other last ∧ TaskDepth tasks last depth ∧
        (dep = last ∨ Before (tasks.map (·.key)) dep last)

/-- Comparing last dependencies in a wave that follows the input. -/
theorem noLater_iff (keys_nodup : (tasks.map (·.key)).Nodup) {wave : List Key}
    (follows : wave.Sublist (tasks.map (·.key))) {key other : Key} :
    Kahn.NoLater tasks wave key other ↔ ∀ dep ∈ wave, Needs tasks key dep →
      ∃ last ∈ wave, Needs tasks other last ∧
        (dep = last ∨ Before (tasks.map (·.key)) dep last) := by
  constructor
  · intro noLater dep isDep needed
    rcases noLater dep isDep needed with ⟨last, isLast, needsLast, same | before⟩
    · exact ⟨last, isLast, needsLast, .inl same⟩
    · exact ⟨last, isLast, needsLast, .inr (before.mono follows)⟩
  · intro inInput dep isDep needed
    rcases inInput dep isDep needed with ⟨last, isLast, needsLast, same | before⟩
    · exact ⟨last, isLast, needsLast, .inl same⟩
    · by_cases same : dep = last
      · exact ⟨last, isLast, needsLast, .inl same⟩
      · rcases Before.total isDep isLast same with inWave | back
        · exact ⟨last, isLast, needsLast, .inr inWave⟩
        · exact absurd before ((back.mono follows).asymm keys_nodup)

/-- One level follows the input if the level below does and the last dependencies
of its tasks do. -/
theorem upper_follows_iff (accepted : (validateDag tasks).valid = true) {i : Nat}
    {lower upper : List Key} (isLower : (kahn tasks).levels[i]? = some lower)
    (isUpper : (kahn tasks).levels[i + 1]? = some upper)
    (follows : lower.Sublist (tasks.map (·.key))) :
    upper.Sublist (tasks.map (·.key)) ↔ ∀ key ∈ upper, ∀ other ∈ upper,
      Before (tasks.map (·.key)) key other → ∀ dep ∈ lower, Needs tasks key dep →
        ∃ last ∈ lower, Needs tasks other last ∧
          (dep = last ∨ Before (tasks.map (·.key)) dep last) := by
  have valid := validateDag_sound accepted
  have layered := kahn_layered valid.keys_nodup
  have levelNodup := (List.nodup_flatten.mp layered.nodup).1
  have subset : upper ⊆ tasks.map (·.key) := by
    intro key isKey
    exact (mem_levels accepted).mpr (Layered.mem_flatten.mpr ⟨i + 1, upper, isUpper, isKey⟩)
  rw [Kahn.follows_input_iff valid.keys_nodup (levelNodup upper (List.mem_of_getElem? isUpper))
    subset (kahn_released valid.keys_nodup valid.deps_nodup isLower isUpper)
    (levelNodup lower (List.mem_of_getElem? isLower))]
  simp only [noLater_iff valid.keys_nodup follows]

/-- Every level of an accepted task list follows the input exactly when no task
waits for a later dependency than a task of its level that comes after it. -/
theorem levels_follow_input_iff (accepted : (validateDag tasks).valid = true) :
    (∀ level ∈ (validateDag tasks).levels, level.Sublist (tasks.map (·.key))) ↔
      FollowsInput tasks := by
  rcases accepted_iff.mp accepted with ⟨structural, processed⟩
  rw [validateDag_eq structural processed]
  have layered := accepted_layered accepted
  have isKeys : ∀ key, key ∈ tasks.map (·.key) ↔ key ∈ (kahn tasks).levels.flatten :=
    fun key => mem_levels accepted
  have depth_of_mem : ∀ {i : Nat} {level : List Key} {key : Key},
      (kahn tasks).levels[i]? = some level → key ∈ level → TaskDepth tasks key (i + 1) :=
    fun found membership => (layered.mem_level_iff isKeys found).mp membership
  constructor
  · intro follow key other depth before keyDepth otherDepth dep needed depDepth
    have level_of : ∀ {key : Key} {depth : Nat}, TaskDepth tasks key (depth + 1) →
        ∃ level, (kahn tasks).levels[depth]? = some level ∧ key ∈ level := by
      intro key depth isDepth
      rcases isDepth.1 with ⟨chain, linked, last, _⟩
      have isKey := linked.within key (List.mem_of_getLast? last)
      rcases Layered.mem_flatten.mp ((isKeys key).mp isKey) with ⟨i, level, found, membership⟩
      cases Nat.succ.inj (isDepth.unique (depth_of_mem found membership))
      exact ⟨level, found, membership⟩
    cases depth with
    | zero =>
        -- no chain that ends at `dep` is empty
        rcases depDepth.1 with ⟨chain, _, last, length⟩
        rw [List.length_eq_zero_iff.mp length] at last
        cases last
    | succ i =>
        rcases level_of keyDepth with ⟨upper, isUpper, keyUpper⟩
        rcases level_of otherDepth with ⟨_, isUpper', otherUpper⟩
        rw [isUpper] at isUpper'
        cases Option.some.inj isUpper'
        rcases level_of depDepth with ⟨lower, isLower, depLower⟩
        rcases (upper_follows_iff accepted isLower isUpper
          (follow lower (List.mem_of_getElem? isLower))).mp
          (follow upper (List.mem_of_getElem? isUpper)) key keyUpper other otherUpper before dep
          depLower needed with ⟨last, isLast, needsLast, place⟩
        exact ⟨last, needsLast, depth_of_mem isLower isLast, place⟩
  · intro follows
    have byIndex : ∀ (i : Nat) (level : List Key), (kahn tasks).levels[i]? = some level →
        level.Sublist (tasks.map (·.key)) := by
      intro i
      induction i with
      | zero => exact fun level found => kahn_first_sublist found
      | succ i ih =>
          intro upper isUpper
          have bound : i < (kahn tasks).levels.length := by
            have above := (List.getElem?_eq_some_iff.mp isUpper).1
            omega
          have isLower := List.getElem?_eq_getElem bound
          apply (upper_follows_iff accepted isLower isUpper (ih _ isLower)).mpr
          intro key keyUpper other otherUpper before dep depLower needed
          rcases follows key other (i + 1) before (depth_of_mem isUpper keyUpper)
            (depth_of_mem isUpper otherUpper) dep needed (depth_of_mem isLower depLower) with
            ⟨last, needsLast, lastDepth, place⟩
          exact ⟨last, (layered.mem_level_iff isKeys isLower).mpr lastDepth, needsLast, place⟩
    intro level membership
    rcases List.mem_iff_getElem?.mp membership with ⟨i, found⟩
    exact byIndex i level found

end Levels

/-- Two roots whose children stand in the other order. -/
def crossed : List DagTask :=
  [⟨"A", none⟩, ⟨"B", none⟩, ⟨"C", some ["B"]⟩, ⟨"D", some ["A"]⟩]

/-- Levels need not follow the input: `A` releases `D` before `B` releases `C`. -/
theorem levels_not_in_input_order :
    ¬ ∀ tasks, (validateDag tasks).valid = true →
      ∀ level ∈ (validateDag tasks).levels, level.Sublist (tasks.map (·.key)) := by
  intro follow
  have level := follow crossed (by decide +kernel) ["D", "C"] (by decide +kernel)
  exact absurd level (by decide)

/-- Children that stand in the order of their parents follow the input. -/
theorem levels_follow_input_diamond :
    ∃ tasks : List DagTask, (validateDag tasks).levels = [["A"], ["B", "C"], ["D"]] ∧
      FollowsInput tasks := by
  refine ⟨[⟨"A", none⟩, ⟨"B", some ["A"]⟩, ⟨"C", some ["A"]⟩, ⟨"D", some ["B", "C"]⟩],
    by decide +kernel, ?_⟩
  exact (levels_follow_input_iff (by decide +kernel)).mp (by decide +kernel)

end WorkflowEngine
