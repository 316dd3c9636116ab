import WorkflowEngine.Foundations.Scan
import WorkflowEngine.Workflow.DagValid

/-!
# The structural errors of a task list

A fault is one occurrence of something that is wrong with a task list, named by its
place.  The structural errors are the errors of the faults, one for each.
-/

namespace WorkflowEngine

open Scan

/-- One occurrence at fault: a task, or a dependency in a task's list. -/
inductive Fault where
  | duplicateKey (task : Nat) (key : Key)
  | selfDependency (task place : Nat) (key : Key)
  | unknownDependency (task place : Nat) (key dep : Key)
  | duplicateDependency (task place : Nat) (key dep : Key)
  deriving DecidableEq, Repr

namespace Fault

/-- The places at fault in a task list. -/
def Occurs (tasks : List DagTask) : Fault → Prop
  | .duplicateKey i key =>
      (tasks.map (·.key))[i]? = some key ∧ key ∈ (tasks.map (·.key)).take i
  | .selfDependency i place key =>
      ∃ task, tasks[i]? = some task ∧ task.key = key ∧ task.deps[place]? = some key
  | .unknownDependency i place key dep =>
      ∃ task, tasks[i]? = some task ∧ task.key = key ∧ task.deps[place]? = some dep ∧
        dep ≠ key ∧ dep ∉ tasks.map (·.key)
  | .duplicateDependency i place key dep =>
      ∃ task, tasks[i]? = some task ∧ task.key = key ∧ task.deps[place]? = some dep ∧
        dep ∈ task.deps.take place

/-- The error that reports a fault. -/
def error : Fault → DagError
  | .duplicateKey _ key =>
      { code := .duplicateKey, message := s!"Task key \"{key}\" is used more than once"
        task := some key, dependency := none, cycle := none }
  | .selfDependency _ _ key =>
      { code := .selfDependency, message := s!"Task \"{key}\" depends on itself"
        task := some key, dependency := none, cycle := none }
  | .unknownDependency _ _ key dep =>
      { code := .unknownDependency
        message := s!"Task \"{key}\" depends on unknown task \"{dep}\""
        task := some key, dependency := some dep, cycle := none }
  | .duplicateDependency _ _ key dep =>
      { code := .duplicateDependency
        message := s!"Task \"{key}\" lists dependency \"{dep}\" more than once"
        task := some key, dependency := some dep, cycle := none }

theorem error_code_ne_cycle (fault : Fault) : fault.error.code ≠ .cycle := by
  cases fault <;> exact nofun

/-- The position of the task at fault. -/
def taskIndex : Fault → Nat
  | .duplicateKey i _ => i
  | .selfDependency i _ _ => i
  | .unknownDependency i _ _ _ => i
  | .duplicateDependency i _ _ _ => i

/-- The position of the dependency at fault. -/
def place : Fault → Nat
  | .duplicateKey _ _ => 0
  | .selfDependency _ place _ => place
  | .unknownDependency _ place _ _ => place
  | .duplicateDependency _ place _ _ => place

/-- The fault of a task whose key is used before. -/
def ofKey (before : List DagTask) (task : DagTask) : List Fault :=
  if task.key ∈ before.map (·.key) then [.duplicateKey before.length task.key] else []

/-- The faults of one dependency of the task at position `i`. -/
def ofDependency (keys : List Key) (i : Nat) (key : Key) (before : List Key) (dep : Key) :
    List Fault :=
  (if dep = key then [.selfDependency i before.length key]
    else if dep ∉ keys then [.unknownDependency i before.length key dep]
    else []) ++
  if dep ∈ before then [.duplicateDependency i before.length key dep] else []

def ofTask (keys : List Key) (before : List DagTask) (task : DagTask) : List Fault :=
  scan (ofDependency keys before.length task.key) [] task.deps

/-- All faults of a task list, in the order in which they are reported. -/
def all (tasks : List DagTask) : List Fault :=
  scan ofKey [] tasks ++ scan (ofTask (tasks.map (·.key))) [] tasks

end Fault

/-! ## Errors are the errors of the faults -/

theorem duplicateKeyErrors_eq {before : List DagTask} {seen : List Key} {tasks : List DagTask}
    (same : ∀ key, key ∈ seen ↔ key ∈ before.map (·.key)) :
    duplicateKeyErrors seen tasks = (scan Fault.ofKey before tasks).map Fault.error := by
  induction tasks generalizing before seen with
  | nil => rfl
  | cons task rest ih =>
      have longer : ∀ key, key ∈ task.key :: seen ↔ key ∈ (before ++ [task]).map (·.key) := by
        intro key
        simp only [List.mem_cons, same, List.map_append, List.map_cons, List.map_nil,
          List.mem_append, List.not_mem_nil, or_false]
        exact or_comm
      rw [duplicateKeyErrors, scan, List.map_append, ih longer, Fault.ofKey]
      congr 1
      by_cases repeated : task.key ∈ seen
      · rw [if_pos repeated, if_pos ((same _).mp repeated)]
        rfl
      · rw [if_neg repeated, if_neg fun again => repeated ((same _).mpr again)]
        rfl

theorem dependencyErrors_eq {keys before counted deps : List Key} {key : Key} {i : Nat}
    (same : ∀ dep, dep ∈ counted ↔ dep ∈ before) :
    dependencyErrors keys key counted deps =
      (scan (Fault.ofDependency keys i key) before deps).map Fault.error := by
  induction deps generalizing before counted with
  | nil => rfl
  | cons dep rest ih =>
      have longer : ∀ other, other ∈ dep :: counted ↔ other ∈ before ++ [dep] := by
        intro other
        simp only [List.mem_cons, same, List.mem_append, List.not_mem_nil, or_false]
        exact or_comm
      rw [dependencyErrors, scan, List.map_append, ih longer, Fault.ofDependency,
        List.map_append]
      congr 2
      · split
        · rfl
        · split
          · rfl
          · rfl
      · by_cases repeated : dep ∈ counted
        · rw [if_pos repeated, if_pos ((same _).mp repeated)]
          rfl
        · rw [if_neg repeated, if_neg fun again => repeated ((same _).mpr again)]
          rfl

theorem flatMap_dependencyErrors_eq (keys : List Key) (before tasks : List DagTask) :
    (tasks.flatMap fun task => dependencyErrors keys task.key [] task.deps) =
      (scan (Fault.ofTask keys) before tasks).map Fault.error := by
  induction tasks generalizing before with
  | nil => rfl
  | cons task rest ih =>
      rw [List.flatMap_cons, scan, List.map_append, ih (before ++ [task])]
      congr 1
      apply dependencyErrors_eq
      intro dep
      rfl

theorem structuralErrors_eq (tasks : List DagTask) :
    structuralErrors tasks = (Fault.all tasks).map Fault.error := by
  rw [structuralErrors, Fault.all, List.map_append,
    ← flatMap_dependencyErrors_eq (tasks.map (·.key)) [] tasks]
  congr 1
  apply duplicateKeyErrors_eq
  intro key
  rfl

/-! ## Every fault once -/

namespace Fault

theorem mem_ofKey {before : List DagTask} {task : DagTask} {fault : Fault} :
    fault ∈ ofKey before task ↔
      fault = .duplicateKey before.length task.key ∧ task.key ∈ before.map (·.key) := by
  unfold ofKey
  split
  · next repeated => simp [repeated]
  · next new => simp [new]

theorem mem_ofDependency {keys before : List Key} {i : Nat} {key dep : Key} {fault : Fault} :
    fault ∈ ofDependency keys i key before dep ↔
      fault = .selfDependency i before.length key ∧ dep = key ∨
      fault = .unknownDependency i before.length key dep ∧ dep ≠ key ∧ dep ∉ keys ∨
      fault = .duplicateDependency i before.length key dep ∧ dep ∈ before := by
  unfold ofDependency
  by_cases self : dep = key
  · by_cases repeated : dep ∈ before
    · simp [self, self ▸ repeated]
    · simp [self, self ▸ repeated]
  · by_cases known : dep ∈ keys
    · by_cases repeated : dep ∈ before
      · simp [self, known, repeated]
      · simp [self, known, repeated]
    · by_cases repeated : dep ∈ before
      · simp [self, known, repeated]
      · simp [self, known, repeated]

theorem ofDependency_nodup (keys : List Key) (i : Nat) (key : Key) (before : List Key)
    (dep : Key) : (ofDependency keys i key before dep).Nodup := by
  unfold ofDependency
  split
  · split
    · simp
    · simp
  · split
    · split
      · simp
      · simp
    · split
      · simp
      · simp

theorem ofTask_nodup (keys : List Key) (before : List DagTask) (task : DagTask) :
    (ofTask keys before task).Nodup := by
  apply nodup_scan place
  · intro passed dep fault emitted
    rcases mem_ofDependency.mp emitted with ⟨rfl, _⟩ | ⟨rfl, _⟩ | ⟨rfl, _⟩
    · rfl
    · rfl
    · rfl
  · exact ofDependency_nodup keys before.length task.key

/-- The faults of the dependencies of one task. -/
theorem mem_ofTask {keys : List Key} {before : List DagTask} {task : DagTask} {fault : Fault} :
    fault ∈ ofTask keys before task ↔ ∃ j dep, task.deps[j]? = some dep ∧
      (fault = .selfDependency before.length j task.key ∧ dep = task.key ∨
      fault = .unknownDependency before.length j task.key dep ∧ dep ≠ task.key ∧ dep ∉ keys ∨
      fault = .duplicateDependency before.length j task.key dep ∧ dep ∈ task.deps.take j) := by
  rw [ofTask, mem_scan_nil]
  constructor
  · rintro ⟨j, dep, found, emitted⟩
    have length : (task.deps.take j).length = j :=
      List.length_take_of_le (List.getElem?_eq_some_iff.mp found).1.le
    rw [mem_ofDependency, length] at emitted
    exact ⟨j, dep, found, emitted⟩
  · rintro ⟨j, dep, found, emitted⟩
    have length : (task.deps.take j).length = j :=
      List.length_take_of_le (List.getElem?_eq_some_iff.mp found).1.le
    refine ⟨j, dep, found, ?_⟩
    rw [mem_ofDependency, length]
    exact emitted

theorem all_nodup (tasks : List DagTask) : (all tasks).Nodup := by
  refine List.nodup_append.mpr ⟨?_, ?_, ?_⟩
  · apply nodup_scan taskIndex
    · intro before task fault emitted
      rw [(mem_ofKey.mp emitted).1]
      rfl
    · intro before task
      unfold ofKey
      split
      · exact List.nodup_singleton _
      · exact .nil
  · apply nodup_scan taskIndex
    · intro before task fault emitted
      rcases mem_ofTask.mp emitted with ⟨j, dep, _, ⟨rfl, _⟩ | ⟨rfl, _⟩ | ⟨rfl, _⟩⟩
      · rfl
      · rfl
      · rfl
    · exact ofTask_nodup (tasks.map (·.key))
  · rintro fault ofKeys _ ofDeps rfl
    rcases mem_scan_nil.mp ofKeys with ⟨_, _, _, emitted⟩
    have isKey := (mem_ofKey.mp emitted).1
    rcases mem_scan_nil.mp ofDeps with ⟨_, _, _, emitted⟩
    rcases mem_ofTask.mp emitted with ⟨_, _, _, ⟨other, _⟩ | ⟨other, _⟩ | ⟨other, _⟩⟩
    · cases isKey.symm.trans other
    · cases isKey.symm.trans other
    · cases isKey.symm.trans other

theorem mem_all {tasks : List DagTask} {fault : Fault} :
    fault ∈ all tasks ↔ fault.Occurs tasks := by
  have length : ∀ {i : Nat} {task : DagTask}, tasks[i]? = some task →
      (tasks.take i).length = i := fun found =>
    List.length_take_of_le (List.getElem?_eq_some_iff.mp found).1.le
  rw [all, List.mem_append, mem_scan_nil, mem_scan_nil]
  constructor
  · rintro (⟨i, task, found, emitted⟩ | ⟨i, task, found, emitted⟩)
    · rcases mem_ofKey.mp emitted with ⟨rfl, repeated⟩
      rw [length found]
      refine ⟨?_, ?_⟩
      · rw [List.getElem?_map, found]
        rfl
      · rwa [← List.map_take]
    · rw [mem_ofTask, length found] at emitted
      rcases emitted with ⟨j, dep, isDep, ⟨rfl, rfl⟩ | ⟨rfl, other, unknown⟩ | ⟨rfl, repeated⟩⟩
      · exact ⟨task, found, rfl, isDep⟩
      · exact ⟨task, found, rfl, isDep, other, unknown⟩
      · exact ⟨task, found, rfl, isDep, repeated⟩
  · cases fault with
    | duplicateKey i key =>
        rintro ⟨found, repeated⟩
        rw [List.getElem?_map] at found
        rcases Option.map_eq_some_iff.mp found with ⟨task, isTask, rfl⟩
        refine .inl ⟨i, task, isTask, mem_ofKey.mpr ⟨?_, ?_⟩⟩
        · rw [length isTask]
        · rwa [List.map_take]
    | selfDependency i j key =>
        rintro ⟨task, found, rfl, isDep⟩
        refine .inr ⟨i, task, found, ?_⟩
        rw [mem_ofTask, length found]
        exact ⟨j, task.key, isDep, .inl ⟨rfl, rfl⟩⟩
    | unknownDependency i j key dep =>
        rintro ⟨task, found, rfl, isDep, other, unknown⟩
        refine .inr ⟨i, task, found, ?_⟩
        rw [mem_ofTask, length found]
        exact ⟨j, dep, isDep, .inr (.inl ⟨rfl, other, unknown⟩)⟩
    | duplicateDependency i j key dep =>
        rintro ⟨task, found, rfl, isDep, repeated⟩
        refine .inr ⟨i, task, found, ?_⟩
        rw [mem_ofTask, length found]
        exact ⟨j, dep, isDep, .inr (.inr ⟨rfl, repeated⟩)⟩

end Fault

end WorkflowEngine
