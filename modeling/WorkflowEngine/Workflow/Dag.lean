import Mathlib.Data.List.Basic

/-!
# Task graphs

`validateDag` with Kahn's algorithm and the three-colour search that names a
cycle, as the engine runs them before it stores or starts a workflow.
-/

namespace WorkflowEngine

/-- Task keys, unique within a workflow. -/
abbrev Key := String

/-- What graph validation reads of a task definition. -/
structure DagTask where
  key : Key
  dependsOn : Option (List Key)
  deriving DecidableEq, Repr

namespace DagTask

/-- `task.dependsOn ?? []` -/
def deps (task : DagTask) : List Key := task.dependsOn.getD []

end DagTask

inductive DagErrorCode where
  | duplicateKey | selfDependency | duplicateDependency | unknownDependency | cycle
  deriving DecidableEq, Repr

structure DagError where
  code : DagErrorCode
  message : String
  task : Option Key
  dependency : Option Key
  cycle : Option (List Key)
  deriving DecidableEq, Repr

/-- A JavaScript `Map` from keys, read as a function. -/
abbrev KeyMap (α : Type) := Key → α

namespace KeyMap

def set {α : Type} (map : KeyMap α) (key : Key) (value : α) : KeyMap α :=
  fun other => if other = key then value else map other

@[simp] theorem set_self {α : Type} (map : KeyMap α) (key : Key) (value : α) :
    map.set key value key = value := if_pos rfl

theorem set_of_ne {α : Type} (map : KeyMap α) {key other : Key} (value : α)
    (different : other ≠ key) : map.set key value other = map other := if_neg different

end KeyMap

/-! ## Structural checks -/

/-- One DUPLICATE_KEY error for each repeated occurrence of a key. -/
def duplicateKeyErrors (seen : List Key) : List DagTask → List DagError
  | [] => []
  | task :: rest =>
      (if task.key ∈ seen then
        [{ code := .duplicateKey
           message := s!"Task key \"{task.key}\" is used more than once"
           task := some task.key, dependency := none, cycle := none }]
      else []) ++ duplicateKeyErrors (task.key :: seen) rest

/-- The errors of one task's dependency list; `counted` are the dependencies
already passed. -/
def dependencyErrors (seen : List Key) (key : Key) (counted : List Key) :
    List Key → List DagError
  | [] => []
  | dep :: rest =>
      (if dep = key then
        [{ code := .selfDependency
           message := s!"Task \"{key}\" depends on itself"
           task := some key, dependency := none, cycle := none }]
      else if dep ∉ seen then
        [{ code := .unknownDependency
           message := s!"Task \"{key}\" depends on unknown task \"{dep}\""
           task := some key, dependency := some dep, cycle := none }]
      else []) ++
      -- A repeated dependency would make remainingDeps count one parent twice.
      (if dep ∈ counted then
        [{ code := .duplicateDependency
           message := s!"Task \"{key}\" lists dependency \"{dep}\" more than once"
           task := some key, dependency := some dep, cycle := none }]
      else []) ++ dependencyErrors seen key (dep :: counted) rest

def structuralErrors (tasks : List DagTask) : List DagError :=
  duplicateKeyErrors [] tasks ++
    tasks.flatMap fun task => dependencyErrors (tasks.map (·.key)) task.key [] task.deps

/-! ## Kahn's algorithm -/

structure KahnResult where
  order : List Key
  levels : List (List Key)
  unprocessed : List Key
  deriving DecidableEq, Repr

namespace Kahn

/-- In-degree of every task: the number of its dependencies. -/
def inDegree (tasks : List DagTask) : KeyMap Int :=
  tasks.foldl (fun map task => map.set task.key task.deps.length) fun _ => 0

/-- parent key -> keys that depend on it -/
def children (tasks : List DagTask) : KeyMap (List Key) :=
  tasks.foldl
    (fun map task => task.deps.foldl
      (fun map dep => map.set dep (map dep ++ [task.key])) map)
    fun _ => []

/-- Complete one task of the wave: decrement each child's in-degree; children
that reach 0 join the next wave. -/
def release (state : KeyMap Int × List Key) (child : Key) : KeyMap Int × List Key :=
  let remaining := state.1 child - 1
  (state.1.set child remaining, if remaining = 0 then state.2 ++ [child] else state.2)

def completeWave (children : KeyMap (List Key)) (degree : KeyMap Int) (wave : List Key) :
    KeyMap Int × List Key :=
  wave.foldl (fun state key => (children key).foldl release state) (degree, [])

/-- The wave loop.  `fuel` bounds the number of waves. -/
def waves (children : KeyMap (List Key)) :
    Nat → KeyMap Int → List Key → List (List Key)
  | 0, _, _ => []
  | _ + 1, _, [] => []
  | fuel + 1, degree, wave =>
      let next := completeWave children degree wave
      wave :: waves children fuel next.1 next.2

end Kahn

/-- Kahn's algorithm.  Every wave emits a task that no earlier wave emitted, so
there are at most as many waves as tasks. -/
def kahn (tasks : List DagTask) : KahnResult :=
  let degree := Kahn.inDegree tasks
  let roots := (tasks.filter fun task => degree task.key = 0).map (·.key)
  let levels := Kahn.waves (Kahn.children tasks) tasks.length degree roots
  let order := levels.flatten
  { order, levels, unprocessed := (tasks.map (·.key)).filter (· ∉ order) }

/-! ## Naming a cycle -/

inductive Colour where
  /-- not visited yet -/
  | white
  /-- on the current search path -/
  | grey
  /-- fully explored, known to lead to no cycle -/
  | black
  deriving DecidableEq, Repr

namespace FindCycle

/-- The colours and the current path of the search. -/
structure Search where
  colour : KeyMap (Option Colour)
  path : List Key

/-- `visit`: depth-first search along dependencies.  `fuel` bounds the depth of
the recursion, which only enters white keys. -/
def visit (deps : KeyMap (List Key)) : Nat → Key → Search → Option (List Key) × Search
  | 0, _, search => (none, search)
  | fuel + 1, key, search =>
      let entered : Search :=
        { colour := search.colour.set key (some .grey), path := search.path ++ [key] }
      let explored := (deps key).foldl
        (fun (state : Option (List Key) × Search) dep =>
          match state.1 with
          | some found => (some found, state.2)
          | none =>
              if state.2.colour dep = some .grey then
                -- The path from `dep` to here is a cycle.
                (some (state.2.path.dropWhile (· ≠ dep) ++ [dep]), state.2)
              else if state.2.colour dep = some .white then
                visit deps fuel dep state.2
              else
                (none, state.2))
        (none, entered)
      match explored.1 with
      | some found => (some found, explored.2)
      | none =>
          (none, { colour := explored.2.colour.set key (some .black)
                   path := explored.2.path.dropLast })

/-- Search from each candidate that is still white. -/
def fromCandidates (deps : KeyMap (List Key)) (fuel : Nat) :
    List Key → Search → Option (List Key)
  | [], _ => none
  | key :: rest, search =>
      if search.colour key = some .white then
        match visit deps fuel key search with
        | (some found, _) => some found
        | (none, next) => fromCandidates deps fuel rest next
      else
        fromCandidates deps fuel rest search

end FindCycle

/-- One concrete cycle in execution direction, first key repeated at the end. -/
def findCycle (tasks : List DagTask) (candidates : List Key) : List Key :=
  let deps : KeyMap (List Key) :=
    tasks.foldl (fun map task => map.set task.key task.deps) fun _ => []
  let colour : KeyMap (Option Colour) :=
    tasks.foldl (fun map task => map.set task.key (some .white)) fun _ => none
  match FindCycle.fromCandidates deps (tasks.length + 1) candidates ⟨colour, []⟩ with
  | some found => found.reverse
  | none => candidates

structure DagCheck where
  valid : Bool
  errors : List DagError
  order : List Key
  levels : List (List Key)
  deriving DecidableEq, Repr

/-- Validate a workflow's task graph, collecting all structural problems. -/
def validateDag (tasks : List DagTask) : DagCheck :=
  let errors := structuralErrors tasks
  -- The graph algorithms assume unique keys and known edges.
  if errors ≠ [] then
    { valid := false, errors, order := [], levels := [] }
  else
    let result := kahn tasks
    if result.unprocessed ≠ [] then
      let cycle := findCycle tasks result.unprocessed
      let path := " -> ".intercalate cycle
      { valid := false
        errors := [{ code := .cycle, message := s!"Dependency cycle: {path}"
                     task := none, dependency := none, cycle := some cycle }]
        order := [], levels := [] }
    else
      { valid := true, errors := [], order := result.order, levels := result.levels }

end WorkflowEngine
