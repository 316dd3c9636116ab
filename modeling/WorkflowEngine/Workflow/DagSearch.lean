import Mathlib.Data.List.Chain
import WorkflowEngine.Workflow.DagValid

/-!
# The search that names a cycle

The invariant of the three-colour search: the grey keys are the current path, in
which every key needs the next, and the black keys form a sorted list, so that no
cycle leads through them.  The bound on the recursion is never reached, because
every call turns one white key grey.
-/

namespace WorkflowEngine

open Precedence

namespace FindCycle

/-- `deps` of the source: the dependencies of every task. -/
def depsOf (tasks : List DagTask) : KeyMap (List Key) :=
  tasks.foldl (fun map task => map.set task.key task.deps) fun _ => []

/-- The colours before the search. -/
def allWhite (tasks : List DagTask) : KeyMap (Option Colour) :=
  tasks.foldl (fun map task => map.set task.key (some .white)) fun _ => none

/-- One dependency in the loop of `visit`. -/
def explore (visit : Key → Search → Option (List Key) × Search)
    (state : Option (List Key) × Search) (dep : Key) : Option (List Key) × Search :=
  match state.1 with
  | some found => (some found, state.2)
  | none =>
      if state.2.colour dep = some .grey then
        (some (state.2.path.dropWhile (· ≠ dep) ++ [dep]), state.2)
      else if state.2.colour dep = some .white then
        visit dep state.2
      else
        (none, state.2)

/-- Entering a key. -/
def Search.enter (search : Search) (key : Key) : Search :=
  { colour := search.colour.set key (some .grey), path := search.path ++ [key] }

/-- Leaving a key whose dependencies lead to no cycle. -/
def Search.leave (search : Search) (key : Key) : Search :=
  { colour := search.colour.set key (some .black), path := search.path.dropLast }

section Colours

variable (search : Search) (key : Key) {other : Key}

@[simp] theorem enter_self : (search.enter key).colour key = some .grey := KeyMap.set_self _ _ _

theorem enter_of_ne (different : other ≠ key) :
    (search.enter key).colour other = search.colour other := KeyMap.set_of_ne _ _ different

@[simp] theorem enter_path : (search.enter key).path = search.path ++ [key] := rfl

@[simp] theorem leave_self : (search.leave key).colour key = some .black := KeyMap.set_self _ _ _

theorem leave_of_ne (different : other ≠ key) :
    (search.leave key).colour other = search.colour other := KeyMap.set_of_ne _ _ different

@[simp] theorem leave_path : (search.leave key).path = search.path.dropLast := rfl

end Colours

/-- What `visit` answers after its loop. -/
def finish (key : Key) (explored : Option (List Key) × Search) : Option (List Key) × Search :=
  match explored.1 with
  | some found => (some found, explored.2)
  | none => (none, explored.2.leave key)

theorem visit_succ (deps : KeyMap (List Key)) (fuel : Nat) (key : Key) (search : Search) :
    visit deps (fuel + 1) key search =
      finish key ((deps key).foldl (explore (visit deps fuel)) (none, search.enter key)) := rfl

theorem findCycle_eq (tasks : List DagTask) (candidates : List Key) :
    findCycle tasks candidates =
      match fromCandidates (depsOf tasks) (tasks.length + 1) candidates ⟨allWhite tasks, []⟩ with
      | some found => found.reverse
      | none => candidates := rfl

variable {visit visit' : Key → Search → Option (List Key) × Search}

/-- A found cycle ends the loop. -/
theorem foldl_explore_found (keys found : List Key) (search : Search) :
    keys.foldl (explore visit) (some found, search) = (some found, search) := by
  induction keys with
  | nil => rfl
  | cons key rest ih => exact ih

/-! ## The bound on the recursion -/

/-- At most `bound` keys are white. -/
def WhiteWithin (search : Search) (bound : Nat) : Prop :=
  ∃ keys : List Key, keys.length ≤ bound ∧
    ∀ key, search.colour key = some .white → key ∈ keys

/-- Nothing turns white. -/
def Darker (search next : Search) : Prop :=
  ∀ key, next.colour key = some .white → search.colour key = some .white

theorem Darker.within {search next : Search} {bound : Nat} (darker : Darker search next)
    (within : WhiteWithin search bound) : WhiteWithin next bound := by
  rcases within with ⟨keys, length, white⟩
  exact ⟨keys, length, fun key isWhite => white key (darker key isWhite)⟩

theorem darker_enter (search : Search) (key : Key) : Darker search (search.enter key) := by
  intro other isWhite
  by_cases same : other = key
  · rw [same, enter_self] at isWhite
    cases isWhite
  · rwa [enter_of_ne _ _ same] at isWhite

theorem darker_leave (search : Search) (key : Key) : Darker search (search.leave key) := by
  intro other isWhite
  by_cases same : other = key
  · rw [same, leave_self] at isWhite
    cases isWhite
  · rwa [leave_of_ne _ _ same] at isWhite

/-- Entering a white key leaves one white key fewer. -/
theorem WhiteWithin.enter {search : Search} {bound : Nat} {key : Key}
    (within : WhiteWithin search (bound + 1)) (isWhite : search.colour key = some .white) :
    WhiteWithin (search.enter key) bound := by
  rcases within with ⟨keys, length, white⟩
  refine ⟨keys.erase key, ?_, ?_⟩
  · rw [List.length_erase_of_mem (white key isWhite)]
    omega
  · intro other stillWhite
    have different : other ≠ key := by
      rintro rfl
      rw [enter_self] at stillWhite
      cases stillWhite
    exact (List.mem_erase_of_ne different).mpr
      (white other (darker_enter search key other stillWhite))

theorem not_white_of_within {search : Search} {key : Key} (within : WhiteWithin search 0) :
    search.colour key ≠ some .white := by
  rcases within with ⟨keys, length, white⟩
  intro isWhite
  have membership := white key isWhite
  rw [List.length_eq_zero_iff.mp (Nat.le_zero.mp length)] at membership
  cases membership

theorem darker_foldl (darker : ∀ key search, Darker search (visit key search).2)
    (keys : List Key) (state : Option (List Key) × Search) :
    Darker state.2 (keys.foldl (explore visit) state).2 := by
  induction keys generalizing state with
  | nil => exact fun _ => id
  | cons key rest ih =>
      intro other isWhite
      have atHead := ih (explore visit state key) other isWhite
      unfold explore at atHead
      split at atHead
      · exact atHead
      · split at atHead
        · exact atHead
        · split at atHead
          · exact darker key state.2 other atHead
          · exact atHead

theorem darker_visit (deps : KeyMap (List Key)) (fuel : Nat) (key : Key) (search : Search) :
    Darker search (FindCycle.visit deps fuel key search).2 := by
  induction fuel generalizing key search with
  | zero => exact fun _ => id
  | succ fuel ih =>
      rw [visit_succ]
      intro other isWhite
      apply darker_enter search key
      apply darker_foldl ih (deps key) (none, search.enter key)
      unfold finish at isWhite
      split at isWhite
      · exact isWhite
      · exact darker_leave _ key other isWhite

/-- Two searches that agree as long as few keys are white run the same loop. -/
theorem foldl_explore_congr {bound : Nat}
    (darker : ∀ key search, Darker search (visit key search).2)
    (same : ∀ key search, search.colour key = some .white → WhiteWithin search bound →
      visit key search = visit' key search)
    (keys : List Key) (state : Option (List Key) × Search) (within : WhiteWithin state.2 bound) :
    keys.foldl (explore visit) state = keys.foldl (explore visit') state := by
  induction keys generalizing state with
  | nil => rfl
  | cons key rest ih =>
      have atHead : explore visit state key = explore visit' state key := by
        unfold explore
        split
        · rfl
        · split
          · rfl
          · split
            · next isWhite => exact same key state.2 isWhite within
            · rfl
      rw [List.foldl_cons, List.foldl_cons, ← atHead]
      exact ih _ ((darker_foldl darker [key] state).within within)

/-- Every bound that covers the white keys gives the same search. -/
theorem visit_fuel (deps : KeyMap (List Key)) {fuel fuel' : Nat} {key : Key} {search : Search}
    (isWhite : search.colour key = some .white) (within : WhiteWithin search fuel)
    (within' : WhiteWithin search fuel') :
    FindCycle.visit deps fuel key search = FindCycle.visit deps fuel' key search := by
  induction fuel generalizing fuel' key search with
  | zero => exact absurd isWhite (not_white_of_within within)
  | succ fuel ih =>
      cases fuel' with
      | zero => exact absurd isWhite (not_white_of_within within')
      | succ fuel' =>
          rw [visit_succ, visit_succ]
          congr 1
          rcases within.enter isWhite with ⟨keys, length, white⟩
          rcases within'.enter isWhite with ⟨keys', length', white'⟩
          -- the smaller of the two bounds covers the white keys as well
          have both : WhiteWithin (search.enter key) (min fuel fuel') := by
            rcases Nat.le_total fuel fuel' with less | less
            · exact ⟨keys, by omega, white⟩
            · exact ⟨keys', by omega, white'⟩
          apply foldl_explore_congr (darker_visit deps fuel) _ _ _ both
          rintro dep next depWhite ⟨left, leftLength, leftWhite⟩
          exact ih depWhite ⟨left, by omega, leftWhite⟩ ⟨left, by omega, leftWhite⟩

theorem fromCandidates_fuel (deps : KeyMap (List Key)) {fuel fuel' : Nat} (candidates : List Key)
    {search : Search} (within : WhiteWithin search fuel) (within' : WhiteWithin search fuel') :
    fromCandidates deps fuel candidates search = fromCandidates deps fuel' candidates search := by
  induction candidates generalizing search with
  | nil => rfl
  | cons key rest ih =>
      unfold fromCandidates
      split
      · next isWhite =>
          rw [← visit_fuel deps isWhite within within']
          have darker := darker_visit deps fuel key search
          cases visited : FindCycle.visit deps fuel key search with
          | mk found next =>
              rw [visited] at darker
              cases found with
              | some cycle => rfl
              | none => exact ih (darker.within within) (darker.within within')
      · exact ih within within'

/-! ## What the search keeps -/

variable {tasks : List DagTask} {search : Search} {done : List Key}

/-- A cycle along dependencies, its first key repeated at the end. -/
def IsCycle (tasks : List DagTask) (cycle : List Key) : Prop :=
  ∃ first rest, cycle = first :: rest ++ [first] ∧ rest ≠ [] ∧ (first :: rest).Nodup ∧
    cycle.IsChain fun key dep => Needs tasks key dep

/-- The invariant of the search; `done` are the black keys in the order in which
they were left. -/
structure Inv (tasks : List DagTask) (search : Search) (done : List Key) : Prop where
  coloured : ∀ key ∈ tasks.map (·.key), search.colour key ≠ none
  grey : ∀ key, search.colour key = some .grey ↔ key ∈ search.path
  black : ∀ key, search.colour key = some .black ↔ key ∈ done
  nodup : search.path.Nodup
  linked : search.path.IsChain fun key dep => Needs tasks key dep
  sorted : Sorted (Needs tasks) done

/-- Where the search stands when it enters `key`. -/
def Follows (tasks : List DagTask) (path : List Key) (key : Key) : Prop :=
  ∀ last ∈ path.getLast?, Needs tasks last key

theorem foldl_white (tasks : List DagTask) (map : KeyMap (Option Colour)) (key : Key) :
    tasks.foldl (fun map task => map.set task.key (some .white)) map key =
      if key ∈ tasks.map (·.key) then some .white else map key := by
  induction tasks generalizing map with
  | nil => rfl
  | cons task rest ih =>
      rw [List.foldl_cons, ih, List.map_cons]
      by_cases same : key = task.key
      · simp [same]
      · simp [KeyMap.set_of_ne _ _ same, same]

theorem allWhite_eq (tasks : List DagTask) (key : Key) :
    allWhite tasks key = if key ∈ tasks.map (·.key) then some .white else none :=
  foldl_white tasks _ key

theorem inv_start : Inv tasks ⟨allWhite tasks, []⟩ [] := by
  have white_or_none : ∀ key colour, allWhite tasks key = some colour → colour = .white := by
    intro key colour found
    rw [allWhite_eq] at found
    split at found
    · exact (Option.some.inj found).symm
    · cases found
  constructor
  · intro key isKey absent
    have white := (allWhite_eq tasks key).trans (if_pos isKey)
    cases white.symm.trans absent
  · intro key
    constructor
    · intro isGrey
      cases white_or_none key _ isGrey
    · exact nofun
  · intro key
    constructor
    · intro isBlack
      cases white_or_none key _ isBlack
    · exact nofun
  · exact .nil
  · exact .nil
  · exact .nil

theorem depsOf_eq (nodup : (tasks.map (·.key)).Nodup) {task : DagTask}
    (membership : task ∈ tasks) : depsOf tasks task.key = task.deps :=
  foldl_set_of_mem DagTask.key DagTask.deps nodup _ membership

theorem whiteWithin_start : WhiteWithin ⟨allWhite tasks, []⟩ tasks.length := by
  refine ⟨tasks.map (·.key), by rw [List.length_map], ?_⟩
  intro key isWhite
  by_contra other
  cases ((allWhite_eq tasks key).trans (if_neg other)).symm.trans isWhite

theorem Inv.enter (inv : Inv tasks search done) {key : Key}
    (isWhite : search.colour key = some .white) (follows : Follows tasks search.path key) :
    Inv tasks (search.enter key) done := by
  have notGrey : key ∉ search.path := by
    rw [← inv.grey, isWhite]
    exact nofun
  have notBlack : key ∉ done := by
    rw [← inv.black, isWhite]
    exact nofun
  constructor
  · intro other isKey
    by_cases same : other = key
    · rw [same, enter_self]
      exact nofun
    · rw [enter_of_ne _ _ same]
      exact inv.coloured other isKey
  · intro other
    by_cases same : other = key
    · simp [same]
    · simp [enter_of_ne _ _ same, inv.grey, same]
  · intro other
    by_cases same : other = key
    · simp [same, notBlack]
    · simp [enter_of_ne _ _ same, inv.black]
  · apply List.nodup_append.mpr
    refine ⟨inv.nodup, List.nodup_singleton key, ?_⟩
    intro other isOther last isLast same
    exact notGrey (List.mem_singleton.mp isLast ▸ same ▸ isOther)
  · apply List.isChain_append.mpr
    refine ⟨inv.linked, .singleton key, ?_⟩
    intro last isLast head isHead
    cases Option.some.inj isHead
    exact follows last isLast
  · exact inv.sorted

theorem Inv.leave {path : List Key} {key : Key} (inv : Inv tasks search done)
    (atKey : search.path = path ++ [key]) (explored : ∀ dep, Needs tasks key dep → dep ∈ done) :
    Inv tasks (search.leave key) (done ++ [key]) ∧ (search.leave key).path = path := by
  have path_eq : (search.leave key).path = path := by
    rw [leave_path, atKey, List.dropLast_concat]
  have nodup := inv.nodup
  rw [atKey, List.nodup_append] at nodup
  have notInPath : key ∉ path := fun again =>
    nodup.2.2 key again key (List.mem_singleton.mpr rfl) rfl
  have isGrey : search.colour key = some .grey := by
    rw [inv.grey, atKey]
    exact List.mem_append_right _ (List.mem_singleton.mpr rfl)
  have notDone : key ∉ done := by
    rw [← inv.black, isGrey]
    exact nofun
  refine ⟨?_, path_eq⟩
  constructor
  · intro other isKey
    by_cases same : other = key
    · rw [same, leave_self]
      exact nofun
    · rw [leave_of_ne _ _ same]
      exact inv.coloured other isKey
  · intro other
    rw [path_eq]
    by_cases same : other = key
    · simp [same, notInPath]
    · simp [leave_of_ne _ _ same, inv.grey, atKey, same]
  · intro other
    by_cases same : other = key
    · simp [same]
    · simp [leave_of_ne _ _ same, inv.black, same]
  · rw [path_eq]
    exact nodup.1
  · rw [path_eq]
    have linked := inv.linked
    rw [atKey] at linked
    exact (List.isChain_append.mp linked).1
  · exact inv.sorted.snoc notDone explored

/-! ## A reached grey key closes a cycle -/

/-- Walking back into the path closes a cycle. -/
theorem Inv.cycle {path : List Key} {key dep : Key} (inv : Inv tasks search done)
    (atKey : search.path = path ++ [key]) (isGrey : search.colour dep = some .grey)
    (needed : Needs tasks key dep) (other : dep ≠ key) :
    IsCycle tasks (search.path.dropWhile (· ≠ dep) ++ [dep]) := by
  have inPath := (inv.grey dep).mp isGrey
  rcases List.append_of_mem inPath with ⟨before, after, split⟩
  have nodup := inv.nodup
  have linked := inv.linked
  rw [split] at nodup linked
  have first : dep ∉ before := fun again =>
    (List.nodup_append.mp nodup).2.2 dep again dep List.mem_cons_self rfl
  have dropped : search.path.dropWhile (· ≠ dep) = dep :: after := by
    rw [split, List.dropWhile_append_of_pos, List.dropWhile_cons_of_neg]
    · simp
    · intro key isBefore
      have different : key ≠ dep := fun same => first (same ▸ isBefore)
      simpa using different
  have last : (dep :: after).getLast? = some key := by
    have whole : search.path.getLast? = some key := by rw [atKey, List.getLast?_concat]
    rw [split, List.getLast?_append_of_ne_nil _ (List.cons_ne_nil dep after)] at whole
    exact whole
  have tail := (List.isChain_append.mp linked).2.1
  rw [dropped]
  refine ⟨dep, after, rfl, ?_, (List.nodup_append.mp nodup).2.1, ?_⟩
  · rintro rfl
    exact other (Option.some.inj last)
  · apply List.isChain_append.mpr
    refine ⟨tail, .singleton dep, ?_⟩
    intro final isFinal head isHead
    rw [last] at isFinal
    cases Option.some.inj isFinal
    cases Option.some.inj isHead
    exact needed

/-! ## One call of the search -/

/-- What a search answers that started with the black keys `done`: a cycle, or that
the searched keys lead to none. -/
def Answers (tasks : List DagTask) (done path searched : List Key)
    (answer : Option (List Key) × Search) : Prop :=
  match answer.1 with
  | some found => IsCycle tasks found
  | none => ∃ more, Inv tasks answer.2 (done ++ more) ∧ answer.2.path = path ∧
      ∀ key ∈ searched, key ∈ done ++ more

section Search

variable (known : ∀ key dep, Needs tasks key dep → dep ∈ tasks.map (·.key))
  (noSelf : ∀ key, ¬ Needs tasks key key)

include known noSelf

/-- The loop over the dependencies of the key that ends the path. -/
theorem foldl_explore_answers {bound : Nat} {path : List Key} {key : Key}
    (darker : ∀ key search, Darker search (visit key search).2)
    (answers : ∀ dep search done, Inv tasks search done → search.colour dep = some .white →
      WhiteWithin search bound → dep ∈ tasks.map (·.key) → Follows tasks search.path dep →
      Answers tasks done search.path [dep] (visit dep search))
    (deps : List Key) (areDeps : ∀ dep ∈ deps, Needs tasks key dep)
    (within : WhiteWithin search bound) (inv : Inv tasks search done)
    (atKey : search.path = path ++ [key]) :
    Answers tasks done (path ++ [key]) deps (deps.foldl (explore visit) (none, search)) := by
  induction deps generalizing search done with
  | nil =>
      refine ⟨[], ?_, atKey, nofun⟩
      rwa [List.append_nil]
  | cons dep rest ih =>
      have needed := areDeps dep List.mem_cons_self
      have restDeps : ∀ dep ∈ rest, Needs tasks key dep := fun dep membership =>
        areDeps dep (List.mem_cons_of_mem _ membership)
      rw [List.foldl_cons]
      by_cases isGrey : search.colour dep = some .grey
      · have other : dep ≠ key := by
          rintro rfl
          exact noSelf dep needed
        rw [explore, if_pos isGrey, foldl_explore_found]
        exact inv.cycle atKey isGrey needed other
      · by_cases isWhite : search.colour dep = some .white
        · have follows : Follows tasks search.path dep := by
            intro last isLast
            rw [atKey, List.getLast?_concat] at isLast
            cases Option.some.inj isLast
            exact needed
          have visited := answers dep search done inv isWhite within (known key dep needed) follows
          have next_within := (darker dep search).within within
          rw [explore, if_neg isGrey, if_pos isWhite]
          cases answer : visit dep search with
          | mk found next =>
              rw [answer] at visited next_within
              cases found with
              | some cycle =>
                  rw [foldl_explore_found]
                  exact visited
              | none =>
                  rcases visited with ⟨more, nextInv, samePath, isDone⟩
                  have later := ih restDeps next_within nextInv (samePath.trans atKey)
                  unfold Answers at later ⊢
                  split
                  · next found isFound =>
                      rw [isFound] at later
                      exact later
                  · next isNone =>
                      rw [isNone] at later
                      rcases later with ⟨evenMore, lastInv, lastPath, allDone⟩
                      rw [List.append_assoc] at lastInv allDone
                      refine ⟨more ++ evenMore, lastInv, lastPath, ?_⟩
                      intro other membership
                      rcases List.mem_cons.mp membership with rfl | inRest
                      · rw [← List.append_assoc]
                        exact List.mem_append_left _ (isDone other (List.mem_singleton.mpr rfl))
                      · exact allDone other inRest
        · -- the dependency is black
          have isDone : dep ∈ done := by
            rw [← inv.black]
            cases colour : search.colour dep with
            | none => exact absurd colour (inv.coloured dep (known key dep needed))
            | some shade =>
                cases shade with
                | white => exact absurd colour isWhite
                | grey => exact absurd colour isGrey
                | black => rfl
          have later := ih restDeps within inv atKey
          rw [explore, if_neg isGrey, if_neg isWhite]
          unfold Answers at later ⊢
          split
          · next found isFound =>
              rw [isFound] at later
              exact later
          · next isNone =>
              rw [isNone] at later
              rcases later with ⟨more, lastInv, lastPath, allDone⟩
              refine ⟨more, lastInv, lastPath, ?_⟩
              intro other membership
              rcases List.mem_cons.mp membership with rfl | inRest
              · exact List.mem_append_left _ isDone
              · exact allDone other inRest

/-- A call of `visit` on a white key. -/
theorem visit_answers (nodup : (tasks.map (·.key)).Nodup) (fuel : Nat) (key : Key)
    (search : Search) (done : List Key) (inv : Inv tasks search done)
    (isWhite : search.colour key = some .white) (within : WhiteWithin search fuel)
    (isKey : key ∈ tasks.map (·.key)) (follows : Follows tasks search.path key) :
    Answers tasks done search.path [key] (FindCycle.visit (depsOf tasks) fuel key search) := by
  induction fuel generalizing key search done with
  | zero => exact absurd isWhite (not_white_of_within within)
  | succ fuel ih =>
      rcases List.mem_map.mp isKey with ⟨task, membership, rfl⟩
      have areDeps : ∀ dep ∈ depsOf tasks task.key, Needs tasks task.key dep := by
        intro dep isDep
        rw [depsOf_eq nodup membership] at isDep
        exact ⟨task, membership, rfl, isDep⟩
      have loop := foldl_explore_answers known noSelf (darker_visit (depsOf tasks) fuel)
        (fun dep next done inv isWhite within isKey follows =>
          ih dep next done inv isWhite within isKey follows)
        (depsOf tasks task.key) areDeps (within.enter isWhite) (inv.enter isWhite follows)
        (enter_path search task.key)
      rw [visit_succ]
      unfold Answers at loop ⊢
      unfold finish
      cases explored : (depsOf tasks task.key).foldl
          (explore (FindCycle.visit (depsOf tasks) fuel)) (none, search.enter task.key) with
      | mk found next =>
          rw [explored] at loop
          cases found with
          | some cycle => exact loop
          | none =>
              rcases loop with ⟨more, nextInv, atKey, allDone⟩
              have explored : ∀ dep, Needs tasks task.key dep → dep ∈ done ++ more := by
                intro dep needed
                apply allDone
                rw [depsOf_eq nodup membership]
                exact (Kahn.needs_key nodup membership).mp needed
              rcases nextInv.leave atKey explored with ⟨lastInv, lastPath⟩
              rw [List.append_assoc] at lastInv
              refine ⟨more ++ [task.key], lastInv, lastPath, ?_⟩
              intro other isOther
              rw [List.mem_singleton.mp isOther, ← List.append_assoc]
              exact List.mem_append_right _ (List.mem_singleton.mpr rfl)

/-- The searches from all candidates. -/
theorem fromCandidates_answers (nodup : (tasks.map (·.key)).Nodup) (fuel : Nat)
    (candidates : List Key) (areKeys : ∀ key ∈ candidates, key ∈ tasks.map (·.key))
    (inv : Inv tasks search done) (within : WhiteWithin search fuel) (atRoot : search.path = []) :
    match fromCandidates (depsOf tasks) fuel candidates search with
    | some found => IsCycle tasks found
    | none => ∃ all, Sorted (Needs tasks) all ∧ (∀ key ∈ done, key ∈ all) ∧
        ∀ key ∈ candidates, key ∈ all := by
  induction candidates generalizing search done with
  | nil => exact ⟨done, inv.sorted, fun _ => id, nofun⟩
  | cons key rest ih =>
      have restKeys : ∀ key ∈ rest, key ∈ tasks.map (·.key) := fun key membership =>
        areKeys key (List.mem_cons_of_mem _ membership)
      have isKey := areKeys key List.mem_cons_self
      unfold fromCandidates
      by_cases isWhite : search.colour key = some .white
      · have follows : Follows tasks search.path key := by
          rw [atRoot]
          exact nofun
        have visited := visit_answers known noSelf nodup fuel key search done inv isWhite within
          isKey follows
        have darker := darker_visit (depsOf tasks) fuel key search
        rw [if_pos isWhite]
        cases answer : FindCycle.visit (depsOf tasks) fuel key search with
        | mk found next =>
            rw [answer] at visited darker
            cases found with
            | some cycle => exact visited
            | none =>
                rcases visited with ⟨more, nextInv, samePath, isDone⟩
                have later := ih restKeys nextInv (darker.within within)
                  (samePath.trans atRoot)
                dsimp only
                split
                · next found isFound =>
                    rw [isFound] at later
                    exact later
                · next isNone =>
                    rw [isNone] at later
                    rcases later with ⟨all, sorted, kept, restDone⟩
                    refine ⟨all, sorted, fun other isOther =>
                      kept other (List.mem_append_left _ isOther), ?_⟩
                    intro other membership
                    rcases List.mem_cons.mp membership with rfl | inRest
                    · exact kept other (isDone other (List.mem_singleton.mpr rfl))
                    · exact restDone other inRest
      · have later := ih restKeys inv within atRoot
        have isDone : key ∈ done := by
          rw [← inv.black]
          cases colour : search.colour key with
          | none => exact absurd colour (inv.coloured key isKey)
          | some shade =>
              cases shade with
              | white => exact absurd colour isWhite
              | grey =>
                  have inPath := (inv.grey key).mp colour
                  rw [atRoot] at inPath
                  cases inPath
              | black => rfl
        rw [if_neg isWhite]
        split
        · next found isFound =>
            rw [isFound] at later
            exact later
        · next isNone =>
            rw [isNone] at later
            rcases later with ⟨all, sorted, kept, restDone⟩
            refine ⟨all, sorted, kept, ?_⟩
            intro other membership
            rcases List.mem_cons.mp membership with rfl | inRest
            · exact kept other isDone
            · exact restDone other inRest

end Search

end FindCycle

end WorkflowEngine
