import WorkflowEngine.Ai.Agent.Tools
import WorkflowEngine.Workers.Handlers

/-!
# Names that a prototype knows

Handlers and tools are looked up in plain objects, which also have the properties of
`Object.prototype`.  A name of these is taken for a registered one.
-/

open Text Objects

namespace WorkflowEngine

/-! ## Task types -/

section Handlers

variable {Val : Type}

/-- A failure that is not retried is reported, and nothing else. -/
def ReportsUnknown (claimed : Started Val) (report : Op Val) : Prop :=
  ∃ error, report = .failTask claimed.task.id claimed.task.leaseToken (some error) ∧
    isRetryable (some error) = false

/-- The only property of `Object.prototype` that may be a task type. -/
theorem eq_constructor_of_typePattern {type : String} (admitted : typePattern type = true)
    (inherited : type ∈ objectPrototype) : type = "constructor" := by
  have only : ∀ name ∈ objectPrototype, typePattern name = true → name = "constructor" := by
    decide
  exact only type inherited admitted

theorem reportsUnknown_iff [Mixed Val] (runtime : Runtime Val) {handlers : HandlerTable Val}
    {claimed : Started Val} (admitted : typePattern claimed.task.type = true)
    (unregistered : claimed.task.type ∉ handlers.keys) :
    ReportsUnknown claimed (runTaskWith runtime handlers claimed) ↔
      claimed.task.type ≠ "constructor" := by
  by_cases inherited : claimed.task.type ∈ objectPrototype
  · have isConstructor := eq_constructor_of_typePattern admitted inherited
    have found : find objectPrototype handlers claimed.task.type = .inherited claimed.task.type :=
      find_eq_inherited_iff.mpr ⟨unregistered, inherited, rfl⟩
    have completed : runTaskWith runtime handlers claimed =
        .completeTask claimed.task.id claimed.task.leaseToken (runtime.context claimed) := by
      rw [runTaskWith, runHandler, found]
      dsimp only
      rw [callInherited, if_pos isConstructor]
      rfl
    rw [completed]
    constructor
    · rintro ⟨error, same, -⟩
      cases same
    · intro differs
      exact absurd isConstructor differs
  · have found : find objectPrototype handlers claimed.task.type = .missing :=
      find_eq_missing_iff.mpr ⟨unregistered, inherited⟩
    constructor
    · rintro - isConstructor
      rw [isConstructor] at inherited
      exact inherited (by decide)
    · intro
      rw [runTaskWith, runHandler, found]
      exact ⟨_, rfl, rfl⟩

end Handlers

/-! ## Permissions -/

/-- The role may use the tool. -/
def Permits (role : Text) (tool : Tool) : Prop :=
  tool.permission = none ∨ ∃ permission permissions, tool.permission = some permission ∧
    rolePermissionsTable.get role = some permissions ∧ permission ∈ permissions

/-- No role is a property of `Object.prototype`. -/
theorem not_mem_roles {role : Text} (inherited : role ∈ prototypeNames) :
    role ∉ rolePermissionsTable.keys := by
  have apart : ∀ name ∈ prototypeNames, name ∉ rolePermissionsTable.keys := by decide
  exact apart role inherited

theorem hasPermissionText_throws_iff {role : Text} {permission : Permission} :
    (∃ message, hasPermissionText role permission = .error message) ↔ role ∈ prototypeNames := by
  rw [hasPermissionText]
  constructor
  · rintro ⟨message, threw⟩
    split at threw
    · cases threw
    · next found => exact (find_eq_inherited_iff.mp found).2.1
    · cases threw
  · intro inherited
    rw [find_eq_inherited_iff.mpr ⟨not_mem_roles inherited, inherited, rfl⟩]
    exact ⟨_, rfl⟩

theorem hasPermissionText_ok_iff {role : Text} {permission : Permission} :
    hasPermissionText role permission = .ok true ↔
      ∃ permissions, rolePermissionsTable.get role = some permissions ∧
        permission ∈ permissions := by
  rw [hasPermissionText]
  constructor
  · intro permitted
    split at permitted
    · next permissions found =>
        rw [Except.ok.injEq, decide_eq_true_eq] at permitted
        exact ⟨permissions, find_eq_own_iff.mp found, permitted⟩
    · cases permitted
    · cases permitted
  · rintro ⟨permissions, found, membership⟩
    rw [find_eq_own_iff.mpr found]
    exact congrArg Except.ok (decide_eq_true membership)

/-! ## One name -/

section Tools

variable {registry : Registry} {role : Text} {names : List Text} {name : Text}

/-- The check of a permission throws. -/
def Breaks (registry : Registry) (role name : Text) : Prop :=
  role ∈ prototypeNames ∧ ∃ tool, registry.get name = some tool ∧ tool.permission ≠ none

/-- The name gets into the allowed tools. -/
def Takes (registry : Registry) (role name : Text) : Prop :=
  name ≠ protoName ∧ (name ∉ registry.keys ∨
    ∃ tool, registry.get name = some tool ∧ Permits role tool)

/-- The tool is registered and not permitted. -/
def Refuses (registry : Registry) (role name : Text) : Prop :=
  ∃ tool, registry.get name = some tool ∧ ¬ Permits role tool

/-- What has been selected from these names. -/
structure Selected (registry : Registry) (role : Text) (names : List Text)
    (selection : Selection) : Prop where
  allowed : ∀ name found, (name, found) ∈ selection.allowed ↔
    name ∈ names ∧ Takes registry role name ∧ found = find prototypeNames registry name
  denied : ∀ name, name ∈ selection.denied ↔ name ∈ names ∧ Refuses registry role name

theorem Selected.allow {selection : Selection} (selected : Selected registry role names selection)
    {found : Found Text Tool} (isFound : find prototypeNames registry name = found)
    (takes : name ≠ protoName → Takes registry role name)
    (permitted : ¬ Refuses registry role name) :
    Selected registry role (names ++ [name]) (selection.allow name found) := by
  constructor
  · intro other value
    rw [Selection.allow, List.mem_append, List.mem_singleton]
    split
    · next isProto =>
        rw [selected.allowed other value]
        constructor
        · rintro ⟨membership, rest⟩
          exact ⟨.inl membership, rest⟩
        · rintro ⟨membership | rfl, rest⟩
          · exact ⟨membership, rest⟩
          · exact absurd isProto rest.1.1
    · next notProto =>
        rw [mem_assign, selected.allowed other value]
        constructor
        · rintro (⟨rfl, rfl⟩ | ⟨-, membership, rest⟩)
          · exact ⟨.inr rfl, takes notProto, isFound.symm⟩
          · exact ⟨.inl membership, rest⟩
        · rintro ⟨membership, rest⟩
          by_cases same : other = name
          · refine .inl ⟨same, ?_⟩
            rw [rest.2, same, isFound]
          · exact .inr ⟨same, membership.resolve_right same, rest⟩
  · intro other
    have unchanged : (selection.allow name found).denied = selection.denied := by
      rw [Selection.allow]
      split
      · rfl
      · rfl
    rw [unchanged, selected.denied, List.mem_append, List.mem_singleton]
    constructor
    · rintro ⟨membership, refused⟩
      exact ⟨.inl membership, refused⟩
    · rintro ⟨membership | rfl, refused⟩
      · exact ⟨membership, refused⟩
      · exact absurd refused permitted

theorem Selected.deny {selection : Selection} (selected : Selected registry role names selection)
    (refused : Refuses registry role name) (left_out : ¬ Takes registry role name) :
    Selected registry role (names ++ [name]) (selection.deny name) := by
  constructor
  · intro other value
    rw [Selection.deny, selected.allowed, List.mem_append, List.mem_singleton]
    constructor
    · rintro ⟨membership, rest⟩
      exact ⟨.inl membership, rest⟩
    · rintro ⟨membership | rfl, rest⟩
      · exact ⟨membership, rest⟩
      · exact absurd rest.1 left_out
  · intro other
    rw [Selection.deny, List.mem_append, selected.denied, List.mem_append, List.mem_singleton]
    constructor
    · rintro (⟨membership, rest⟩ | rfl)
      · exact ⟨.inl membership, rest⟩
      · exact ⟨.inr rfl, refused⟩
    · rintro ⟨membership | rfl, rest⟩
      · exact .inl ⟨membership, rest⟩
      · exact .inr rfl

theorem mem_keys_of_get {tool : Tool} (found : registry.get name = some tool) :
    name ∈ registry.keys :=
  mem_keys_iff.mpr ⟨tool, found⟩

/-- What one turn of the loop does, and when it throws. -/
theorem selectTool_spec {selection : Selection}
    (selected : Selected registry role names selection) :
    (∃ selection', selectTool registry role selection name = .ok selection' ∧
      Selected registry role (names ++ [name]) selection' ∧
      (name ∈ registry.keys ∨ name ∈ prototypeNames) ∧ ¬ Breaks registry role name) ∨
    (∃ message, selectTool registry role selection name = .error message) ∧
      ((name ∉ registry.keys ∧ name ∉ prototypeNames) ∨ Breaks registry role name) := by
  rw [selectTool]
  cases found : find prototypeNames registry name with
  | missing => exact .inr ⟨⟨_, rfl⟩, .inl (find_eq_missing_iff.mp found)⟩
  | inherited other =>
      rcases find_eq_inherited_iff.mp found with ⟨unregistered, inherited, -⟩
      refine .inl ⟨_, rfl, selected.allow found ?_ ?_, .inr inherited, ?_⟩
      · intro notProto
        exact ⟨notProto, .inl unregistered⟩
      · rintro ⟨tool, registered, -⟩
        exact unregistered (mem_keys_of_get registered)
      · rintro ⟨-, tool, registered, -⟩
        exact unregistered (mem_keys_of_get registered)
  | own tool =>
      have registered := find_eq_own_iff.mp found
      have permitted_of : Permits role tool → (name ≠ protoName → Takes registry role name) ∧
          ¬ Refuses registry role name := by
        intro permits
        constructor
        · intro notProto
          exact ⟨notProto, .inr ⟨tool, registered, permits⟩⟩
        · rintro ⟨other, registered', refused⟩
          rw [registered] at registered'
          cases registered'
          exact refused permits
      dsimp only
      cases asks : tool.permission with
      | none =>
          have permits := permitted_of (.inl asks)
          refine .inl ⟨_, rfl, selected.allow found permits.1 permits.2,
            .inl (mem_keys_of_get registered), ?_⟩
          rintro ⟨-, other, registered', asks'⟩
          rw [registered] at registered'
          cases registered'
          exact asks' asks
      | some permission =>
          dsimp only
          cases checked : hasPermissionText role permission with
          | error message =>
              refine .inr ⟨⟨message, rfl⟩, .inr ⟨?_, tool, registered, ?_⟩⟩
              · exact hasPermissionText_throws_iff.mp ⟨message, checked⟩
              · rw [asks]
                exact Option.some_ne_none permission
          | ok permitted =>
              have sound : ¬ Breaks registry role name := by
                rintro ⟨inherited, -⟩
                rcases hasPermissionText_throws_iff.mpr inherited with ⟨message, threw⟩
                rw [checked] at threw
                cases threw
              cases permitted with
              | true =>
                  rcases hasPermissionText_ok_iff.mp checked with ⟨permissions, isRole, granted⟩
                  have permits := permitted_of (.inr ⟨permission, permissions, asks, isRole, granted⟩)
                  exact .inl ⟨_, rfl, selected.allow found permits.1 permits.2,
                    .inl (mem_keys_of_get registered), sound⟩
              | false =>
                  have refused : ¬ Permits role tool := by
                    rintro (none_ | ⟨permission', permissions, asks', isRole, granted⟩)
                    · rw [asks] at none_
                      cases none_
                    · rw [asks] at asks'
                      cases asks'
                      have allowed := hasPermissionText_ok_iff.mpr ⟨permissions, isRole, granted⟩
                      rw [checked] at allowed
                      cases allowed
                  refine .inl ⟨_, rfl, selected.deny ⟨tool, registered, refused⟩ ?_,
                    .inl (mem_keys_of_get registered), sound⟩
                  rintro ⟨-, unregistered | ⟨other, registered', permits⟩⟩
                  · exact unregistered (mem_keys_of_get registered)
                  · rw [registered] at registered'
                    cases registered'
                    exact refused permits

/-! ## The whole list -/

/-- The name is neither registered nor a property of `Object.prototype`. -/
def Unknown (registry : Registry) (name : Text) : Prop :=
  name ∉ registry.keys ∧ name ∉ prototypeNames

/-- What the loop has selected, and when it throws. -/
theorem selectLoop_spec (registry : Registry) (role : Text) (names : List Text) :
    (∃ selection, names.foldlM (selectTool registry role) .empty = .ok selection ∧
      Selected registry role names selection ∧
      ∀ name ∈ names, ¬ Unknown registry name ∧ ¬ Breaks registry role name) ∨
    (∃ message, names.foldlM (selectTool registry role) .empty = .error message) ∧
      ∃ name ∈ names, Unknown registry name ∨ Breaks registry role name := by
  induction names using List.reverseRecOn with
  | nil =>
      refine .inl ⟨_, rfl, ⟨?_, ?_⟩, List.forall_mem_nil _⟩
      · intro name found
        exact iff_of_false List.not_mem_nil fun both => List.not_mem_nil both.1
      · intro name
        exact iff_of_false List.not_mem_nil fun both => List.not_mem_nil both.1
  | append_singleton names name ih =>
      rw [List.foldlM_append]
      rcases ih with ⟨selection, ran, selected, fine⟩ | ⟨⟨message, threw⟩, other, membership, why⟩
      · rw [ran]
        have step : [name].foldlM (selectTool registry role) selection =
            selectTool registry role selection name := by
          rw [List.foldlM_cons]
          exact bind_pure _
        rcases selectTool_spec selected with
          ⟨selection', ran', selected', known, sound⟩ | ⟨⟨message, threw⟩, why⟩
        · refine .inl ⟨selection', step.trans ran', selected', ?_⟩
          intro other membership
          cases List.mem_append.mp membership with
          | inl earlier => exact fine other earlier
          | inr last =>
              rw [List.mem_singleton.mp last]
              refine ⟨?_, sound⟩
              rintro ⟨unregistered, plain⟩
              exact known.elim unregistered plain
        · exact .inr ⟨⟨message, step.trans threw⟩, name,
            List.mem_append_right _ List.mem_cons_self, why⟩
      · rw [threw]
        exact .inr ⟨⟨message, rfl⟩, other, List.mem_append_left _ membership, why⟩

theorem mem_unknownTools : name ∈ unknownTools registry names ↔
    name ∈ names ∧ Unknown registry name := by
  rw [unknownTools, List.mem_filter, Unknown, ← find_eq_missing_iff]
  apply and_congr_right
  intro
  constructor
  · intro isUnknown
    split at isUnknown
    · assumption
    · cases isUnknown
  · intro found
    rw [found]

theorem selectTools_spec (registry : Registry) (allowlist : Option (List Text)) (role : Text) :
    (∃ selection, selectTools registry allowlist role = .ok selection ∧
      Selected registry role (toolNames registry allowlist) selection ∧
      ∀ name ∈ toolNames registry allowlist, ¬ Unknown registry name ∧ ¬ Breaks registry role name) ∨
    (∃ message, selectTools registry allowlist role = .error message) ∧
      ∃ name ∈ toolNames registry allowlist, Unknown registry name ∨ Breaks registry role name := by
  rw [selectTools]
  split
  · next some_ =>
      rcases List.exists_mem_of_ne_nil _ some_ with ⟨name, membership⟩
      rcases mem_unknownTools.mp membership with ⟨listed, isUnknown⟩
      exact .inr ⟨⟨_, rfl⟩, name, listed, .inl isUnknown⟩
  · exact selectLoop_spec registry role _

/-! ## Registrations only -/

/-- The selection follows the registrations: it throws for names that are not registered
and otherwise divides the names into permitted tools and the rest. -/
structure Resolves (registry : Registry) (names : List Text) (role : Text)
    (result : Except Text Selection) : Prop where
  throws : (∃ message, result = .error message) ↔ ∃ name ∈ names, name ∉ registry.keys
  allowed : ∀ selection, result = .ok selection → ∀ name found,
    (name, found) ∈ selection.allowed ↔ name ∈ names ∧
      ∃ tool, registry.get name = some tool ∧ Permits role tool ∧ found = .own tool
  denied : ∀ selection, result = .ok selection → ∀ name,
    name ∈ selection.denied ↔ name ∈ names ∧ name ∉ selection.allowed.keys

/-- Some name is known to nobody; or the role breaks the check of a permission and some
name is not registered either; or all names are registered, no check breaks, and a tool
with the name `__proto__` is not permitted. -/
def Unambiguous (registry : Registry) (names : List Text) (role : Text) : Prop :=
  (∃ name ∈ names, Unknown registry name) ∨
  ((∃ name ∈ names, Breaks registry role name) ∧ ∃ name ∈ names, name ∉ registry.keys) ∨
  ((∀ name ∈ names, name ∈ registry.keys ∧ ¬ Breaks registry role name) ∧
    (protoName ∈ names → Refuses registry role protoName))

theorem Selected.mem_keys_allowed {selection : Selection}
    (selected : Selected registry role names selection) :
    name ∈ selection.allowed.keys ↔ name ∈ names ∧ Takes registry role name := by
  constructor
  · intro membership
    rcases List.mem_map.mp membership with ⟨⟨other, found⟩, inside, rfl⟩
    have taken := (selected.allowed _ _).mp inside
    exact ⟨taken.1, taken.2.1⟩
  · rintro ⟨listed, takes⟩
    have inside := (selected.allowed _ _).mpr ⟨listed, takes, rfl⟩
    exact List.mem_map_of_mem inside

theorem not_refuses {tool : Tool} (found : registry.get name = some tool)
    (permits : Permits role tool) : ¬ Refuses registry role name := by
  rintro ⟨other, found', refused⟩
  rw [found] at found'
  cases found'
  exact refused permits

/-- A selection of registered names divides them as it should. -/
theorem Selected.resolves {selection : Selection}
    (selected : Selected registry role names selection)
    (registered : ∀ name ∈ names, name ∈ registry.keys)
    (proto : protoName ∈ names → Refuses registry role protoName) :
    Resolves registry names role (.ok selection) := by
  constructor
  · constructor
    · rintro ⟨message, same⟩
      cases same
    · rintro ⟨name, listed, unregistered⟩
      exact absurd (registered name listed) unregistered
  · rintro _ ⟨⟩ name found
    rw [selected.allowed]
    constructor
    · rintro ⟨listed, ⟨-, unregistered | ⟨tool, isTool, permits⟩⟩, rfl⟩
      · exact absurd (registered name listed) unregistered
      · exact ⟨listed, tool, isTool, permits, find_eq_own_iff.mpr isTool⟩
    · rintro ⟨listed, tool, isTool, permits, rfl⟩
      refine ⟨listed, ⟨?_, .inr ⟨tool, isTool, permits⟩⟩, (find_eq_own_iff.mpr isTool).symm⟩
      rintro rfl
      exact not_refuses isTool permits (proto listed)
  · rintro _ ⟨⟩ name
    rw [selected.denied, selected.mem_keys_allowed]
    apply and_congr_right
    intro listed
    rcases mem_keys_iff.mp (registered name listed) with ⟨tool, isTool⟩
    constructor
    · rintro refused ⟨-, -, unregistered | ⟨other, isOther, permits⟩⟩
      · exact unregistered (registered name listed)
      · exact not_refuses isOther permits refused
    · intro left_out
      by_cases isProto : name = protoName
      · rw [isProto] at listed ⊢
        exact proto listed
      · refine ⟨tool, isTool, fun permits => left_out ⟨listed, isProto, .inr ⟨tool, isTool, permits⟩⟩⟩

theorem resolves_iff (registry : Registry) (allowlist : Option (List Text)) (role : Text) :
    Resolves registry (toolNames registry allowlist) role (selectTools registry allowlist role) ↔
      Unambiguous registry (toolNames registry allowlist) role := by
  rcases selectTools_spec registry allowlist role with
    ⟨selection, returned, selected, fine⟩ | ⟨⟨message, threw⟩, name, listed, why⟩
  · rw [returned]
    constructor
    · intro resolves
      have registered : ∀ name ∈ toolNames registry allowlist, name ∈ registry.keys := by
        intro name listed
        by_contra unregistered
        rcases resolves.throws.mpr ⟨name, listed, unregistered⟩ with ⟨message, same⟩
        cases same
      refine .inr (.inr ⟨fun name listed => ⟨registered name listed, (fine name listed).2⟩, ?_⟩)
      intro listed
      rcases mem_keys_iff.mp (registered _ listed) with ⟨tool, isTool⟩
      refine ⟨tool, isTool, fun permits => ?_⟩
      have inside := (resolves.allowed _ rfl _ _).mpr ⟨listed, tool, isTool, permits, rfl⟩
      exact ((selected.allowed _ _).mp inside).2.1.1 rfl
    · rintro (⟨name, listed, isUnknown⟩ | ⟨⟨name, listed, breaks⟩, -⟩ | ⟨registered, proto⟩)
      · exact absurd isUnknown (fine name listed).1
      · exact absurd breaks (fine name listed).2
      · exact selected.resolves (fun name listed => (registered name listed).1) proto
  · rw [threw]
    constructor
    · intro resolves
      have unregistered := resolves.throws.mp ⟨message, rfl⟩
      cases why with
      | inl isUnknown => exact .inl ⟨name, listed, isUnknown⟩
      | inr breaks => exact .inr (.inl ⟨⟨name, listed, breaks⟩, unregistered⟩)
    · intro clean
      refine ⟨iff_of_true ⟨message, rfl⟩ ?_, nofun, nofun⟩
      rcases clean with ⟨name, listed, isUnknown⟩ | ⟨-, unregistered⟩ | ⟨registered, -⟩
      · exact ⟨name, listed, isUnknown.1⟩
      · exact unregistered
      · cases why with
        | inl isUnknown => exact absurd (registered name listed).1 isUnknown.1
        | inr breaks => exact absurd breaks (registered name listed).2

end Tools

/-- A task type that is not registered is reported as such unless it is `constructor`, and
the tools are selected by their registrations exactly for unambiguous names. -/
theorem names_resolve_iff {Val : Type} [Mixed Val] (runtime : Runtime Val) (handlers : HandlerTable Val)
    (claimed : Started Val) (admitted : typePattern claimed.task.type = true)
    (unregistered : claimed.task.type ∉ handlers.keys) (registry : Registry)
    (allowlist : Option (List Text)) (role : Text) :
    (ReportsUnknown claimed (runTaskWith runtime handlers claimed) ↔
      claimed.task.type ≠ "constructor") ∧
    (Resolves registry (toolNames registry allowlist) role (selectTools registry allowlist role) ↔
      Unambiguous registry (toolNames registry allowlist) role) :=
  ⟨reportsUnknown_iff runtime admitted unregistered, resolves_iff registry allowlist role⟩

/-- Mixed values as texts of JSON. -/
instance : Mixed String where
  null := "null"
  emptyObject := "\x7b\x7d"
  approval _ _ decidedAt := "\x7b\"approved\":true,\"decidedAt\":" ++ toString decidedAt ++ "\x7d"

/-- A runtime whose values are texts. -/
def textRuntime : Runtime String where
  context claimed := claimed.input
  string := id
  typeError name := name ++ " called on null or undefined"

/-- A started task of a type. -/
def startedOfType (type : String) : Started String where
  task :=
    { executionId := 0, ownerId := 0, key := "A", type := type, config := "", dependsOn := []
      dependents := [], remainingDeps := 0, status := .running, attempt := 1, maxAttempts := 3
      baseDelayMs := 1000, timeoutMs := 30000, leaseOwner := some "worker", leaseToken := 1
      leaseExpiresAt := some 30000, output := "", error := none, readyAt := some 0
      retryAt := none, queuedAt := some 0, startedAt := some 0, completedAt := none }
  input := ""
  parents := []

/-- A tool that anybody may use. -/
def calculatorTool : Tool where
  description := ofString "Evaluate an arithmetic expression."
  jsonSchema := ofString "\x7b\x7d"
  schema := .ok
  permission := none
  timeoutMs := 1000

theorem names_resolve_calculator :
    ReportsUnknown (startedOfType "does.not.exist")
      (runTaskWith textRuntime [] (startedOfType "does.not.exist")) ∧
    Resolves [(ofString "calculator", calculatorTool)] [ofString "calculator"] (ofString "viewer")
      (selectTools [(ofString "calculator", calculatorTool)] (some [ofString "calculator"])
        (ofString "viewer")) := by
  have resolved := names_resolve_iff textRuntime [] (startedOfType "does.not.exist")
    (by decide) (by decide) [(ofString "calculator", calculatorTool)]
    (some [ofString "calculator"]) (ofString "viewer")
  refine ⟨resolved.1.mpr (by decide), resolved.2.mpr (.inr (.inr ⟨?_, fun listed => ?_⟩))⟩
  · intro name listed
    rw [List.mem_singleton.mp listed]
    refine ⟨by decide, ?_⟩
    rintro ⟨inherited, -⟩
    exact absurd inherited (by decide)
  · exact absurd listed (by decide)

/-- A task of the type `constructor` is completed with the object its handler should get,
and an allowlist with `constructor` is not refused. -/
theorem names_misresolved :
    (runTaskWith textRuntime [] (startedOfType "constructor") =
      .completeTask ⟨0, "A"⟩ 1 "" ∧
      ¬ ∀ (handlers : HandlerTable String) (claimed : Started String),
        typePattern claimed.task.type = true → claimed.task.type ∉ handlers.keys →
          ReportsUnknown claimed (runTaskWith textRuntime handlers claimed)) ∧
    ¬ ∀ (registry : Registry) (names : List Text) (role : Text),
      Resolves registry names role (selectTools registry (some names) role) := by
  have completed : runTaskWith textRuntime [] (startedOfType "constructor") =
      .completeTask ⟨0, "A"⟩ 1 "" := by rfl
  refine ⟨⟨completed, ?_⟩, ?_⟩
  · intro reports
    rcases reports [] (startedOfType "constructor") (by decide) (by decide) with ⟨error, same, -⟩
    rw [completed] at same
    cases same
  · intro resolves
    have unregistered : ∃ name ∈ [ofString "constructor"], name ∉ Entries.keys ([] : Registry) :=
      ⟨_, List.mem_cons_self, List.not_mem_nil⟩
    rcases (resolves [] [ofString "constructor"] (ofString "viewer")).throws.mpr unregistered with
      ⟨message, threw⟩
    have returned : ∃ selection, selectTools [] (some [ofString "constructor"])
        (ofString "viewer") = .ok selection := by
      rcases selectTools_spec [] (some [ofString "constructor"]) (ofString "viewer") with
        ⟨selection, returned, -⟩ | ⟨-, name, listed, why⟩
      · exact ⟨selection, returned⟩
      · rw [List.mem_singleton.mp listed] at why
        cases why with
        | inl isUnknown => exact absurd (by decide) isUnknown.2
        | inr breaks => exact absurd breaks.1 (by decide)
    rcases returned with ⟨selection, returned⟩
    rw [threw] at returned
    cases returned

end WorkflowEngine
