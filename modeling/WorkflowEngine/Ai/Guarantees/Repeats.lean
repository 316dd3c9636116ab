import WorkflowEngine.Ai.Agent.Lawful
import WorkflowEngine.Ai.Guarantees.Extraction

/-!
# Repeated calls

The guard compares printed arguments.  Keys that are array indices are printed first, in
ascending order, and the others in the order in which the model wrote them.  Two equal
calls in a row are noticed exactly if their keys are printed in the same order.
-/

open Text Json

namespace WorkflowEngine

/-! ## The guard -/

/-- The run was stopped at a proposal with the key of the call before. -/
def Stopped (last : Option Text) (events : Trace) (result : Except AgentError AgentResult) :
    Prop :=
  ∃ front tool args, events = front ++ [.proposed tool args, .repeatDetected] ∧
    proposals events = handledCalls events ++ [(tool, args)] ∧
    (last.toList ++ (handledCalls events).map keyOf).getLast? = some (callKey tool args) ∧
    ∃ outcome, result = .ok outcome ∧ outcome.status = .loopDetected

/-- What the guard makes of a run that begins after a call with this key. -/
structure Guarded (last : Option Text) (events : Trace)
    (result : Except AgentError AgentResult) : Prop where
  proper : ∀ call ∈ proposals events, call.2.Proper
  keys : (last.toList ++ (handledCalls events).map keyOf).IsChain (· ≠ ·)
  ends : (proposals events = handledCalls events ∧
    ∀ outcome, result = .ok outcome → outcome.status ≠ .loopDetected) ∨ Stopped last events result

variable {params : AgentParams} {last : Option Text}

theorem chain_key {key : Text} {keys : List Text} (fresh : some key ≠ last)
    (chain : (key :: keys).IsChain (· ≠ ·)) : (last.toList ++ key :: keys).IsChain (· ≠ ·) := by
  cases last with
  | none => exact chain
  | some before =>
      refine List.isChain_cons_cons.mpr ⟨?_, chain⟩
      rintro rfl
      exact fresh rfl

theorem chain_last : last.toList.IsChain (· ≠ ·) := by
  cases last with
  | none => exact .nil
  | some key => exact .singleton key

theorem Turn.guarded {world : World} {trace turn : Trace} {result : Except AgentError AgentResult}
    (taken : Turn world params last trace turn (.stop result)) : Guarded last turn result := by
  cases taken with
  | aborted =>
      refine ⟨List.forall_mem_nil _, ?_, .inl ⟨rfl, nofun⟩⟩
      exact (List.append_nil last.toList).symm ▸ chain_last
  | @unanswered requests =>
      rcases calls_chats requests with ⟨none_, none'⟩
      refine ⟨?_, ?_, .inl ⟨none_.trans none'.symm, nofun⟩⟩
      · rw [none_]
        exact List.forall_mem_nil _
      · rw [none', List.map_nil, List.append_nil]
        exact chain_last
  | @final requests _ _ _ _ result status =>
      have none_ : proposals (requests.map .chat ++ [.finalAnswer]) = [] := by
        rw [proposals_append, (calls_chats requests).1]
        rfl
      have none' : handledCalls (requests.map .chat ++ [.finalAnswer]) = [] := by
        rw [handledCalls_append, (calls_chats requests).2]
        rfl
      refine ⟨?_, ?_, .inl ⟨none_.trans none'.symm, ?_⟩⟩
      · rw [none_]
        exact List.forall_mem_nil _
      · rw [none', List.map_nil, List.append_nil]
        exact chain_last
      · rintro _ ⟨⟩
        rw [status]
        exact nofun
  | @repeated requests thought tool args _ asked same result status =>
      have proposed : proposals (requests.map .chat ++ [.proposed tool args, .repeatDetected]) =
          [(tool, args)] := by
        rw [proposals_append, (calls_chats requests).1]
        rfl
      have none_ : handledCalls (requests.map .chat ++ [.proposed tool args, .repeatDetected]) =
          [] := by
        rw [handledCalls_append, (calls_chats requests).2]
        rfl
      constructor
      · rw [proposed, List.forall_mem_singleton]
        exact asked.proper
      · rw [none_, List.map_nil, List.append_nil]
        exact chain_last
      · refine .inr ⟨_, tool, args, rfl, ?_, ?_, result, rfl, status⟩
        · rw [proposed, none_]
          rfl
        · rw [none_, ← same]
          rfl
  | @threw requests thought tool args _ asked fresh runs allowed error =>
      rcases allowed.calls_turn requests with ⟨proposed, handled⟩
      refine ⟨?_, ?_, .inl ⟨proposed.trans handled.symm, nofun⟩⟩
      · rw [proposed, List.forall_mem_singleton]
        exact asked.proper
      · rw [handled]
        exact chain_key fresh (.singleton _)

/-- A call before a guarded run. -/
theorem Guarded.cons {turn rest : Trace} {tool : Text} {args : Json}
    {result : Except AgentError AgentResult} (proper : args.Proper)
    (fresh : some (callKey tool args) ≠ last)
    (calls : proposals turn = [(tool, args)] ∧ handledCalls turn = [(tool, args)])
    (guarded : Guarded (some (callKey tool args)) rest result) :
    Guarded last (turn ++ rest) result := by
  have proposed : proposals (turn ++ rest) = (tool, args) :: proposals rest := by
    rw [proposals_append, calls.1]
    rfl
  have handled : handledCalls (turn ++ rest) = (tool, args) :: handledCalls rest := by
    rw [handledCalls_append, calls.2]
    rfl
  constructor
  · rw [proposed, List.forall_mem_cons]
    exact ⟨proper, guarded.proper⟩
  · rw [handled]
    exact chain_key fresh guarded.keys
  · cases guarded.ends with
    | inl all =>
        left
        rw [proposed, handled, all.1]
        exact ⟨rfl, all.2⟩
    | inr stopped =>
        right
        rcases stopped with ⟨front, tool', args', split, calls', key, ended⟩
        refine ⟨turn ++ front, tool', args', ?_, ?_, ?_, ended⟩
        · rw [split, List.append_assoc]
        · rw [proposed, handled, calls']
          rfl
        · rw [handled]
          exact (List.getLast?_append_of_ne_nil _ (List.cons_ne_nil _ _)).trans key

theorem agentLoop_guarded (world : World) (left i : ℕ) (state : AgentState) (trace : Trace) :
    ∃ events, (agentLoop world params left i state trace).2 = trace ++ events ∧
      Guarded state.lastCallKey events (agentLoop world params left i state trace).1 := by
  induction left generalizing i state trace with
  | zero =>
      refine ⟨[], (List.append_nil trace).symm, List.forall_mem_nil _, ?_, .inl ⟨rfl, ?_⟩⟩
      · exact (List.append_nil state.lastCallKey.toList).symm ▸ chain_last
      · rintro _ ⟨⟩
        exact nofun
  | succ left ih =>
      rcases agentLoop_turn world params left i state trace with
        ⟨turn, result, taken, stopped⟩ | ⟨turn, key, state', taken, lastKey, goesOn⟩
      · rw [stopped]
        exact ⟨turn, rfl, taken.guarded⟩
      · rcases ih (i + 1) state' (trace ++ turn) with ⟨events, traced, guarded⟩
        rw [goesOn]
        refine ⟨turn ++ events, by rw [traced, List.append_assoc], ?_⟩
        rw [lastKey] at guarded
        cases taken with
        | handled _ asked fresh allowed =>
            exact .cons asked.proper fresh (allowed.calls_turn _) guarded

/-! ## Equal calls -/

/-- The same tool with the same data, whatever the order of keys. -/
def SameCall (first second : Text × Json) : Prop := first.1 = second.1 ∧ Same first.2 second.2

/-- An equal call in the next iteration ends the run as a loop, and nothing comes after
its proposal. -/
def RepeatsDetected (events : Trace) (result : Except AgentError AgentResult) : Prop :=
  ∀ before first second after, proposals events = before ++ first :: second :: after →
    SameCall first second →
      after = [] ∧ (∃ front, events = front ++ [.proposed second.1 second.2, .repeatDetected]) ∧
        ∃ outcome, result = .ok outcome ∧ outcome.status = .loopDetected

/-- Equal calls in a row have their keys in the same order, at every depth. -/
def OrderKept (events : Trace) : Prop :=
  (proposals events).IsChain fun first second =>
    SameCall first second → kept first.2 = kept second.2

theorem stringify_eq_iff {left right : Json} (proper : left.Proper) (proper' : right.Proper) :
    left.stringify = right.stringify ↔ kept left = kept right := by
  constructor
  · intro same
    have read := congrArg parse same
    rw [parse_stringify, parse_stringify, Option.some.injEq, proper.kept.reorder,
      proper'.kept.reorder] at read
    exact read
  · intro same
    rw [← stringify_kept, same, stringify_kept]

theorem keyOf_eq_iff {first second : Text × Json} (proper : first.2.Proper)
    (proper' : second.2.Proper) (sameTool : first.1 = second.1) :
    keyOf first = keyOf second ↔ kept first.2 = kept second.2 := by
  rw [keyOf, keyOf, callKey, callKey, sameTool, List.append_cancel_left_eq, List.cons.injEq,
    and_iff_right rfl]
  exact stringify_eq_iff proper proper'

section Guarded

variable {events : Trace} {result : Except AgentError AgentResult}

theorem Guarded.proper_pair (guarded : Guarded none events result)
    {before after : List (Text × Json)} {first second : Text × Json}
    (split : proposals events = before ++ first :: second :: after) :
    first.2.Proper ∧ second.2.Proper := by
  have proper := guarded.proper
  rw [split, List.forall_mem_append, List.forall_mem_cons, List.forall_mem_cons] at proper
  exact ⟨proper.2.1, proper.2.2.1⟩

/-- Calls in a row that got past the guard have different keys. -/
theorem Guarded.keys_differ (guarded : Guarded none events result)
    {before after : List (Text × Json)} {first second : Text × Json}
    (split : handledCalls events = before ++ first :: second :: after) :
    keyOf first ≠ keyOf second := by
  have keys := guarded.keys
  rw [split, List.map_append, List.map_cons, List.map_cons] at keys
  exact (List.isChain_append_cons_cons.mp keys).2.1

/-- A proposal that stopped the run has the key of the one before. -/
theorem last_keys {before after : List (Text × Json)} {first second last : Text × Json}
    {calls : List (Text × Json)}
    (split : before ++ first :: second :: after = calls ++ [last])
    (key : (calls.map keyOf).getLast? = some (keyOf last)) (atEnd : after = []) :
    second = last ∧ keyOf first = keyOf second := by
  rw [atEnd, show before ++ [first, second] = before ++ [first] ++ [second] by simp] at split
  rcases List.append_inj' split rfl with ⟨rfl, same⟩
  cases same
  rw [List.map_append, List.map_singleton, List.getLast?_concat, Option.some.injEq] at key
  exact ⟨rfl, key⟩

theorem repeatsDetected_iff (guarded : Guarded none events result) :
    RepeatsDetected events result ↔ OrderKept events := by
  rw [OrderKept, List.isChain_iff_forall_rel_of_append_cons_cons]
  constructor
  · intro detected first second before after split same
    rcases detected before first second after split same with
      ⟨atEnd, ⟨front, isEvents⟩, outcome, isResult, status⟩
    rcases guarded.proper_pair split with ⟨proper, proper'⟩
    rw [← keyOf_eq_iff proper proper' same.1]
    cases guarded.ends with
    | inl all => exact absurd status (all.2 outcome isResult)
    | inr stopped =>
        rcases stopped with ⟨front', tool, args, -, calls, key, -⟩
        rw [split] at calls
        exact (last_keys calls key atEnd).2
  · intro kept before first second after split same
    rcases guarded.proper_pair split with ⟨proper, proper'⟩
    have sameKey : keyOf first = keyOf second :=
      (keyOf_eq_iff proper proper' same.1).mpr (kept split same)
    cases guarded.ends with
    | inl all =>
        rw [all.1] at split
        exact absurd sameKey (guarded.keys_differ split)
    | inr stopped =>
        rcases stopped with ⟨front, tool, args, isEvents, calls, key, ended⟩
        rw [split] at calls
        cases after using List.reverseRecOn with
        | nil =>
            rcases last_keys calls key rfl with ⟨rfl, -⟩
            exact ⟨rfl, ⟨front, isEvents⟩, ended⟩
        | append_singleton after last =>
            rw [← List.cons_append, ← List.cons_append, ← List.append_assoc] at calls
            rcases List.append_inj' calls rfl with ⟨handled, -⟩
            exact absurd sameKey (guarded.keys_differ handled.symm)

end Guarded

theorem runAgent_guarded (world : World) (params : AgentParams) :
    Guarded none (runAgent world params).2 (runAgent world params).1 := by
  rw [runAgent]
  split
  · refine ⟨List.forall_mem_nil _, .nil, .inl ⟨rfl, ?_⟩⟩
    intro outcome returned
    cases returned
  · rcases agentLoop_guarded world params.maxIterations 1
      { transcript := [ofString "Goal:\n" ++ wrapUntrusted (ofString "user_input") params.goal]
        steps := []
        usage := .zero
        lastCallKey := none } [] with ⟨events, traced, guarded⟩
    rw [traced]
    exact guarded

/-- An equal call in the next iteration always ends the run if and only if equal calls in
a row have their keys in the same order; the proposals are what the provider's replies are
read as. -/
theorem runAgent_detects_repeats_iff (world : World) (params : AgentParams) :
    (RepeatsDetected (runAgent world params).2 (runAgent world params).1 ↔
      OrderKept (runAgent world params).2) ∧ Told world params (runAgent world params).2 :=
  ⟨repeatsDetected_iff (runAgent_guarded world params), runAgent_told world params⟩

/-! ## A repetition that is not noticed -/

/-- An iteration with a call that is handled. -/
theorem agentLoop_handles {world : World} {left i : ℕ} {state : AgentState} {trace trace' : Trace}
    {thought tool : Text} {args : Json} {usage : Usage} {outcome : Json × Bool × Json}
    {called : Trace} (notAborted : world.aborted trace = none)
    (asked : askStep world params state trace = (.ok (.tool thought tool args, usage), trace'))
    (fresh : some (callKey tool args) ≠ state.lastCallKey)
    (ran : callTool world params.tools params.ctx tool args
      (trace' ++ [.proposed tool args, .handled tool args]) = (.ok outcome, called)) :
    agentLoop world params (left + 1) i state trace =
      agentLoop world params left (i + 1)
        ({ state with usage := state.usage.add usage }.record i thought tool args outcome)
        called := by
  rw [agentLoop, notAborted, asked]
  dsimp only
  rw [if_neg fresh, ran]

theorem askStep_of_reply {world : World} {trace : Trace} {reply : ChatReply} {step : AgentStep}
    (state : AgentState)
    (answered : ∀ request, world.chat (trace ++ [.chat request]) = .ok reply)
    (read : readReply world (stepSchema world params.tools.keys) reply.content = .ok step) :
    ∃ request, askStep world params state trace =
      (.ok (step, Usage.zero.add reply.usage), trace ++ [.chat request]) := by
  rw [askStep, generateStructured, maxRepairs, attempt]
  dsimp only
  rw [answered]
  dsimp only
  rw [read]
  exact ⟨_, rfl⟩

/-- The reply for a call of the tool `search`. -/
def searchStep (args : List (Text × Json)) : List (Text × Json) :=
  [(ofString "action", .string (ofString "tool")), (ofString "tool", .string (ofString "search")),
    (ofString "args", .object args)]

/-- The same arguments in two orders. -/
def firstArgs : List (Text × Json) := [(ofString "a", .bool true), (ofString "b", .bool false)]

def secondArgs : List (Text × Json) := [(ofString "b", .bool false), (ofString "a", .bool true)]

/-- The model calls `search` twice, the second time with its keys in the other order. -/
def swappingWorld : World where
  chat trace :=
    .ok ⟨(Json.object (searchStep
      (if handledCalls trace = [] then firstArgs else secondArgs))).stringify, .zero⟩
  settle _ := .returned (.json .null)
  aborted _ := none
  stepIssues _ := []
  stepSchema _ := []
  syntaxError _ := []

def searchParams : AgentParams where
  model := ofString "m"
  tools := [(ofString "search", ⟨[], [], .ok, none, 1000⟩)]
  goal := []
  ctx := ⟨1⟩
  maxIterations := 2

theorem readReply_search {args : List (Text × Json)}
    (proper : Json.Proper (.object (searchStep args)))
    (isStep : stepOf searchParams.tools.keys (.object (searchStep args)) =
      some (.tool [] (ofString "search") (.object args)))
    (printed : kept (.object (searchStep args)) = .object (searchStep args))
    (plain : ∀ first ∈ commaSeparated (stringifyEntries (searchStep args)), first ≠ tick) :
    readReply swappingWorld (stepSchema swappingWorld searchParams.tools.keys)
        (Json.object (searchStep args)).stringify =
      .ok (.tool [] (ofString "search") (.object args)) := by
  have text : (Json.object (searchStep args)).stringify =
      unit '{' :: commaSeparated (stringifyEntries (searchStep args)) ++ [unit '}'] := rfl
  have parsed := parse_stringify (.object (searchStep args))
  rw [printed, proper.reorder, text] at parsed
  have extracted := @extractJson_words _ _ parsed [] [] (not_hasFence plain)
    (List.forall_mem_nil _)
  rw [List.append_nil, List.nil_append] at extracted
  rw [readReply, text, extracted]
  dsimp only
  rw [stepSchema, isStep]

/-- What an iteration with the call `search` adds. -/
def searchTurn (request : ChatRequest) (args : Json) : Trace :=
  [.chat request, .proposed (ofString "search") args, .handled (ofString "search") args,
    .ran (ofString "search") args searchParams.ctx]

theorem swapping_iteration {args : List (Text × Json)} {state : AgentState} {trace : Trace}
    (left i : ℕ)
    (answered : ∀ request, swappingWorld.chat (trace ++ [.chat request]) =
      .ok ⟨(Json.object (searchStep args)).stringify, .zero⟩)
    (read : readReply swappingWorld (stepSchema swappingWorld searchParams.tools.keys)
      (Json.object (searchStep args)).stringify = .ok (.tool [] (ofString "search") (.object args)))
    (fresh : some (callKey (ofString "search") (.object args)) ≠ state.lastCallKey) :
    ∃ request state', state'.lastCallKey = some (callKey (ofString "search") (.object args)) ∧
      agentLoop swappingWorld searchParams (left + 1) i state trace =
        agentLoop swappingWorld searchParams left (i + 1) state'
          (trace ++ searchTurn request (.object args)) := by
  rcases askStep_of_reply state answered read with ⟨request, asked⟩
  have called : callTool swappingWorld searchParams.tools searchParams.ctx (ofString "search")
      (.object args) (trace ++ [.chat request] ++ [.proposed (ofString "search") (.object args),
        .handled (ofString "search") (.object args)]) =
      (.ok (.null, true, .object args), trace ++ [.chat request] ++
        [.proposed (ofString "search") (.object args), .handled (ofString "search") (.object args)] ++
        [.ran (ofString "search") (.object args) searchParams.ctx]) := rfl
  have whole : trace ++ [.chat request] ++ [.proposed (ofString "search") (.object args),
      .handled (ofString "search") (.object args)] ++
      [.ran (ofString "search") (.object args) searchParams.ctx] =
        trace ++ searchTurn request (.object args) := by
    simp [searchTurn]
  rw [whole] at called
  exact ⟨request, _, rfl, agentLoop_handles rfl asked fresh called⟩

/-- Both calls are handled, although they are equal. -/
theorem proposals_swapping :
    proposals (runAgent swappingWorld searchParams).2 =
      [(ofString "search", .object firstArgs), (ofString "search", .object secondArgs)] := by
  have first : readReply swappingWorld (stepSchema swappingWorld searchParams.tools.keys)
      (Json.object (searchStep firstArgs)).stringify =
        .ok (.tool [] (ofString "search") (.object firstArgs)) := by
    apply readReply_search
    · exact ⟨⟨by decide, by decide⟩, trivial, trivial,
        ⟨⟨by decide, by decide⟩, trivial, trivial, trivial⟩, trivial⟩
    · rfl
    · rfl
    · exact Text.forall_mem_of_all (by decide)
  have second : readReply swappingWorld (stepSchema swappingWorld searchParams.tools.keys)
      (Json.object (searchStep secondArgs)).stringify =
        .ok (.tool [] (ofString "search") (.object secondArgs)) := by
    apply readReply_search
    · exact ⟨⟨by decide, by decide⟩, trivial, trivial,
        ⟨⟨by decide, by decide⟩, trivial, trivial, trivial⟩, trivial⟩
    · rfl
    · rfl
    · exact Text.forall_mem_of_all (by decide)
  have differ : callKey (ofString "search") (.object secondArgs) ≠
      callKey (ofString "search") (.object firstArgs) := by decide
  rw [runAgent, if_neg (by decide)]
  generalize start : AgentState.mk _ _ _ _ = state
  have unguarded : state.lastCallKey = none := by rw [← start]
  have answered : ∀ request, swappingWorld.chat ([] ++ [.chat request]) =
      .ok ⟨(Json.object (searchStep firstArgs)).stringify, .zero⟩ := fun _ => rfl
  have first_fresh : some (callKey (ofString "search") (.object firstArgs)) ≠
      state.lastCallKey := by
    rw [unguarded]
    exact Option.some_ne_none _
  rcases swapping_iteration 1 1 answered first first_fresh with ⟨request, state', lastKey, went⟩
  have answered' : ∀ next, swappingWorld.chat
      ([] ++ searchTurn request (.object firstArgs) ++ [.chat next]) =
        .ok ⟨(Json.object (searchStep secondArgs)).stringify, .zero⟩ := fun _ => rfl
  have fresh : some (callKey (ofString "search") (.object secondArgs)) ≠ state'.lastCallKey := by
    rw [lastKey]
    exact fun same => differ (Option.some.inj same)
  rcases swapping_iteration 0 2 answered' second fresh with ⟨request', state'', -, went'⟩
  rw [show searchParams.maxIterations = 1 + 1 from rfl, went, went', agentLoop]
  rfl

/-- The model proposes the same arguments with their keys in another order. -/
theorem repeat_unnoticed :
    ¬ ∀ (world : World) (params : AgentParams),
      RepeatsDetected (runAgent world params).2 (runAgent world params).1 := by
  intro detected
  have kept_ := (repeatsDetected_iff (runAgent_guarded swappingWorld searchParams)).mp
    (detected swappingWorld searchParams)
  rw [OrderKept, proposals_swapping, List.isChain_pair] at kept_
  have same : SameCall (ofString "search", .object firstArgs)
      (ofString "search", .object secondArgs) := by
    refine ⟨rfl, secondArgs, rfl, rfl, ⟨.bool true, ?_, rfl⟩, ⟨.bool false, ?_, rfl⟩, trivial⟩
    · exact List.mem_cons_of_mem _ List.mem_cons_self
    · exact List.mem_cons_self
  have entries := Json.object.inj (kept_ same)
  have keys := congrArg (List.map Prod.fst) entries
  exact absurd keys (by decide)

end WorkflowEngine
