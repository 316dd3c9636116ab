import WorkflowEngine.Ai.Calculator.Completeness

/-!
# The calculator implements its grammar

A value is returned exactly for the texts of the grammar whose tree has a finite value.
The tree is unique, and the calculator always ends.
-/

open Text

namespace WorkflowEngine

namespace Calculator

/-! ## One tree -/

/-- The operations that build the tree. -/
def treeOps : Arithmetic Tree where
  literal := .number
  neg := .neg
  binary := .binary
  pow := .pow
  isZero _ := false
  isLarge _ := false
  isFinite _ := true
  round := id

theorem value_treeOps (tree : Tree) : tree.value treeOps = some tree := by
  induction tree with
  | number digits => rfl
  | neg operand ih =>
      rw [Tree.value, ih]
      rfl
  | binary op left right ihLeft ihRight =>
      rw [value_binary ihLeft ihRight (Bool.and_false _)]
      rfl
  | pow base exp ihBase ihExp =>
      rw [Tree.value, ihBase, ihExp]
      rfl

theorem stops_spaces {spaces : Text} (blank : Spaces spaces) : Stops (.expr : Part Tree) spaces := by
  constructor
  · intro first isFirst
    rw [blank first (List.mem_of_mem_head? isFirst)]
    decide
  · intro first isFirst
    have nothing : skip spaces = [] := by
      have skipped := skip_append blank []
      rwa [List.append_nil] at skipped
    rw [nothing] at isFirst
    cases isFirst

/-- The parser reads an expression to its end. -/
theorem expr_of_isExpression {Num : Type} {ops : Arithmetic Num} {src text : Text} {tree : Tree}
    {v : Num} {fuel : ℕ} (isExpression : IsExpression text tree)
    (isValue : tree.value ops = some v) (enough : 7 * text.length + 6 < fuel) :
    expr ops src fuel text = .ok (v, []) := by
  rcases isExpression with ⟨inside, spaces, rfl, derived, blank⟩
  have complete : Complete ops src .expr _ tree := complete_run derived
  have ran := complete rfl isValue (stops_spaces blank) enough
  have nothing : skip spaces = [] := by
    have skipped := skip_append blank []
    rwa [List.append_nil] at skipped
  dsimp only [run, Part.leaves] at ran
  rw [ran, nothing]

/-- A text has one tree. -/
theorem IsExpression.unique {text : Text} {tree tree' : Tree} (first : IsExpression text tree)
    (second : IsExpression text tree') : tree = tree' := by
  have enough := Nat.lt_succ_self (7 * text.length + 6)
  have ran : expr treeOps [] _ text = _ := expr_of_isExpression first (value_treeOps tree) enough
  have ran' : expr treeOps [] _ text = _ := expr_of_isExpression second (value_treeOps tree') enough
  cases ran.symm.trans ran'
  rfl

/-! ## Characters -/

theorem isAllowed_of_spaces {spaces : Text} (blank : Spaces spaces) :
    ∀ first ∈ spaces, isAllowed first = true := by
  intro first membership
  rw [blank first membership]
  decide

theorem isAllowed_of_digits {digits : Text} (all : ∀ first ∈ digits, isDigit first = true) :
    ∀ first ∈ digits, isAllowed first = true := by
  intro first membership
  rw [isAllowed, all first membership]
  rfl

theorem isAllowed_symbol (op : BinaryOp) : isAllowed op.symbol = true := by
  cases op with
  | _ => decide

/-- The texts of the grammar pass the first check. -/
theorem Derives.allowed {part : Part Tree} {text : Text} {tree : Tree}
    (derived : Derives part text tree) : ∀ first ∈ text, isAllowed first = true := by
  induction derived with
  | expr first others ih ihOthers | term first others ih ihOthers =>
      rw [List.forall_mem_append]
      exact ⟨ih, ihOthers⟩
  | lastTerm | lastFactor => exact List.forall_mem_nil _
  | nextTerm blank adds operand others ih ihOthers
  | nextFactor blank adds operand others ih ihOthers =>
      rw [List.forall_mem_append, List.forall_mem_cons, List.forall_mem_append]
      exact ⟨isAllowed_of_spaces blank, isAllowed_symbol _, ih, ihOthers⟩
  | base only ih | primary only ih => exact ih
  | pow isBase blank isExp ih ihExp =>
      rw [List.forall_mem_append, List.forall_mem_append, List.forall_mem_cons]
      exact ⟨ih, isAllowed_of_spaces blank, by decide, ihExp⟩
  | neg blank isOperand ih =>
      rw [List.forall_mem_append, List.forall_mem_cons]
      exact ⟨isAllowed_of_spaces blank, by decide, ih⟩
  | number blank isNumber =>
      rw [List.forall_mem_append]
      refine ⟨isAllowed_of_spaces blank, ?_⟩
      cases isNumber with
      | whole nonempty all => exact isAllowed_of_digits all
      | decimal nonempty all nonempty' all' =>
          rw [List.forall_mem_append, List.forall_mem_cons]
          exact ⟨isAllowed_of_digits all, by decide, isAllowed_of_digits all'⟩
  | parentheses blank inside blank' ih =>
      rw [List.forall_mem_append, List.forall_mem_cons, List.forall_mem_append,
        List.forall_mem_append, List.forall_mem_singleton]
      exact ⟨isAllowed_of_spaces blank, by decide, ih, isAllowed_of_spaces blank', by decide⟩

theorem Derives.nonempty {part : Part Tree} {text : Text} {tree : Tree}
    (derived : Derives part text tree) (once : part.repeats = false) : text ≠ [] := by
  induction derived with
  | expr first others ih ihOthers | term first others ih ihOthers =>
      exact List.append_ne_nil_of_left_ne_nil (ih rfl) _
  | lastTerm | lastFactor | nextTerm | nextFactor => cases once
  | base only ih | primary only ih => exact ih rfl
  | pow isBase blank isExp ih ihExp => exact List.append_ne_nil_of_left_ne_nil (ih rfl) _
  | neg blank isOperand ih => exact List.append_ne_nil_of_right_ne_nil _ (List.cons_ne_nil _ _)
  | number blank isNumber =>
      rcases isNumber_head isNumber with ⟨first, more, rfl, -⟩
      exact List.append_ne_nil_of_right_ne_nil _ (List.cons_ne_nil _ _)
  | parentheses blank inside blank' ih =>
      exact List.append_ne_nil_of_right_ne_nil _ (List.cons_ne_nil _ _)

/-! ## The calculator -/

/-- The texts with a value that the calculator returns. -/
structure Evaluates {Num : Type} (ops : Arithmetic Num) (src : Text) (tree : Tree) (v : Num) :
    Prop where
  short : src.length ≤ 200
  isExpression : IsExpression src tree
  value : tree.value ops = some v
  isFinite : ops.isFinite v = true

theorem evaluateArithmetic_of_evaluates {Num : Type} {ops : Arithmetic Num} {src : Text}
    {tree : Tree} {v : Num} (evaluates : Evaluates ops src tree v) :
    evaluateArithmetic ops src = .ok (ops.round v) := by
  have long : ¬ 200 < src.length := not_lt.mpr evaluates.short
  have allowed : src ≠ [] ∧ src.all isAllowed = true := by
    rcases evaluates.isExpression with ⟨inside, spaces, rfl, derived, blank⟩
    constructor
    · exact List.append_ne_nil_of_left_ne_nil (derived.nonempty rfl) _
    · rw [List.all_eq_true, List.forall_mem_append]
      exact ⟨derived.allowed, isAllowed_of_spaces blank⟩
  have ran : expr ops src _ src = _ :=
    expr_of_isExpression evaluates.isExpression evaluates.value (Nat.lt_succ_self _)
  rw [evaluateArithmetic, if_neg long, if_neg (not_not.mpr allowed), ran, ok_bind]
  exact if_pos evaluates.isFinite

theorem evaluates_of_evaluateArithmetic {Num : Type} {ops : Arithmetic Num} {src : Text}
    {result : Num} (returned : evaluateArithmetic ops src = .ok result) :
    ∃ tree v, Evaluates ops src tree v ∧ result = ops.round v := by
  rw [evaluateArithmetic] at returned
  split at returned
  · cases returned
  · next short =>
      split at returned
      · cases returned
      · rcases bind_eq_ok.mp returned with ⟨⟨v, rest⟩, ran, ends⟩
        have inside : run ops src (.expr : Part Num) (7 * src.length + 7) src = .ok (v, rest) := ran
        have explained : Explains ops .expr src v rest :=
          sound_run (7 * src.length + 7) rfl inside
        rcases explained with ⟨used, spaces, tree, whole, blank, derived, value⟩
        rcases split_skip rest with ⟨spaces', blank', split⟩
        dsimp only at ends
        split at ends
        · cases ends
        · next done =>
            rw [done, List.append_nil] at split
            split at ends
            · next isFinite =>
                cases ends
                refine ⟨tree, v, ⟨not_lt.mp short, ⟨used, spaces ++ spaces', ?_, derived,
                  blank.append blank'⟩, value, isFinite⟩, rfl⟩
                rw [whole, split]
            · cases ends

theorem evaluateArithmetic_ne_outOfFuel {Num : Type} (ops : Arithmetic Num) (src : Text) :
    evaluateArithmetic ops src ≠ .error .outOfFuel := by
  rw [evaluateArithmetic]
  split
  · exact nofun
  · split
    · exact nofun
    · have bounded : Bounded src.length (expr ops src (7 * src.length + 7) src) :=
        run_bounded _ .expr src (Nat.lt_succ_self _)
      cases ran : expr ops src (7 * src.length + 7) src with
      | error failure =>
          rw [ran] at bounded
          intro same
          cases same
          exact bounded rfl
      | ok result =>
          rw [ok_bind]
          dsimp only
          split
          · intro same
            cases same
          · split
            · intro same
              cases same
            · intro same
              cases same

/-- The calculator ends with a value or an error of its own; it returns a value exactly
for the expressions of at most 200 characters whose tree has a finite value, and it is
the value of the only tree. -/
theorem evaluateArithmetic_exact {Num : Type} (ops : Arithmetic Num) (src : Text) :
    ((∃ result, evaluateArithmetic ops src = .ok result) ∨
      ∃ message, evaluateArithmetic ops src = .error (.error message)) ∧
    (∀ result, evaluateArithmetic ops src = .ok result ↔
      ∃ tree v, Evaluates ops src tree v ∧ result = ops.round v) ∧
    ∀ tree tree', IsExpression src tree → IsExpression src tree' → tree = tree' := by
  refine ⟨?_, ?_, fun tree tree' => IsExpression.unique⟩
  · cases returned : evaluateArithmetic ops src with
    | ok result => exact .inl ⟨result, rfl⟩
    | error failure =>
        cases failure with
        | error message => exact .inr ⟨message, rfl⟩
        | outOfFuel => exact absurd returned (evaluateArithmetic_ne_outOfFuel ops src)
  · intro result
    constructor
    · exact evaluates_of_evaluateArithmetic
    · rintro ⟨tree, v, evaluates, rfl⟩
      exact evaluateArithmetic_of_evaluates evaluates

end Calculator

end WorkflowEngine
