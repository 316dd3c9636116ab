import Mathlib.Data.List.TakeWhile
import WorkflowEngine.Ai.Calculator.Steps

/-!
# What the calculator accepts is in the grammar

When a part returns a value, the text it has taken is derived from the part for a tree
with this value, up to spaces at the end.
-/

open Text

namespace WorkflowEngine

namespace Calculator

variable {Num : Type} {ops : Arithmetic Num} {src : Text}

theorem bind_eq_ok {α β : Type} {first : Evaluation α} {next : α → Evaluation β} {result : β} :
    first >>= next = .ok result ↔ ∃ value, first = .ok value ∧ next value = .ok result := by
  cases first with
  | error failure => exact ⟨nofun, nofun⟩
  | ok value =>
      constructor
      · intro returned
        exact ⟨value, rfl, returned⟩
      · rintro ⟨_, same, returned⟩
        cases same
        exact returned

/-- The part of the parser for a part of the grammar. -/
def Part.value (ops : Arithmetic Num) : Part Tree → Option (Part Num)
  | .expr => some .expr
  | .terms left => (left.value ops).map .terms
  | .term => some .term
  | .factors left => (left.value ops).map .factors
  | .factor => some .factor
  | .unary => some .unary
  | .primary => some .primary

/-! ## Spaces -/

theorem Spaces.append {spaces spaces' : Text} (blank : Spaces spaces) (blank' : Spaces spaces') :
    Spaces (spaces ++ spaces') := by
  rw [Spaces, List.forall_mem_append]
  exact ⟨blank, blank'⟩

theorem Spaces.nil : Spaces [] := List.forall_mem_nil _

theorem split_skip (text : Text) : ∃ spaces, Spaces spaces ∧ text = spaces ++ skip text := by
  refine ⟨text.takeWhile (· == unit ' '), ?_, List.takeWhile_append_dropWhile.symm⟩
  intro first membership
  have isSpace := List.mem_takeWhile_imp membership
  exact eq_of_beq isSpace

/-- Spaces may stand before a primary. -/
theorem Derives.spaced {spaces text : Text} {tree : Tree} (blank : Spaces spaces)
    (derived : Derives .primary text tree) : Derives .primary (spaces ++ text) tree := by
  cases derived with
  | number blank' isNumber =>
      rw [← List.append_assoc]
      exact .number (blank.append blank') isNumber
  | parentheses blank' inside blank'' =>
      rw [← List.append_assoc]
      exact .parentheses (blank.append blank') inside blank''

/-- The repetitions. -/
def Part.repeats {α : Type} : Part α → Bool
  | .terms _ | .factors _ => true
  | _ => false

/-- Spaces before a repetition belong to its first operator, or to the end. -/
theorem Derives.absorb {part : Part Tree} {spaces text : Text} {tree : Tree}
    (repeats : part.repeats = true) (blank : Spaces spaces) (derived : Derives part text tree) :
    ∃ used after, spaces ++ text = used ++ after ∧ Spaces after ∧ Derives part used tree := by
  cases derived with
  | lastTerm => exact ⟨[], spaces, by rw [List.append_nil, List.nil_append], blank, .lastTerm⟩
  | lastFactor => exact ⟨[], spaces, by rw [List.append_nil, List.nil_append], blank, .lastFactor⟩
  | nextTerm blank' adds operand others =>
      refine ⟨_, [], (List.append_nil _).symm, .nil, ?_⟩
      rw [← List.append_assoc]
      exact .nextTerm (blank.append blank') adds operand others
  | nextFactor blank' adds operand others =>
      refine ⟨_, [], (List.append_nil _).symm, .nil, ?_⟩
      rw [← List.append_assoc]
      exact .nextFactor (blank.append blank') adds operand others
  | _ => cases repeats

/-! ## Numbers -/

theorem isNumber_of_matchNumber {text digits rest : Text}
    (found : matchNumber text = some (digits, rest)) : IsNumber digits ∧ text = digits ++ rest := by
  have whole : text = text.takeWhile isDigit ++ text.dropWhile isDigit :=
    List.takeWhile_append_dropWhile.symm
  have all : ∀ text : Text, ∀ first ∈ text.takeWhile isDigit, isDigit first = true :=
    fun text first membership => List.mem_takeWhile_imp membership
  unfold matchNumber at found
  dsimp only at found
  split at found
  · cases found
  · next nonempty =>
      split at found
      · next none =>
          cases found
          rw [none] at whole
          exact ⟨.whole nonempty (all text), whole⟩
      · next first more split =>
          rw [split] at whole
          split at found
          · next fraction =>
              cases found
              constructor
              · rw [fraction.1]
                exact .decimal nonempty (all text) fraction.2 (all more)
              · rw [List.append_assoc, List.cons_append, List.takeWhile_append_dropWhile]
                exact whole
          · cases found
            exact ⟨.whole nonempty (all text), whole⟩

/-! ## Operators -/

theorem symbol_of_termOp {first : CodeUnit} {op : BinaryOp} (isOp : termOp first = some op) :
    first = op.symbol ∧ op.adds = false := by
  unfold termOp at isOp
  split at isOp
  · next same =>
      cases isOp
      exact ⟨same, rfl⟩
  split at isOp
  · next same =>
      cases isOp
      exact ⟨same, rfl⟩
  split at isOp
  · next same =>
      cases isOp
      exact ⟨same, rfl⟩
  · cases isOp

theorem symbol_of_exprOp {first : CodeUnit} {op : BinaryOp} (isOp : exprOp first = some op) :
    first = op.symbol ∧ op.adds = true := by
  unfold exprOp at isOp
  split at isOp
  · next same =>
      cases isOp
      exact ⟨same, rfl⟩
  split at isOp
  · next same =>
      cases isOp
      exact ⟨same, rfl⟩
  · cases isOp

theorem divides_of_adds {op : BinaryOp} (adds : op.adds = true) : op.divides = false := by
  cases op with
  | add | sub => rfl
  | mul | div | rem => cases adds

theorem value_binary {op : BinaryOp} {left right : Tree} {v r : Num}
    (isLeft : left.value ops = some v) (isRight : right.value ops = some r)
    (accepted : (op.divides && ops.isZero r) = false) :
    (Tree.binary op left right).value ops = some (ops.binary op v r) := by
  rw [Tree.value, isLeft, isRight]
  change (if (op.divides && ops.isZero r) = true then none else some (ops.binary op v r)) = _
  rw [accepted]
  rfl

/-! ## The parts -/

/-- The text before the rest is derived, up to spaces, for a tree with this value. -/
def Explains (ops : Arithmetic Num) (part : Part Tree) (text : Text) (v : Num) (rest : Text) :
    Prop :=
  ∃ used spaces tree, text = used ++ (spaces ++ rest) ∧ Spaces spaces ∧ Derives part used tree ∧
    tree.value ops = some v

theorem explains_number {text rest : Text} {v : Num} (ran : number ops src text = .ok (v, rest)) :
    Explains ops .primary text v rest := by
  rcases split_skip text with ⟨spaces, blank, split⟩
  unfold number at ran
  split at ran
  · cases ran
  · next digits after found =>
      cases ran
      rcases isNumber_of_matchNumber found with ⟨isNumber, whole⟩
      refine ⟨spaces ++ digits, [], .number digits, ?_, .nil, .number blank isNumber, rfl⟩
      rw [List.nil_append, List.append_assoc, ← whole]
      exact split

theorem Explains.spaced {spaces text rest : Text} {v : Num} (blank : Spaces spaces)
    (explained : Explains ops .primary text v rest) :
    Explains ops .primary (spaces ++ text) v rest := by
  rcases explained with ⟨used, after, tree, rfl, blank', derived, value⟩
  exact ⟨spaces ++ used, after, tree, (List.append_assoc _ _ _).symm, blank', derived.spaced blank,
    value⟩

/-- A repetition takes the spaces before it. -/
theorem Explains.repeated {part : Part Tree} {spaces text rest : Text} {v : Num}
    (explained : Explains ops part text v rest) (repeats : part.repeats = true)
    (blank : Spaces spaces) : Explains ops part (spaces ++ text) v rest := by
  rcases explained with ⟨used, spaces', tree, rfl, blank', derived, value⟩
  rcases derived.absorb repeats blank with ⟨used', after, whole, blank'', derived'⟩
  refine ⟨used', after ++ spaces', tree, ?_, blank''.append blank', derived', value⟩
  rw [← List.append_assoc, whole]
  simp

/-- Everything that is computed with this fuel is explained. -/
def Sound (ops : Arithmetic Num) (src : Text) (fuel : ℕ) : Prop :=
  ∀ {part : Part Tree} {current : Part Num} {text : Text} {v : Num} {rest : Text},
    part.value ops = some current → run ops src current fuel text = .ok (v, rest) →
      Explains ops part text v rest

section Step

variable {fuel : ℕ} (sound : Sound ops src fuel) {text rest : Text} {v : Num}

include sound

theorem sound_primary (ran : primary ops src (fuel + 1) text = .ok (v, rest)) :
    Explains ops .primary text v rest := by
  rcases split_skip text with ⟨spaces, blank, split⟩
  rw [split]
  rw [primary] at ran
  split at ran
  · next skipped =>
      rw [skipped]
      exact (explains_number ran).spaced blank
  · next first more skipped =>
      rw [skipped]
      split at ran
      · next isOpen =>
          subst isOpen
          rcases bind_eq_ok.mp ran with ⟨⟨inner, after⟩, inside, closes⟩
          have explained : Explains ops .expr more inner after := sound rfl inside
          rcases explained with ⟨used, spaces', tree, rfl, blank', derived, value⟩
          rcases split_skip after with ⟨spaces'', blank'', split'⟩
          dsimp only at closes
          split at closes
          · cases closes
          · next last rest skipped' =>
              split at closes
              · next isClose =>
                  subst isClose
                  cases closes
                  refine ⟨_, [], tree, ?_, .nil,
                    .parentheses blank derived (blank'.append blank''), value⟩
                  rw [split', skipped']
                  simp
              · cases closes
      · exact (explains_number ran).spaced blank

theorem sound_unary (ran : unary ops src (fuel + 1) text = .ok (v, rest)) :
    Explains ops .unary text v rest := by
  have ofPrimary : ∀ text, primary ops src fuel text = .ok (v, rest) →
      Explains ops .primary text v rest := fun text ran => sound rfl ran
  have only : Explains ops .primary text v rest → Explains ops .unary text v rest := by
    rintro ⟨used, after, tree, whole, blank, derived, value⟩
    exact ⟨used, after, tree, whole, blank, .primary derived, value⟩
  rcases split_skip text with ⟨spaces, blank, split⟩
  rw [unary] at ran
  split at ran
  · next skipped =>
      apply only
      rw [split, skipped]
      exact (ofPrimary [] ran).spaced blank
  · next first more skipped =>
      rw [skipped] at split
      split at ran
      · next isMinus =>
          subst isMinus
          rcases bind_eq_ok.mp ran with ⟨⟨inner, after⟩, inside, done⟩
          cases done
          have explained : Explains ops .unary more inner rest := sound rfl inside
          rcases explained with ⟨used, spaces', tree, rfl, blank', derived, value⟩
          refine ⟨_, spaces', .neg tree, ?_, blank', .neg blank derived, ?_⟩
          · rw [split, List.append_assoc, List.cons_append]
          · rw [Tree.value, value]
            rfl
      · apply only
        rw [split]
        exact (ofPrimary _ ran).spaced blank

theorem sound_factor (ran : factor ops src (fuel + 1) text = .ok (v, rest)) :
    Explains ops .factor text v rest := by
  rw [factor] at ran
  rcases bind_eq_ok.mp ran with ⟨⟨base, after⟩, isBase, continues⟩
  have explained : Explains ops .unary text base after := sound rfl isBase
  rcases explained with ⟨used, spaces, tree, rfl, blank, derived, value⟩
  rcases split_skip after with ⟨spaces', blank', split⟩
  dsimp only at continues
  split at continues
  · next skipped =>
      cases continues
      refine ⟨used, spaces ++ spaces', tree, ?_, blank.append blank', .base derived, value⟩
      rw [split, skipped, List.append_assoc]
  · next first more skipped =>
      rw [skipped] at split
      split at continues
      · next isPower =>
          subst isPower
          rcases bind_eq_ok.mp continues with ⟨⟨exp, after'⟩, isExp, done⟩
          have explained : Explains ops .factor more exp after' := sound rfl isExp
          rcases explained with ⟨used', spaces'', tree', rfl, blank'', derived', value'⟩
          dsimp only at done
          split at done
          · cases done
          · next small =>
              cases done
              refine ⟨_, spaces'', .pow tree tree', ?_, blank'',
                .pow derived (blank.append blank') derived', ?_⟩
              · rw [split]
                simp
              · rw [Tree.value, value, value']
                exact if_neg small
      · cases continues
        refine ⟨used, spaces ++ spaces', tree, ?_, blank.append blank', .base derived, value⟩
        rw [split, List.append_assoc]

theorem sound_term (ran : term ops src (fuel + 1) text = .ok (v, rest)) :
    Explains ops .term text v rest := by
  rw [term] at ran
  rcases bind_eq_ok.mp ran with ⟨⟨l, after⟩, isFirst, others⟩
  have first : Explains ops .factor text l after := sound rfl isFirst
  rcases first with ⟨used, spaces, left, rfl, blank, derived, value⟩
  have isCurrent : (Part.factors left).value ops = some (.factors l) := by
    rw [Part.value, value]
    rfl
  rcases (sound isCurrent others).repeated rfl blank with
    ⟨used', spaces', tree, whole, blank', derived', value'⟩
  refine ⟨used ++ used', spaces', tree, ?_, blank', .term derived derived', value'⟩
  rw [whole, List.append_assoc]

theorem sound_expr (ran : expr ops src (fuel + 1) text = .ok (v, rest)) :
    Explains ops .expr text v rest := by
  rw [expr] at ran
  rcases bind_eq_ok.mp ran with ⟨⟨l, after⟩, isFirst, others⟩
  have first : Explains ops .term text l after := sound rfl isFirst
  rcases first with ⟨used, spaces, left, rfl, blank, derived, value⟩
  have isCurrent : (Part.terms left).value ops = some (.terms l) := by
    rw [Part.value, value]
    rfl
  rcases (sound isCurrent others).repeated rfl blank with
    ⟨used', spaces', tree, whole, blank', derived', value'⟩
  refine ⟨used ++ used', spaces', tree, ?_, blank', .expr derived derived', value'⟩
  rw [whole, List.append_assoc]

theorem sound_factors {left : Tree} {l : Num} (isLeft : left.value ops = some l)
    (ran : factors ops src (fuel + 1) l text = .ok (v, rest)) :
    Explains ops (.factors left) text v rest := by
  rcases split_skip text with ⟨spaces, blank, split⟩
  rw [factors] at ran
  split at ran
  · next skipped =>
      cases ran
      rw [skipped] at split
      exact ⟨[], spaces, left, split, blank, .lastFactor, isLeft⟩
  · next first more skipped =>
      rw [skipped] at split
      split at ran
      · cases ran
        exact ⟨[], spaces, left, split, blank, .lastFactor, isLeft⟩
      · next op isOp =>
          rcases symbol_of_termOp isOp with ⟨rfl, adds⟩
          rcases bind_eq_ok.mp ran with ⟨⟨r, after⟩, operand, others⟩
          dsimp only at others
          split at others
          · cases others
          · next accepted =>
              have isOperand : Explains ops .factor more r after := sound rfl operand
              rcases isOperand with ⟨used, spaces', right, rfl, blank', derived, value⟩
              have isCurrent : (Part.factors (.binary op left right)).value ops =
                  some (.factors (ops.binary op l r)) := by
                rw [Part.value, value_binary isLeft value (Bool.not_eq_true _ ▸ accepted)]
                rfl
              rcases (sound isCurrent others).repeated rfl blank' with
                ⟨used', spaces'', tree, whole, blank'', derived', value'⟩
              refine ⟨_, spaces'', tree, ?_, blank'', .nextFactor blank adds derived derived',
                value'⟩
              rw [split, whole]
              simp

theorem sound_terms {left : Tree} {l : Num} (isLeft : left.value ops = some l)
    (ran : terms ops src (fuel + 1) l text = .ok (v, rest)) :
    Explains ops (.terms left) text v rest := by
  rcases split_skip text with ⟨spaces, blank, split⟩
  rw [terms] at ran
  split at ran
  · next skipped =>
      cases ran
      rw [skipped] at split
      exact ⟨[], spaces, left, split, blank, .lastTerm, isLeft⟩
  · next first more skipped =>
      rw [skipped] at split
      split at ran
      · cases ran
        exact ⟨[], spaces, left, split, blank, .lastTerm, isLeft⟩
      · next op isOp =>
          rcases symbol_of_exprOp isOp with ⟨rfl, adds⟩
          rcases bind_eq_ok.mp ran with ⟨⟨r, after⟩, operand, others⟩
          have isOperand : Explains ops .term more r after := sound rfl operand
          rcases isOperand with ⟨used, spaces', right, rfl, blank', derived, value⟩
          have accepted : (op.divides && ops.isZero r) = false := by
            rw [divides_of_adds adds]
            rfl
          have isCurrent : (Part.terms (.binary op left right)).value ops =
              some (.terms (ops.binary op l r)) := by
            rw [Part.value, value_binary isLeft value accepted]
            rfl
          rcases (sound isCurrent others).repeated rfl blank' with
            ⟨used', spaces'', tree, whole, blank'', derived', value'⟩
          refine ⟨_, spaces'', tree, ?_, blank'', .nextTerm blank adds derived derived', value'⟩
          rw [split, whole]
          simp

end Step

theorem sound_run (fuel : ℕ) : Sound ops src fuel := by
  induction fuel with
  | zero =>
      intro part current text v rest isCurrent ran
      cases current with
      | _ => cases ran
  | succ fuel ih =>
      intro part current text v rest isCurrent ran
      cases part with
      | primary =>
          cases isCurrent
          exact sound_primary ih ran
      | unary =>
          cases isCurrent
          exact sound_unary ih ran
      | factor =>
          cases isCurrent
          exact sound_factor ih ran
      | factors left =>
          rcases Option.map_eq_some_iff.mp isCurrent with ⟨l, isLeft, rfl⟩
          exact sound_factors ih isLeft ran
      | term =>
          cases isCurrent
          exact sound_term ih ran
      | terms left =>
          rcases Option.map_eq_some_iff.mp isCurrent with ⟨l, isLeft, rfl⟩
          exact sound_terms ih isLeft ran
      | expr =>
          cases isCurrent
          exact sound_expr ih ran

end Calculator

end WorkflowEngine
