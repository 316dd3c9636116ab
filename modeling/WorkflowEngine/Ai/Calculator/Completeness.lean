import WorkflowEngine.Ai.Calculator.Soundness

/-!
# What is in the grammar the calculator accepts

On a text that is derived for a tree with a value, before a text that does not go on with
the same part, the parser takes exactly the text and returns the value.
-/

open Text

namespace WorkflowEngine

namespace Calculator

variable {Num : Type} {ops : Arithmetic Num} {src : Text}

/-! ## Spaces -/

theorem skip_append {spaces : Text} (blank : Spaces spaces) (text : Text) :
    skip (spaces ++ text) = skip text := by
  have all : ∀ first ∈ spaces, (first == unit ' ') = true := by
    intro first membership
    rw [blank first membership]
    decide
  rw [skip, List.dropWhile_append_of_pos all]
  rfl

theorem skip_cons {first : CodeUnit} (text : Text) (notSpace : first ≠ unit ' ') :
    skip (first :: text) = first :: text := by
  have differs : ¬ (first == unit ' ') = true := fun same => notSpace (eq_of_beq same)
  rw [skip, List.dropWhile_cons, if_neg differs]

theorem skip_skip (text : Text) : skip (skip text) = skip text := by
  rcases split_skip text with ⟨spaces, blank, split⟩
  conv => rhs; rw [split, skip_append blank]

/-- A part that begins by skipping spaces. -/
theorem factors_skip (fuel : ℕ) (v : Num) (text : Text) :
    factors ops src fuel v (skip text) = factors ops src fuel v text := by
  cases fuel with
  | zero => rfl
  | succ fuel => rw [factors, factors, skip_skip]

theorem terms_skip (fuel : ℕ) (v : Num) (text : Text) :
    terms ops src fuel v (skip text) = terms ops src fuel v text := by
  cases fuel with
  | zero => rfl
  | succ fuel => rw [terms, terms, skip_skip]

/-! ## Where a part ends -/

/-- The code units with which a part goes on. -/
def Part.continues {α : Type} (part : Part α) (first : CodeUnit) : Bool :=
  match part with
  | .primary | .unary => false
  | .factor => first == unit '^'
  | .factors _ | .term => first == unit '^' || (termOp first).isSome
  | .terms _ | .expr => first == unit '^' || (termOp first).isSome || (exprOp first).isSome

/-- A text that does not go on with a part. -/
structure Stops {α : Type} (part : Part α) (text : Text) : Prop where
  number : ∀ first ∈ text.head?, isDigit first = false ∧ first ≠ unit '.'
  next : ∀ first ∈ (skip text).head?, part.continues first = false

/-- What is left after a part. -/
def Part.leaves {α : Type} (part : Part α) (text : Text) : Text :=
  match part with
  | .primary | .unary => text
  | _ => skip text

/-- After spaces a mark stops every part that does not go on with it. -/
theorem Stops.of_mark {α : Type} {part : Part α} {spaces : Text} {mark : CodeUnit} (text : Text)
    (blank : Spaces spaces) (notSpace : mark ≠ unit ' ') (notDigit : isDigit mark = false)
    (notPoint : mark ≠ unit '.') (stops : part.continues mark = false) :
    Stops part (spaces ++ mark :: text) := by
  constructor
  · intro first isFirst
    cases spaces with
    | nil =>
        cases Option.some.inj isFirst
        exact ⟨notDigit, notPoint⟩
    | cons space spaces =>
        cases Option.some.inj isFirst
        rw [blank first List.mem_cons_self]
        decide
  · intro first isFirst
    rw [skip_append blank, skip_cons _ notSpace] at isFirst
    cases Option.some.inj isFirst
    exact stops

theorem Stops.mono {α β : Type} {part : Part α} {part' : Part β} {text : Text}
    (stops : Stops part text)
    (fewer : ∀ first, part.continues first = false → part'.continues first = false) :
    Stops part' text :=
  ⟨stops.number, fun first isFirst => fewer first (stops.next first isFirst)⟩

/-! ## Numbers -/

theorem digits_append {digits rest : Text} (all : ∀ first ∈ digits, isDigit first = true)
    (ends : NoDigit rest) :
    (digits ++ rest).takeWhile isDigit = digits ∧ (digits ++ rest).dropWhile isDigit = rest := by
  have spans := span_digits all ends
  rw [List.span_eq_takeWhile_dropWhile, Prod.mk.injEq] at spans
  exact spans

theorem matchNumber_append {digits rest : Text} (isNumber : IsNumber digits)
    (stops : ∀ first ∈ rest.head?, isDigit first = false ∧ first ≠ unit '.') :
    matchNumber (digits ++ rest) = some (digits, rest) := by
  have noDigit : NoDigit rest := fun first isFirst => (stops first isFirst).1
  unfold matchNumber
  dsimp only
  cases isNumber with
  | whole nonempty all =>
      have parts := digits_append all noDigit
      rw [parts.1, parts.2, if_neg nonempty]
      cases rest with
      | nil => rfl
      | cons first more => exact if_neg fun fraction => (stops first rfl).2 fraction.1
  | @decimal whole fraction nonempty all nonempty' all' =>
      have pointEnds : NoDigit (unit '.' :: (fraction ++ rest)) := by
        intro first isFirst
        cases Option.some.inj isFirst
        decide
      have parts := digits_append all pointEnds
      have parts' := digits_append all' noDigit
      have isFraction : unit '.' = unit '.' ∧ (fraction ++ rest).takeWhile isDigit ≠ [] := by
        rw [parts'.1]
        exact ⟨rfl, nonempty'⟩
      rw [List.append_assoc, List.cons_append, parts.1, parts.2, if_neg nonempty]
      dsimp only
      rw [if_pos isFraction, parts'.1, parts'.2]

theorem isNumber_head {digits : Text} (isNumber : IsNumber digits) :
    ∃ first more, digits = first :: more ∧ isDigit first = true := by
  have begins : ∀ digits rest : Text, digits ≠ [] → (∀ first ∈ digits, isDigit first = true) →
      ∃ first more, digits ++ rest = first :: more ∧ isDigit first = true := by
    intro digits rest nonempty all
    cases digits with
    | nil => exact absurd rfl nonempty
    | cons first more => exact ⟨first, more ++ rest, rfl, all first List.mem_cons_self⟩
  cases isNumber with
  | whole nonempty all =>
      have head := begins digits [] nonempty all
      rwa [List.append_nil] at head
  | decimal nonempty all nonempty' all' => exact begins _ _ nonempty all

/-! ## Operators -/

theorem termOp_symbol {op : BinaryOp} (multiplies : op.adds = false) :
    termOp op.symbol = some op := by
  cases op with
  | add | sub => cases multiplies
  | mul | div | rem => decide

theorem exprOp_symbol {op : BinaryOp} (adds : op.adds = true) : exprOp op.symbol = some op := by
  cases op with
  | add | sub => decide
  | mul | div | rem => cases adds

/-- A text after an operator of a higher level does not go on with the operand. -/
theorem stops_symbol {α : Type} {part : Part α} {spaces : Text} {op : BinaryOp} (text : Text)
    (blank : Spaces spaces) (stops : part.continues op.symbol = false) :
    Stops part (spaces ++ op.symbol :: text) := by
  cases op with
  | _ => exact .of_mark text blank (by decide) (by decide) (by decide) stops

theorem value_of_binary {op : BinaryOp} {left right : Tree} {v : Num}
    (isValue : (Tree.binary op left right).value ops = some v) :
    ∃ l r, left.value ops = some l ∧ right.value ops = some r ∧
      (op.divides && ops.isZero r) = false ∧ v = ops.binary op l r := by
  rw [Tree.value] at isValue
  rcases Option.bind_eq_some_iff.mp isValue with ⟨l, isLeft, rest⟩
  rcases Option.bind_eq_some_iff.mp rest with ⟨r, isRight, result⟩
  split at result
  · cases result
  · next accepted =>
      cases result
      exact ⟨l, r, isLeft, isRight, Bool.eq_false_iff.mpr accepted, rfl⟩

theorem value_of_pow {base exp : Tree} {v : Num} (isValue : (Tree.pow base exp).value ops = some v) :
    ∃ b e, base.value ops = some b ∧ exp.value ops = some e ∧ ops.isLarge e = false ∧
      v = ops.pow b e := by
  rw [Tree.value] at isValue
  rcases Option.bind_eq_some_iff.mp isValue with ⟨b, isBase, rest⟩
  rcases Option.bind_eq_some_iff.mp rest with ⟨e, isExp, result⟩
  split at result
  · cases result
  · next small =>
      cases result
      exact ⟨b, e, isBase, isExp, Bool.eq_false_iff.mpr small, rfl⟩

/-- The tree before a repetition, which the tree after it contains. -/
def Part.left {α : Type} : Part α → Option α
  | .terms left | .factors left => some left
  | _ => none

theorem Derives.left_value {part : Part Tree} {text : Text} {tree left : Tree} {v : Num}
    (derived : Derives part text tree) (isLeft : part.left = some left)
    (isValue : tree.value ops = some v) : ∃ l, left.value ops = some l := by
  induction derived generalizing left with
  | lastTerm | lastFactor =>
      cases isLeft
      exact ⟨v, isValue⟩
  | nextTerm blank adds operand others _ ih | nextFactor blank adds operand others _ ih =>
      cases isLeft
      rcases ih rfl isValue with ⟨value, isBinary⟩
      rcases value_of_binary isBinary with ⟨l, r, isLeft, -⟩
      exact ⟨l, isLeft⟩
  | _ => cases isLeft

/-- A term ends where the repetition of terms begins. -/
theorem Derives.stops_term {left tree : Tree} {more rest : Text}
    (derived : Derives (.terms left) more tree) (stops : Stops (.terms left) rest) :
    Stops (.term : Part Tree) (more ++ rest) := by
  cases derived with
  | lastTerm =>
      rw [List.nil_append]
      apply stops.mono
      intro first ends
      exact (Bool.or_eq_false_iff.mp ends).1
  | @nextTerm spaces text more op _ _ _ blank adds operand others =>
      rw [List.append_assoc, List.cons_append]
      apply stops_symbol _ blank
      cases op with
      | add | sub => decide
      | mul | div | rem => cases adds

/-- A factor ends where the repetition of factors begins. -/
theorem Derives.stops_factor {left tree : Tree} {more rest : Text}
    (derived : Derives (.factors left) more tree) (stops : Stops (.factors left) rest) :
    Stops (.factor : Part Tree) (more ++ rest) := by
  cases derived with
  | lastFactor =>
      rw [List.nil_append]
      apply stops.mono
      intro first ends
      exact (Bool.or_eq_false_iff.mp ends).1
  | @nextFactor spaces text more op _ _ _ blank adds operand others =>
      rw [List.append_assoc, List.cons_append]
      apply stops_symbol _ blank
      cases op with
      | add | sub => cases adds
      | mul | div | rem => decide

theorem ok_bind {α β : Type} (value : α) (next : α → Evaluation β) :
    (Except.ok value : Evaluation α) >>= next = next value := rfl

/-! ## The parts -/

/-- The parser takes a derived text and returns the value of its tree. -/
def Complete (ops : Arithmetic Num) (src : Text) (part : Part Tree) (text : Text) (tree : Tree) :
    Prop :=
  ∀ {current : Part Num} {v : Num} {rest : Text} {fuel : ℕ}, part.value ops = some current →
    tree.value ops = some v → Stops part rest → 7 * (text ++ rest).length + part.rank < fuel →
      run ops src current fuel (text ++ rest) = .ok (v, part.leaves rest)

theorem complete_number {spaces digits : Text} (blank : Spaces spaces)
    (isNumber : IsNumber digits) : Complete ops src .primary (spaces ++ digits) (.number digits) := by
  intro current v rest fuel isCurrent isValue stops enough
  cases isCurrent
  cases isValue
  rcases isNumber_head isNumber with ⟨first, more, begins, isFirst⟩
  have notSpace : first ≠ unit ' ' := by
    rintro rfl
    exact absurd isFirst (by decide)
  have notOpen : first ≠ unit '(' := by
    rintro rfl
    exact absurd isFirst (by decide)
  have skipped : skip (spaces ++ digits ++ rest) = first :: (more ++ rest) := by
    rw [List.append_assoc, skip_append blank, begins]
    exact skip_cons _ notSpace
  have whole : skip (first :: (more ++ rest)) = digits ++ rest := by
    rw [skip_cons _ notSpace, begins]
    rfl
  cases fuel with
  | zero => exact absurd enough (Nat.not_lt_zero _)
  | succ fuel =>
      dsimp only [run]
      rw [primary, skipped]
      dsimp only
      rw [if_neg notOpen, number, whole, matchNumber_append isNumber stops.number]
      rfl

theorem complete_parentheses {spaces text spaces' : Text} {tree : Tree} (blank : Spaces spaces)
    (inside : Complete ops src .expr text tree) (blank' : Spaces spaces') :
    Complete ops src .primary (spaces ++ unit '(' :: (text ++ (spaces' ++ [unit ')']))) tree := by
  intro current v rest fuel isCurrent isValue stops enough
  cases isCurrent
  have skipped : skip (spaces ++ unit '(' :: (text ++ (spaces' ++ [unit ')'])) ++ rest) =
      unit '(' :: (text ++ (spaces' ++ unit ')' :: rest)) := by
    rw [List.append_assoc, skip_append blank, List.cons_append, skip_cons _ (by decide)]
    simp
  have closes : skip (skip (spaces' ++ unit ')' :: rest)) = unit ')' :: rest := by
    rw [skip_skip, skip_append blank', skip_cons _ (by decide)]
  have ends : Stops (.expr : Part Tree) (spaces' ++ unit ')' :: rest) :=
    .of_mark rest blank' (by decide) (by decide) (by decide) (by decide)
  have length : (spaces ++ unit '(' :: (text ++ (spaces' ++ [unit ')'])) ++ rest).length =
      spaces.length + 1 + (text ++ (spaces' ++ unit ')' :: rest)).length := by
    simp
    omega
  cases fuel with
  | zero => exact absurd enough (Nat.not_lt_zero _)
  | succ fuel =>
      have steps : 7 * (text ++ (spaces' ++ unit ')' :: rest)).length +
          (.expr : Part Tree).rank < fuel := by
        rw [length] at enough
        simp only [Part.rank] at enough ⊢
        omega
      have ran := inside rfl isValue ends steps
      dsimp only [run] at ran
      dsimp only [run]
      rw [primary, skipped]
      dsimp only
      rw [if_pos rfl, ran, ok_bind]
      dsimp only [Part.leaves]
      rw [closes]
      exact if_pos rfl

theorem complete_neg {spaces text : Text} {operand : Tree} (blank : Spaces spaces)
    (isOperand : Complete ops src .unary text operand) :
    Complete ops src .unary (spaces ++ unit '-' :: text) (.neg operand) := by
  intro current v rest fuel isCurrent isValue stops enough
  cases isCurrent
  rw [Tree.value] at isValue
  rcases Option.map_eq_some_iff.mp isValue with ⟨inner, isInner, rfl⟩
  have skipped : skip (spaces ++ unit '-' :: text ++ rest) = unit '-' :: (text ++ rest) := by
    rw [List.append_assoc, skip_append blank, List.cons_append, skip_cons _ (by decide)]
  have length : (spaces ++ unit '-' :: text ++ rest).length =
      spaces.length + 1 + (text ++ rest).length := by
    simp
    omega
  cases fuel with
  | zero => exact absurd enough (Nat.not_lt_zero _)
  | succ fuel =>
      have steps : 7 * (text ++ rest).length + (.unary : Part Tree).rank < fuel := by
        rw [length] at enough
        simp only [Part.rank] at enough ⊢
        omega
      have ran := isOperand rfl isInner stops steps
      dsimp only [run] at ran
      dsimp only [run]
      rw [unary, skipped]
      dsimp only
      rw [if_pos rfl, ran]
      rfl

theorem Derives.primary_head {text : Text} {tree : Tree} (derived : Derives .primary text tree)
    (rest : Text) : ∃ first more, skip (text ++ rest) = first :: more ∧ first ≠ unit '-' := by
  cases derived with
  | @number spaces digits blank isNumber =>
      rcases isNumber_head isNumber with ⟨first, more, rfl, isFirst⟩
      have notSpace : first ≠ unit ' ' := by
        rintro rfl
        exact absurd isFirst (by decide)
      refine ⟨first, more ++ rest, ?_, ?_⟩
      · rw [List.append_assoc, skip_append blank, List.cons_append, skip_cons _ notSpace]
      · rintro rfl
        exact absurd isFirst (by decide)
  | @parentheses spaces text spaces' _ blank inside blank' =>
      refine ⟨unit '(', text ++ (spaces' ++ [unit ')']) ++ rest, ?_, by decide⟩
      rw [List.append_assoc, skip_append blank, List.cons_append, skip_cons _ (by decide)]

theorem primary_skip (fuel : ℕ) (text : Text) :
    primary ops src fuel (skip text) = primary ops src fuel text := by
  cases fuel with
  | zero => rfl
  | succ fuel => rw [primary, primary, skip_skip]

theorem complete_primary {text : Text} {tree : Tree} (derived : Derives .primary text tree)
    (only : Complete ops src .primary text tree) : Complete ops src .unary text tree := by
  intro current v rest fuel isCurrent isValue stops enough
  cases isCurrent
  rcases derived.primary_head rest with ⟨first, more, skipped, notMinus⟩
  cases fuel with
  | zero => exact absurd enough (Nat.not_lt_zero _)
  | succ fuel =>
      have steps : 7 * (text ++ rest).length + (.primary : Part Tree).rank < fuel := by
        simp only [Part.rank] at enough ⊢
        omega
      have ran := only rfl isValue (stops.mono fun _ ends => ends) steps
      dsimp only [run] at ran
      dsimp only [run]
      rw [unary, skipped]
      dsimp only
      rw [if_neg notMinus, ← skipped, primary_skip, ran]
      rfl

theorem complete_base {text : Text} {tree : Tree} (only : Complete ops src .unary text tree) :
    Complete ops src .factor text tree := by
  intro current v rest fuel isCurrent isValue stops enough
  cases isCurrent
  cases fuel with
  | zero => exact absurd enough (Nat.not_lt_zero _)
  | succ fuel =>
      have steps : 7 * (text ++ rest).length + (.unary : Part Tree).rank < fuel := by
        simp only [Part.rank] at enough ⊢
        omega
      have ran := only rfl isValue (stops.mono fun _ _ => rfl) steps
      dsimp only [run] at ran
      dsimp only [run]
      rw [factor, ran, ok_bind]
      dsimp only [Part.leaves]
      cases skipped : skip rest with
      | nil => rfl
      | cons first more =>
          have ends := stops.next first (by rw [skipped]; rfl)
          have notPower : first ≠ unit '^' := by
            rintro rfl
            cases ends
          exact if_neg notPower

theorem complete_pow {text spaces text' : Text} {base exp : Tree}
    (isBase : Complete ops src .unary text base) (blank : Spaces spaces)
    (isExp : Complete ops src .factor text' exp) :
    Complete ops src .factor (text ++ (spaces ++ unit '^' :: text')) (.pow base exp) := by
  intro current v rest fuel isCurrent isValue stops enough
  cases isCurrent
  rcases value_of_pow isValue with ⟨b, e, baseValue, expValue, small, rfl⟩
  have whole : text ++ (spaces ++ unit '^' :: text') ++ rest =
      text ++ (spaces ++ unit '^' :: (text' ++ rest)) := by simp
  have skipped : skip (spaces ++ unit '^' :: (text' ++ rest)) = unit '^' :: (text' ++ rest) := by
    rw [skip_append blank, skip_cons _ (by decide)]
  have ends : Stops (.unary : Part Tree) (spaces ++ unit '^' :: (text' ++ rest)) :=
    .of_mark _ blank (by decide) (by decide) (by decide) rfl
  have length : (text ++ (spaces ++ unit '^' :: (text' ++ rest))).length =
      text.length + spaces.length + 1 + (text' ++ rest).length := by
    simp
    omega
  rw [whole] at enough ⊢
  cases fuel with
  | zero => exact absurd enough (Nat.not_lt_zero _)
  | succ fuel =>
      have steps : 7 * (text ++ (spaces ++ unit '^' :: (text' ++ rest))).length +
          (.unary : Part Tree).rank < fuel := by
        simp only [Part.rank] at enough ⊢
        omega
      have steps' : 7 * (text' ++ rest).length + (.factor : Part Tree).rank < fuel := by
        rw [length] at enough
        simp only [Part.rank] at enough ⊢
        omega
      have ran := isBase rfl baseValue ends steps
      have ran' := isExp rfl expValue stops steps'
      dsimp only [run] at ran
      dsimp only [run] at ran'
      dsimp only [run]
      rw [factor, ran, ok_bind]
      dsimp only [Part.leaves]
      rw [skipped]
      dsimp only
      rw [if_pos rfl, ran', ok_bind]
      dsimp only
      rw [small]
      rfl

theorem complete_term {text more : Text} {left tree : Tree}
    (first : Complete ops src .factor text left) (derived : Derives (.factors left) more tree)
    (others : Complete ops src (.factors left) more tree) :
    Complete ops src .term (text ++ more) tree := by
  intro current v rest fuel isCurrent isValue stops enough
  cases isCurrent
  rcases derived.left_value rfl isValue with ⟨l, isLeft⟩
  have isRepeated : (Part.factors left).value ops = some (.factors l) := by
    rw [Part.value, isLeft]
    rfl
  have stopsRepeated : Stops (.factors left) rest := stops.mono fun _ ends => ends
  have length : (text ++ (more ++ rest)).length = text.length + (more ++ rest).length :=
    List.length_append
  rw [List.append_assoc] at enough ⊢
  cases fuel with
  | zero => exact absurd enough (Nat.not_lt_zero _)
  | succ fuel =>
      have steps : 7 * (text ++ (more ++ rest)).length + (.factor : Part Tree).rank < fuel := by
        simp only [Part.rank] at enough ⊢
        omega
      have steps' : 7 * (more ++ rest).length + (.factors left : Part Tree).rank < fuel := by
        rw [length] at enough
        simp only [Part.rank] at enough ⊢
        omega
      have ran := first rfl isLeft (derived.stops_factor stopsRepeated) steps
      have ran' := others isRepeated isValue stopsRepeated steps'
      dsimp only [run] at ran
      dsimp only [run] at ran'
      dsimp only [run]
      rw [term, ran, ok_bind]
      dsimp only [Part.leaves]
      rw [factors_skip, ran']
      rfl

theorem complete_expr {text more : Text} {left tree : Tree}
    (first : Complete ops src .term text left) (derived : Derives (.terms left) more tree)
    (others : Complete ops src (.terms left) more tree) :
    Complete ops src .expr (text ++ more) tree := by
  intro current v rest fuel isCurrent isValue stops enough
  cases isCurrent
  rcases derived.left_value rfl isValue with ⟨l, isLeft⟩
  have isRepeated : (Part.terms left).value ops = some (.terms l) := by
    rw [Part.value, isLeft]
    rfl
  have stopsRepeated : Stops (.terms left) rest := stops.mono fun _ ends => ends
  have length : (text ++ (more ++ rest)).length = text.length + (more ++ rest).length :=
    List.length_append
  rw [List.append_assoc] at enough ⊢
  cases fuel with
  | zero => exact absurd enough (Nat.not_lt_zero _)
  | succ fuel =>
      have steps : 7 * (text ++ (more ++ rest)).length + (.term : Part Tree).rank < fuel := by
        simp only [Part.rank] at enough ⊢
        omega
      have steps' : 7 * (more ++ rest).length + (.terms left : Part Tree).rank < fuel := by
        rw [length] at enough
        simp only [Part.rank] at enough ⊢
        omega
      have ran := first rfl isLeft (derived.stops_term stopsRepeated) steps
      have ran' := others isRepeated isValue stopsRepeated steps'
      dsimp only [run] at ran
      dsimp only [run] at ran'
      dsimp only [run]
      rw [expr, ran, ok_bind]
      dsimp only [Part.leaves]
      rw [terms_skip, ran']
      rfl

theorem complete_lastFactor (left : Tree) : Complete ops src (.factors left) [] left := by
  intro current v rest fuel isCurrent isValue stops enough
  rw [Part.value, isValue] at isCurrent
  cases isCurrent
  cases fuel with
  | zero => exact absurd enough (Nat.not_lt_zero _)
  | succ fuel =>
      rw [List.nil_append]
      dsimp only [run]
      rw [factors]
      dsimp only [Part.leaves]
      cases skipped : skip rest with
      | nil => rfl
      | cons first more =>
          have ends := stops.next first (by rw [skipped]; rfl)
          have notOp := Option.isSome_eq_false_iff.mp (Bool.or_eq_false_iff.mp ends).2
          rw [Option.isNone_iff_eq_none] at notOp
          dsimp only
          rw [notOp]

theorem complete_lastTerm (left : Tree) : Complete ops src (.terms left) [] left := by
  intro current v rest fuel isCurrent isValue stops enough
  rw [Part.value, isValue] at isCurrent
  cases isCurrent
  cases fuel with
  | zero => exact absurd enough (Nat.not_lt_zero _)
  | succ fuel =>
      rw [List.nil_append]
      dsimp only [run]
      rw [terms]
      dsimp only [Part.leaves]
      cases skipped : skip rest with
      | nil => rfl
      | cons first more =>
          have ends := stops.next first (by rw [skipped]; rfl)
          have notOp := Option.isSome_eq_false_iff.mp (Bool.or_eq_false_iff.mp ends).2
          rw [Option.isNone_iff_eq_none] at notOp
          dsimp only
          rw [notOp]

theorem symbol_ne_space (op : BinaryOp) : op.symbol ≠ unit ' ' := by
  cases op with
  | _ => decide

theorem complete_nextFactor {spaces text more : Text} {op : BinaryOp} {left right tree : Tree}
    (blank : Spaces spaces) (multiplies : op.adds = false)
    (operand : Complete ops src .factor text right)
    (derived : Derives (.factors (.binary op left right)) more tree)
    (others : Complete ops src (.factors (.binary op left right)) more tree) :
    Complete ops src (.factors left) (spaces ++ op.symbol :: (text ++ more)) tree := by
  intro current v rest fuel isCurrent isValue stops enough
  rcases derived.left_value rfl isValue with ⟨value, isBinary⟩
  rcases value_of_binary isBinary with ⟨l, r, isLeft, isRight, accepted, rfl⟩
  rw [Part.value, isLeft] at isCurrent
  cases isCurrent
  have isRepeated : (Part.factors (.binary op left right)).value ops =
      some (.factors (ops.binary op l r)) := by
    rw [Part.value, isBinary]
    rfl
  have stopsRepeated : Stops (.factors (Tree.binary op left right)) rest :=
    stops.mono fun _ ends => ends
  have whole : spaces ++ op.symbol :: (text ++ more) ++ rest =
      spaces ++ op.symbol :: (text ++ (more ++ rest)) := by simp
  have skipped : skip (spaces ++ op.symbol :: (text ++ (more ++ rest))) =
      op.symbol :: (text ++ (more ++ rest)) := by
    rw [skip_append blank, skip_cons _ (symbol_ne_space op)]
  have length : (spaces ++ op.symbol :: (text ++ (more ++ rest))).length =
      spaces.length + 1 + (text ++ (more ++ rest)).length := by
    simp
    omega
  have length' : (text ++ (more ++ rest)).length = text.length + (more ++ rest).length :=
    List.length_append
  rw [whole] at enough ⊢
  rw [length] at enough
  cases fuel with
  | zero => exact absurd enough (Nat.not_lt_zero _)
  | succ fuel =>
      have steps : 7 * (text ++ (more ++ rest)).length + (.factor : Part Tree).rank < fuel := by
        simp only [Part.rank] at enough ⊢
        omega
      have steps' : 7 * (more ++ rest).length +
          (.factors (Tree.binary op left right) : Part Tree).rank < fuel := by
        simp only [Part.rank] at enough ⊢
        omega
      have ran := operand rfl isRight (derived.stops_factor stopsRepeated) steps
      have ran' := others isRepeated isValue stopsRepeated steps'
      dsimp only [run] at ran
      dsimp only [run] at ran'
      dsimp only [run]
      rw [factors, skipped]
      dsimp only
      rw [termOp_symbol multiplies]
      dsimp only
      rw [ran, ok_bind]
      dsimp only [Part.leaves]
      rw [accepted, if_neg Bool.false_ne_true, factors_skip, ran']
      rfl

theorem complete_nextTerm {spaces text more : Text} {op : BinaryOp} {left right tree : Tree}
    (blank : Spaces spaces) (adds : op.adds = true) (operand : Complete ops src .term text right)
    (derived : Derives (.terms (.binary op left right)) more tree)
    (others : Complete ops src (.terms (.binary op left right)) more tree) :
    Complete ops src (.terms left) (spaces ++ op.symbol :: (text ++ more)) tree := by
  intro current v rest fuel isCurrent isValue stops enough
  rcases derived.left_value rfl isValue with ⟨value, isBinary⟩
  rcases value_of_binary isBinary with ⟨l, r, isLeft, isRight, accepted, rfl⟩
  rw [Part.value, isLeft] at isCurrent
  cases isCurrent
  have isRepeated : (Part.terms (.binary op left right)).value ops =
      some (.terms (ops.binary op l r)) := by
    rw [Part.value, isBinary]
    rfl
  have stopsRepeated : Stops (.terms (Tree.binary op left right)) rest :=
    stops.mono fun _ ends => ends
  have whole : spaces ++ op.symbol :: (text ++ more) ++ rest =
      spaces ++ op.symbol :: (text ++ (more ++ rest)) := by simp
  have skipped : skip (spaces ++ op.symbol :: (text ++ (more ++ rest))) =
      op.symbol :: (text ++ (more ++ rest)) := by
    rw [skip_append blank, skip_cons _ (symbol_ne_space op)]
  have length : (spaces ++ op.symbol :: (text ++ (more ++ rest))).length =
      spaces.length + 1 + (text ++ (more ++ rest)).length := by
    simp
    omega
  have length' : (text ++ (more ++ rest)).length = text.length + (more ++ rest).length :=
    List.length_append
  rw [whole] at enough ⊢
  rw [length] at enough
  cases fuel with
  | zero => exact absurd enough (Nat.not_lt_zero _)
  | succ fuel =>
      have steps : 7 * (text ++ (more ++ rest)).length + (.term : Part Tree).rank < fuel := by
        simp only [Part.rank] at enough ⊢
        omega
      have steps' : 7 * (more ++ rest).length +
          (.terms (Tree.binary op left right) : Part Tree).rank < fuel := by
        simp only [Part.rank] at enough ⊢
        omega
      have ran := operand rfl isRight (derived.stops_term stopsRepeated) steps
      have ran' := others isRepeated isValue stopsRepeated steps'
      dsimp only [run] at ran
      dsimp only [run] at ran'
      dsimp only [run]
      rw [terms, skipped]
      dsimp only
      rw [exprOp_symbol adds]
      dsimp only
      rw [ran, ok_bind]
      dsimp only [Part.leaves]
      rw [terms_skip, ran']
      rfl

theorem complete_run {part : Part Tree} {text : Text} {tree : Tree}
    (derived : Derives part text tree) : Complete ops src part text tree := by
  induction derived with
  | expr first others ih ihOthers => exact complete_expr ih others ihOthers
  | lastTerm => exact complete_lastTerm _
  | nextTerm blank adds operand others ih ihOthers =>
      exact complete_nextTerm blank adds ih others ihOthers
  | term first others ih ihOthers => exact complete_term ih others ihOthers
  | lastFactor => exact complete_lastFactor _
  | nextFactor blank multiplies operand others ih ihOthers =>
      exact complete_nextFactor blank multiplies ih others ihOthers
  | base only ih => exact complete_base ih
  | pow isBase blank isExp ih ihExp => exact complete_pow ih blank ihExp
  | neg blank isOperand ih => exact complete_neg blank ih
  | primary only ih => exact complete_primary only ih
  | number blank isNumber => exact complete_number blank isNumber
  | parentheses blank inside blank' ih => exact complete_parentheses blank ih blank'

end Calculator

end WorkflowEngine
