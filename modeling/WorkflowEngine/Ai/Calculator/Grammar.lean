import WorkflowEngine.Ai.Calculator

/-!
# The grammar of the calculator

Expressions as trees, the texts the grammar derives for them and their values.  Repeated
operators are derived from the left, with the tree of what stands before them.
-/

open Text

namespace WorkflowEngine

namespace Calculator

inductive Tree where
  | number (digits : Text)
  | neg (operand : Tree)
  | binary (op : BinaryOp) (left right : Tree)
  | pow (base exp : Tree)

/-- The value of a tree; none where an operand is refused. -/
def Tree.value {Num : Type} (ops : Arithmetic Num) : Tree → Option Num
  | .number digits => some (ops.literal digits)
  | .neg operand => (operand.value ops).map ops.neg
  | .binary op left right => do
      let v ← left.value ops
      let r ← right.value ops
      if op.divides && ops.isZero r then none else some (ops.binary op v r)
  | .pow base exp => do
      let v ← base.value ops
      let r ← exp.value ops
      if ops.isLarge r then none else some (ops.pow v r)

/-- The parts of an expression, with the value of the operands before a repetition. -/
inductive Part (α : Type) where
  | expr
  | terms (left : α)
  | term
  | factors (left : α)
  | factor
  | unary
  | primary

/-- The words of a number. -/
inductive IsNumber : Text → Prop where
  | whole {digits : Text} (nonempty : digits ≠ []) (all : ∀ first ∈ digits, isDigit first = true) :
      IsNumber digits
  | decimal {digits fraction : Text} (nonempty : digits ≠ [])
      (all : ∀ first ∈ digits, isDigit first = true) (nonempty' : fraction ≠ [])
      (all' : ∀ first ∈ fraction, isDigit first = true) :
      IsNumber (digits ++ unit '.' :: fraction)

def Spaces (text : Text) : Prop := ∀ first ∈ text, first = unit ' '

/-- The operators of `expr` and of `term`. -/
def BinaryOp.adds : BinaryOp → Bool
  | .add | .sub => true
  | .mul | .div | .rem => false

/-- The grammar, with spaces before every token:

  expr   := term (("+" | "-") term)*
  term   := factor (("*" | "/" | "%") factor)*
  factor := unary ("^" factor)?
  unary  := "-" unary | primary
  primary:= number | "(" expr ")" -/
inductive Derives : Part Tree → Text → Tree → Prop where
  | expr {text more : Text} {left tree : Tree} (first : Derives .term text left)
      (others : Derives (.terms left) more tree) : Derives .expr (text ++ more) tree
  | lastTerm {left : Tree} : Derives (.terms left) [] left
  | nextTerm {spaces text more : Text} {op : BinaryOp} {left right tree : Tree}
      (blank : Spaces spaces) (adds : op.adds = true) (operand : Derives .term text right)
      (others : Derives (.terms (.binary op left right)) more tree) :
      Derives (.terms left) (spaces ++ op.symbol :: (text ++ more)) tree
  | term {text more : Text} {left tree : Tree} (first : Derives .factor text left)
      (others : Derives (.factors left) more tree) : Derives .term (text ++ more) tree
  | lastFactor {left : Tree} : Derives (.factors left) [] left
  | nextFactor {spaces text more : Text} {op : BinaryOp} {left right tree : Tree}
      (blank : Spaces spaces) (adds : op.adds = false) (operand : Derives .factor text right)
      (others : Derives (.factors (.binary op left right)) more tree) :
      Derives (.factors left) (spaces ++ op.symbol :: (text ++ more)) tree
  | base {text : Text} {tree : Tree} (only : Derives .unary text tree) : Derives .factor text tree
  | pow {text spaces text' : Text} {base exp : Tree} (isBase : Derives .unary text base)
      (blank : Spaces spaces) (isExp : Derives .factor text' exp) :
      Derives .factor (text ++ (spaces ++ unit '^' :: text')) (.pow base exp)
  | neg {spaces text : Text} {operand : Tree} (blank : Spaces spaces)
      (isOperand : Derives .unary text operand) :
      Derives .unary (spaces ++ unit '-' :: text) (.neg operand)
  | primary {text : Text} {tree : Tree} (only : Derives .primary text tree) :
      Derives .unary text tree
  | number {spaces digits : Text} (blank : Spaces spaces) (isNumber : IsNumber digits) :
      Derives .primary (spaces ++ digits) (.number digits)
  | parentheses {spaces text spaces' : Text} {tree : Tree} (blank : Spaces spaces)
      (inside : Derives .expr text tree) (blank' : Spaces spaces') :
      Derives .primary (spaces ++ unit '(' :: (text ++ (spaces' ++ [unit ')']))) tree

/-- A text that is an expression, with spaces around it. -/
def IsExpression (text : Text) (tree : Tree) : Prop :=
  ∃ inside spaces, text = inside ++ spaces ∧ Derives .expr inside tree ∧ Spaces spaces

end Calculator

end WorkflowEngine
