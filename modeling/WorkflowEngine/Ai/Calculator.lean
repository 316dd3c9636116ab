import WorkflowEngine.Foundations.Text

/-!
# The safe calculator

A tiny recursive-descent parser for arithmetic that computes while it parses.  The
position in the source is given by the text that is left from it on.
-/

open Text

namespace WorkflowEngine

namespace Calculator

/-- The operators between two operands on one level. -/
inductive BinaryOp where
  | add
  | sub
  | mul
  | div
  | rem
  deriving DecidableEq, Repr

def BinaryOp.symbol : BinaryOp → CodeUnit
  | .add => unit '+'
  | .sub => unit '-'
  | .mul => unit '*'
  | .div => unit '/'
  | .rem => unit '%'

/-- Operators that refuse a zero on the right. -/
def BinaryOp.divides : BinaryOp → Bool
  | .div | .rem => true
  | .add | .sub | .mul => false

/-- The numeric operations. -/
structure Arithmetic (Num : Type) where
  /-- `Number` of a text -/
  literal : Text → Num
  neg : Num → Num
  binary : BinaryOp → Num → Num → Num
  /-- `**` -/
  pow : Num → Num → Num
  /-- `=== 0` -/
  isZero : Num → Bool
  /-- `Math.abs(exp) > 100` -/
  isLarge : Num → Bool
  isFinite : Num → Bool
  /-- `Number(value.toPrecision(15))` -/
  round : Num → Num

inductive Failure where
  | error (message : String)
  /-- the parser was given too few steps -/
  | outOfFuel
  deriving DecidableEq, Repr

abbrev Evaluation := Except Failure

def skip (text : Text) : Text := text.dropWhile (· == unit ' ')

/-- The match of `/^\d+(\.\d+)?/` and the text after it. -/
def matchNumber (text : Text) : Option (Text × Text) :=
  let whole := text.takeWhile isDigit
  let rest := text.dropWhile isDigit
  if whole = [] then none
  else
    match rest with
    | [] => some (whole, [])
    | first :: more =>
        if first = unit '.' ∧ more.takeWhile isDigit ≠ [] then
          some (whole ++ first :: more.takeWhile isDigit, more.dropWhile isDigit)
        else some (whole, first :: more)

def termOp (first : CodeUnit) : Option BinaryOp :=
  if first = unit '*' then some .mul
  else if first = unit '/' then some .div
  else if first = unit '%' then some .rem
  else none

def exprOp (first : CodeUnit) : Option BinaryOp :=
  if first = unit '+' then some .add
  else if first = unit '-' then some .sub
  else none

section Parse

variable {Num : Type} (ops : Arithmetic Num) (src : Text)

def position (rest : Text) : ℕ := src.length - rest.length

def number (text : Text) : Evaluation (Num × Text) :=
  match matchNumber (skip text) with
  | none => .error (.error ("expected a number at position " ++ toString (position src (skip text))))
  | some (digits, rest) => .ok (ops.literal digits, rest)

mutual

def primary : ℕ → Text → Evaluation (Num × Text)
  | 0, _ => .error .outOfFuel
  | fuel + 1, text =>
      match skip text with
      | [] => number ops src []
      | first :: more =>
          if first = unit '(' then do
            let (v, rest) ← expr fuel more
            match skip rest with
            | [] => .error (.error "missing closing parenthesis")
            | last :: rest =>
                if last = unit ')' then .ok (v, rest)
                else .error (.error "missing closing parenthesis")
          else number ops src (first :: more)

def unary : ℕ → Text → Evaluation (Num × Text)
  | 0, _ => .error .outOfFuel
  | fuel + 1, text =>
      match skip text with
      | [] => primary fuel []
      | first :: more =>
          if first = unit '-' then do
            let (v, rest) ← unary fuel more
            .ok (ops.neg v, rest)
          else primary fuel (first :: more)

def factor : ℕ → Text → Evaluation (Num × Text)
  | 0, _ => .error .outOfFuel
  | fuel + 1, text => do
      let (base, rest) ← unary fuel text
      match skip rest with
      | [] => .ok (base, [])
      | first :: more =>
          if first = unit '^' then do
            let (exp, rest) ← factor fuel more
            if ops.isLarge exp then .error (.error "exponent too large")
            else .ok (ops.pow base exp, rest)
          else .ok (base, first :: more)

/-- The loop of `term`. -/
def factors : ℕ → Num → Text → Evaluation (Num × Text)
  | 0, _, _ => .error .outOfFuel
  | fuel + 1, v, text =>
      match skip text with
      | [] => .ok (v, [])
      | first :: more =>
          match termOp first with
          | none => .ok (v, first :: more)
          | some op => do
              let (r, rest) ← factor fuel more
              if op.divides && ops.isZero r then .error (.error "division by zero")
              else factors fuel (ops.binary op v r) rest

def term : ℕ → Text → Evaluation (Num × Text)
  | 0, _ => .error .outOfFuel
  | fuel + 1, text => do
      let (v, rest) ← factor fuel text
      factors fuel v rest

/-- The loop of `expr`. -/
def terms : ℕ → Num → Text → Evaluation (Num × Text)
  | 0, _, _ => .error .outOfFuel
  | fuel + 1, v, text =>
      match skip text with
      | [] => .ok (v, [])
      | first :: more =>
          match exprOp first with
          | none => .ok (v, first :: more)
          | some op => do
              let (r, rest) ← term fuel more
              terms fuel (ops.binary op v r) rest

def expr : ℕ → Text → Evaluation (Num × Text)
  | 0, _ => .error .outOfFuel
  | fuel + 1, text => do
      let (v, rest) ← term fuel text
      terms fuel v rest

end

/-- The characters that pass the first check. -/
def isAllowed (first : CodeUnit) : Bool :=
  isDigit first || isWhiteSpace first || (ofString ".+-*/%^()").contains first

end Parse

/-- Every call of the parser takes something from the text or descends one level of the
grammar, of which there are seven. -/
def evaluateArithmetic {Num : Type} (ops : Arithmetic Num) (src : Text) : Evaluation Num :=
  if 200 < src.length then .error (.error "expression too long (max 200 chars)")
  else if ¬ (src ≠ [] ∧ src.all isAllowed = true) then
    .error (.error "only numbers and + - * / % ^ ( ) are allowed")
  else do
    let (value, rest) ← expr ops src (7 * src.length + 7) src
    match skip rest with
    | first :: more =>
        .error (.error ("unexpected \"" ++ decode [first] ++ "\" at position " ++
          toString (position src (first :: more))))
    | [] =>
        if ops.isFinite value then .ok (ops.round value)
        else .error (.error "result is not a finite number")

end Calculator

end WorkflowEngine
