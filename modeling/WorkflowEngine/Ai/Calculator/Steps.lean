import WorkflowEngine.Ai.Calculator.Grammar

/-!
# The calculator terminates

Every call of the parser takes something from the text or descends to a lower part of the
grammar.
-/

open Text

namespace WorkflowEngine

namespace Calculator

/-- The level of a part; a part calls only lower ones on the same text. -/
def Part.rank {α : Type} : Part α → ℕ
  | .primary => 0
  | .unary => 1
  | .factor => 2
  | .factors _ => 3
  | .term => 4
  | .terms _ => 5
  | .expr => 6

variable {Num : Type} {ops : Arithmetic Num} {src : Text}

/-- The function that parses a part. -/
def run (ops : Arithmetic Num) (src : Text) : Part Num → ℕ → Text → Evaluation (Num × Text)
  | .expr => expr ops src
  | .terms left => fun fuel => terms ops src fuel left
  | .term => term ops src
  | .factors left => fun fuel => factors ops src fuel left
  | .factor => factor ops src
  | .unary => unary ops src
  | .primary => primary ops src

/-! ## Enough steps -/

/-- A text at most this long is left, or an error of the source is thrown. -/
def Bounded (bound : ℕ) : Evaluation (Num × Text) → Prop
  | .ok (_, rest) => rest.length ≤ bound
  | .error failure => failure ≠ .outOfFuel

theorem Bounded.bind {bound : ℕ} {first : Evaluation (Num × Text)}
    {next : Num × Text → Evaluation (Num × Text)} (isFirst : Bounded bound first)
    (isNext : ∀ v rest, rest.length ≤ bound → Bounded bound (next (v, rest))) :
    Bounded bound (first >>= next) := by
  cases first with
  | error failure => exact isFirst
  | ok result => exact isNext result.1 result.2 isFirst

theorem Bounded.mono {bound bound' : ℕ} {result : Evaluation (Num × Text)}
    (bounded : Bounded bound result) (below : bound ≤ bound') : Bounded bound' result := by
  cases result with
  | error failure => exact bounded
  | ok result => exact le_trans bounded below

theorem length_skip (text : Text) : (skip text).length ≤ text.length :=
  (List.dropWhile_sublist _).length_le

theorem length_of_skip {text more : Text} {first : CodeUnit} (skipped : skip text = first :: more) :
    more.length < text.length := by
  have shorter := length_skip text
  rw [skipped, List.length_cons] at shorter
  omega

theorem length_of_matchNumber {text digits rest : Text}
    (found : matchNumber text = some (digits, rest)) : rest.length ≤ text.length := by
  have shorter : (text.dropWhile isDigit).length ≤ text.length :=
    (List.dropWhile_sublist _).length_le
  unfold matchNumber at found
  dsimp only at found
  split at found
  · cases found
  · split at found
    · cases found
      exact Nat.zero_le _
    · next first more split =>
        rw [split, List.length_cons] at shorter
        split at found
        · cases found
          have shorter' : (more.dropWhile isDigit).length ≤ more.length :=
            (List.dropWhile_sublist _).length_le
          omega
        · cases found
          rw [List.length_cons]
          omega

theorem number_bounded (text : Text) : Bounded text.length (number ops src text) := by
  unfold number
  split
  · exact nofun
  · next digits rest found => exact le_trans (length_of_matchNumber found) (length_skip text)

theorem Part.rank_le {α : Type} (part : Part α) : part.rank ≤ 6 := by
  cases part <;> simp only [Part.rank] <;> omega

/-- A part that is given seven steps for each code unit, and its rank, does not run out. -/
theorem run_bounded (fuel : ℕ) (part : Part Num) (text : Text)
    (enough : 7 * text.length + part.rank < fuel) :
    Bounded text.length (run ops src part fuel text) := by
  induction fuel generalizing part text with
  | zero => exact absurd enough (Nat.not_lt_zero _)
  | succ fuel ih =>
      have lower : ∀ part' : Part Num, ∀ more : Text, more.length ≤ text.length →
          part'.rank < part.rank → Bounded text.length (run ops src part' fuel more) :=
        fun part' more below less => (ih part' more (by omega)).mono below
      have shorter : ∀ part' : Part Num, ∀ more : Text, more.length < text.length →
          Bounded more.length (run ops src part' fuel more) := by
        intro part' more below
        have rank := part'.rank_le
        exact ih part' more (by omega)
      cases part with
      | primary =>
          simp only [run, primary]
          split
          · exact (number_bounded []).mono (Nat.zero_le _)
          · next first more skipped =>
              have below := length_of_skip skipped
              split
              · apply Bounded.mono _ below.le
                apply Bounded.bind (shorter .expr more below)
                intro v rest below'
                dsimp only
                split
                · exact nofun
                · next last rest skipped' =>
                    split
                    · exact le_trans (length_of_skip skipped').le below'
                    · exact nofun
              · exact (number_bounded (first :: more)).mono below
      | unary =>
          simp only [run, unary]
          split
          · exact lower .primary [] (Nat.zero_le _) Nat.zero_lt_one
          · next first more skipped =>
              have below := length_of_skip skipped
              split
              · apply Bounded.mono _ below.le
                exact Bounded.bind (shorter .unary more below) fun v rest below => below
              · exact lower .primary (first :: more) below Nat.zero_lt_one
      | factor =>
          simp only [run, factor]
          apply Bounded.bind (lower .unary text le_rfl (by decide : 1 < 2))
          intro base rest below
          dsimp only
          split
          · exact Nat.zero_le _
          · next first more skipped =>
              have below' := length_of_skip skipped
              split
              · have inside : more.length < text.length := lt_of_lt_of_le below' below
                apply Bounded.mono _ inside.le
                apply Bounded.bind (shorter .factor more inside)
                intro exp rest below''
                dsimp only
                split
                · exact nofun
                · exact below''
              · exact le_trans below' below
      | factors left =>
          simp only [run, factors]
          split
          · exact Nat.zero_le _
          · next first more skipped =>
              have below := length_of_skip skipped
              split
              · exact below
              · next op isOp =>
                  apply Bounded.mono _ below.le
                  apply Bounded.bind (shorter .factor more below)
                  intro r rest below'
                  dsimp only
                  split
                  · exact nofun
                  · exact (shorter (.factors _) rest (lt_of_le_of_lt below' below)).mono below'
      | term =>
          simp only [run, term]
          apply Bounded.bind (lower .factor text le_rfl (by decide : 2 < 4))
          intro v rest below
          exact lower (.factors v) rest below (by decide : 3 < 4)
      | terms left =>
          simp only [run, terms]
          split
          · exact Nat.zero_le _
          · next first more skipped =>
              have below := length_of_skip skipped
              split
              · exact below
              · next op isOp =>
                  apply Bounded.mono _ below.le
                  apply Bounded.bind (shorter .term more below)
                  intro r rest below'
                  exact (shorter (.terms _) rest (lt_of_le_of_lt below' below)).mono below'
      | expr =>
          simp only [run, expr]
          apply Bounded.bind (lower .term text le_rfl (by decide : 4 < 6))
          intro v rest below
          exact lower (.terms v) rest below (by decide : 5 < 6)

end Calculator

end WorkflowEngine
