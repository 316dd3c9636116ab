import Mathlib.Data.List.Infix
import Std.Data.String.ToNat

/-!
# Separators

What an element that occurs only once says about the parts on its two sides: they are
determined by the whole, and no pattern without the element lies across it.
-/

namespace Separators

variable {α : Type} {other : α} {pattern before after before' after' : List α}

/-! ## The two sides -/

theorem append_cons_inj_right (absent : other ∉ after) (absent' : other ∉ after')
    (same : before ++ other :: after = before' ++ other :: after') :
    before = before' ∧ after = after' := by
  rcases List.append_eq_append_iff.mp same with ⟨more, rfl, split⟩ | ⟨more, rfl, split⟩
  · cases more with
    | nil =>
        cases split
        exact ⟨(List.append_nil before).symm, rfl⟩
    | cons first rest =>
        cases split
        exact absurd (List.mem_append_right rest List.mem_cons_self) absent
  · cases more with
    | nil =>
        cases split
        exact ⟨List.append_nil before', rfl⟩
    | cons first rest =>
        cases split
        exact absurd (List.mem_append_right rest List.mem_cons_self) absent'

theorem append_cons_inj_left (absent : other ∉ before) (absent' : other ∉ before')
    (same : before ++ other :: after = before' ++ other :: after') :
    before = before' ∧ after = after' := by
  have reversed := congrArg List.reverse same
  simp only [List.reverse_append, List.reverse_cons, List.append_assoc, List.singleton_append]
    at reversed
  have inj := append_cons_inj_right (by rwa [List.mem_reverse]) (by rwa [List.mem_reverse]) reversed
  exact ⟨List.reverse_injective inj.2, List.reverse_injective inj.1⟩

/-- An element of a list with a last element is the last one or stands before it. -/
theorem append_singleton_eq_append_cons {list : List α} {last : α}
    (same : list ++ [last] = before ++ other :: after) :
    (list = before ∧ last = other) ∨
      ∃ rest, after = rest ++ [last] ∧ list = before ++ other :: rest := by
  rcases List.eq_nil_or_concat after with rfl | ⟨rest, final, rfl⟩
  · obtain ⟨rfl, isLast⟩ := List.append_inj' same rfl
    exact .inl ⟨rfl, List.singleton_inj.mp isLast⟩
  · right
    have concat : list ++ [last] = (before ++ other :: rest) ++ [final] := by
      simpa using same
    obtain ⟨isList, isLast⟩ := List.append_inj' concat rfl
    cases isLast
    exact ⟨rest, List.concat_eq_append, isList⟩

/-! ## Patterns without the separator -/

/-- An occurrence lies on one side. -/
theorem append_eq_append_cons {front back : List α} (free : other ∉ pattern)
    (same : front ++ (pattern ++ back) = before ++ other :: after) :
    (∃ rest, before = front ++ (pattern ++ rest)) ∨
      ∃ rest, front = before ++ other :: rest ∧ after = rest ++ (pattern ++ back) := by
  rcases List.append_eq_append_iff.mp same with ⟨middle, isBefore, inner⟩ | ⟨middle, isFront, inner⟩
  · rcases List.append_eq_append_iff.mp inner with ⟨rest, isMiddle, _⟩ | ⟨rest, isPattern, rest_eq⟩
    · left
      exact ⟨rest, by rw [isBefore, isMiddle]⟩
    · cases rest with
      | nil =>
          left
          rw [List.append_nil] at isPattern
          exact ⟨[], by rw [isBefore, isPattern, List.append_nil]⟩
      | cons first rest =>
          cases rest_eq
          exact absurd (isPattern ▸ List.mem_append_right middle List.mem_cons_self) free
  · cases middle with
    | nil =>
        rw [List.nil_append] at inner
        cases pattern with
        | nil =>
            left
            rw [List.append_nil] at isFront
            exact ⟨[], by rw [isFront, List.nil_append, List.append_nil]⟩
        | cons first others =>
            cases inner
            exact absurd List.mem_cons_self free
    | cons first rest =>
        cases inner
        right
        exact ⟨rest, isFront, rfl⟩

theorem infix_append_cons (free : other ∉ pattern) :
    pattern <:+: before ++ other :: after ↔ pattern <:+: before ∨ pattern <:+: after := by
  constructor
  · rintro ⟨front, back, same⟩
    rw [List.append_assoc] at same
    rcases append_eq_append_cons free same with ⟨rest, isBefore⟩ | ⟨rest, _, isAfter⟩
    · left
      exact ⟨front, rest, by rw [isBefore, List.append_assoc]⟩
    · right
      exact ⟨rest, back, by rw [isAfter, List.append_assoc]⟩
  · rintro (left | right)
    · exact left.trans (List.prefix_append _ _).isInfix
    · exact right.trans ((List.suffix_cons other after).trans (List.suffix_append _ _)).isInfix

theorem prefix_append_cons (free : other ∉ pattern) :
    pattern <+: before ++ other :: after ↔ pattern <+: before := by
  induction before generalizing pattern with
  | nil =>
      cases pattern with
      | nil => simp
      | cons first rest =>
          rw [List.mem_cons, not_or] at free
          rw [List.nil_append, List.cons_prefix_cons, List.prefix_nil]
          exact iff_of_false (fun same => free.1 same.1.symm) (List.cons_ne_nil _ _)
  | cons head tail ih =>
      cases pattern with
      | nil => simp
      | cons first rest =>
          rw [List.mem_cons, not_or] at free
          rw [List.cons_append, List.cons_prefix_cons, List.cons_prefix_cons, ih free.2]

/-! ## Decimal numbers -/

theorem isDigit_of_mem_repr {number : Nat} {char : Char} (membership : char ∈ number.repr.toList) :
    char.isDigit = true := by
  rw [Nat.toList_repr] at membership
  exact Nat.isDigit_of_mem_toDigits (by decide) (by decide) membership

/-- A decimal number holds no other characters than digits. -/
theorem not_mem_repr {number : Nat} {char : Char} (other : char.isDigit = false) :
    char ∉ number.repr.toList := by
  intro membership
  rw [isDigit_of_mem_repr membership] at other
  cases other

end Separators
