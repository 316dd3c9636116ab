import Mathlib.Data.List.Infix

/-!
# Replacing a pattern

The pattern is replaced wherever it stands, from left to right.  Where the pattern begins
with a mark that occurs nowhere else in it and the replacement begins with the same mark
but continues differently, nothing of the pattern is left and no new one arises.
-/

namespace Replace

variable {α : Type} [DecidableEq α]

/-- Replace a pattern that is not empty; so many elements still belong to the last
occurrence. -/
def replaceFrom (pattern replacement : List α) : ℕ → List α → List α
  | _, [] => []
  | skipped + 1, _ :: rest => replaceFrom pattern replacement skipped rest
  | 0, first :: rest =>
      if pattern <+: first :: rest then
        replacement ++ replaceFrom pattern replacement (pattern.length - 1) rest
      else first :: replaceFrom pattern replacement 0 rest

def replaceAll (pattern replacement text : List α) : List α :=
  replaceFrom pattern replacement 0 text

/-- The text before the first occurrence of the pattern. -/
def upTo (pattern : List α) : List α → Option (List α)
  | [] => if pattern = [] then some [] else none
  | first :: rest =>
      if pattern <+: first :: rest then some [] else (upTo pattern rest).map (first :: ·)

variable {pattern replacement text before after : List α} {mark : α}

/-! ## What is replaced -/

omit [DecidableEq α] in
/-- A pattern begins with its mark. -/
theorem infix_append_of_not_mem {tail : List α} (free : mark ∉ before)
    (inside : mark :: tail <:+: before ++ after) : mark :: tail <:+: after := by
  induction before with
  | nil => exact inside
  | cons first rest ih =>
      rw [List.mem_cons, not_or] at free
      rw [List.cons_append, List.infix_cons_iff, List.cons_prefix_cons] at inside
      cases inside with
      | inl begins => exact absurd begins.1 free.1
      | inr inside => exact ih free.2 inside

theorem replaceAll_eq_self (absent : ¬ pattern <:+: text) :
    replaceAll pattern replacement text = text := by
  induction text with
  | nil => rfl
  | cons first rest ih =>
      rw [List.infix_cons_iff, not_or] at absent
      have others : replaceFrom pattern replacement 0 rest = rest := ih absent.2
      rw [replaceAll, replaceFrom, if_neg absent.1, others]

/-- The replaced text agrees with the text as far as no mark comes. -/
theorem prefix_of_prefix_replaceFrom {list instead : List α} (free : mark ∉ list)
    (begins : list <+: replaceFrom pattern (mark :: instead) 0 text) : list <+: text := by
  induction text generalizing list with
  | nil => exact begins
  | cons first rest ih =>
      cases list with
      | nil => exact List.nil_prefix
      | cons head tail =>
          rw [List.mem_cons, not_or] at free
          rw [replaceFrom] at begins
          split at begins
          · rw [List.cons_append, List.cons_prefix_cons] at begins
            exact absurd begins.1.symm free.1
          · rw [List.cons_prefix_cons] at begins ⊢
            exact ⟨begins.1, ih free.2 begins.2⟩

/-- No occurrence is left and none arises. -/
theorem not_infix_replaceFrom {tail instead : List α} (once : mark ∉ tail) (free : mark ∉ instead)
    (differs : ∀ more, ¬ tail <+: instead ++ more) (skipped : ℕ) :
    ¬ mark :: tail <:+: replaceFrom (mark :: tail) (mark :: instead) skipped text := by
  induction text generalizing skipped with
  | nil =>
      intro inside
      rw [replaceFrom, List.infix_nil] at inside
      cases inside
  | cons first rest ih =>
      cases skipped with
      | succ skipped => exact ih skipped
      | zero =>
          intro inside
          rw [replaceFrom] at inside
          split at inside
          · rw [List.cons_append, List.infix_cons_iff, List.cons_prefix_cons] at inside
            cases inside with
            | inl begins => exact differs _ begins.2
            | inr inside => exact ih _ (infix_append_of_not_mem free inside)
          · next absent =>
              rw [List.infix_cons_iff, List.cons_prefix_cons] at inside
              cases inside with
              | inl begins =>
                  apply absent
                  rw [List.cons_prefix_cons]
                  exact ⟨begins.1, prefix_of_prefix_replaceFrom once begins.2⟩
              | inr inside => exact ih 0 inside

theorem not_infix_replaceAll {tail instead : List α} (once : mark ∉ tail) (free : mark ∉ instead)
    (differs : ∀ more, ¬ tail <+: instead ++ more) :
    ¬ mark :: tail <:+: replaceAll (mark :: tail) (mark :: instead) text :=
  not_infix_replaceFrom once free differs 0

/-! ## Reading up to the pattern -/

/-- What stands before the only occurrence. -/
theorem upTo_of_unique
    (unique : ∀ front back, front ++ (pattern ++ back) = before ++ (pattern ++ after) →
      front = before) :
    upTo pattern (before ++ (pattern ++ after)) = some before := by
  induction before with
  | nil =>
      cases found : [] ++ (pattern ++ after) with
      | nil =>
          rw [List.nil_append, List.append_eq_nil_iff] at found
          exact if_pos found.1
      | cons first rest =>
          have begins : pattern <+: first :: rest := ⟨after, found⟩
          exact if_pos begins
  | cons first rest ih =>
      have later : ¬ pattern <+: first :: (rest ++ (pattern ++ after)) := by
        rintro ⟨back, same⟩
        cases unique [] back same
      have others : upTo pattern (rest ++ (pattern ++ after)) = some rest := by
        apply ih
        intro front back same
        have whole : first :: front = first :: rest := by
          apply unique (first :: front) back
          rw [List.cons_append, List.cons_append, same]
        exact (List.cons.inj whole).2
      rw [List.cons_append, upTo, if_neg later, others]
      rfl

end Replace
