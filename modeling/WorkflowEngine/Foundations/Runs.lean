import WorkflowEngine.Foundations.Separators

/-!
# Runs of one mark

Where a run of equal marks can lie in a list: never across an element that is not the
mark.
-/

open Separators

namespace Runs

variable {α : Type} {mark other : α} {count : ℕ} {before after : List α}

theorem not_mem_replicate (differs : other ≠ mark) : other ∉ List.replicate count mark := by
  intro membership
  exact differs (List.eq_of_mem_replicate membership)

theorem infix_of_infix_nil (inside : List.replicate count mark <:+: []) (list : List α) :
    List.replicate count mark <:+: list := by
  rw [List.infix_nil.mp inside]
  exact List.nil_infix

/-- A run lies on one side of a separator without marks. -/
theorem infix_append_separator {separator : List α} (nonempty : separator ≠ [])
    (differ : ∀ other ∈ separator, other ≠ mark) :
    List.replicate count mark <:+: before ++ (separator ++ after) ↔
      List.replicate count mark <:+: before ∨ List.replicate count mark <:+: after := by
  induction separator generalizing before with
  | nil => exact absurd rfl nonempty
  | cons other rest ih =>
      rw [List.forall_mem_cons] at differ
      rw [List.cons_append, infix_append_cons (not_mem_replicate differ.1)]
      cases rest with
      | nil => rfl
      | cons second rest =>
          have inside : List.replicate count mark <:+: [] ++ (second :: rest ++ after) ↔
              List.replicate count mark <:+: [] ∨ List.replicate count mark <:+: after :=
            ih (List.cons_ne_nil _ _) differ.2
          rw [List.nil_append] at inside
          rw [inside]
          constructor
          · rintro (left | empty | right)
            · exact .inl left
            · exact .inr (infix_of_infix_nil empty after)
            · exact .inr right
          · rintro (left | right)
            · exact .inl left
            · exact .inr (.inr right)

/-- A list without marks holds no run. -/
theorem not_infix_of_forall {list : List α} (differ : ∀ other ∈ list, other ≠ mark)
    (positive : 0 < count) : ¬ List.replicate count mark <:+: list := by
  intro inside
  exact differ mark (inside.subset (List.mem_replicate.mpr ⟨positive.ne', rfl⟩)) rfl

end Runs
