import Mathlib.Data.List.Basic
import Mathlib.Data.List.Nodup

/-!
# Reading a list with what came before

A pass over a list that emits something for each item and sees the items it has
passed: its results are those of the single positions, and different positions
with different results give a list without repetitions.
-/

namespace Scan

universe u v

variable {α : Type u} {β : Type v} {emit : List α → α → List β}

/-- What each item of `rest` emits after the items before it. -/
def scan (emit : List α → α → List β) : List α → List α → List β
  | _, [] => []
  | before, item :: rest => emit before item ++ scan emit (before ++ [item]) rest

theorem mem_scan {result : β} {before rest : List α} :
    result ∈ scan emit before rest ↔
      ∃ i item, rest[i]? = some item ∧ result ∈ emit (before ++ rest.take i) item := by
  induction rest generalizing before with
  | nil => simp [scan]
  | cons head rest ih =>
      rw [scan, List.mem_append, ih]
      constructor
      · rintro (first | ⟨i, item, found, later⟩)
        · exact ⟨0, head, rfl, by simpa using first⟩
        · refine ⟨i + 1, item, found, ?_⟩
          simpa using later
      · rintro ⟨i, item, found, emitted⟩
        cases i with
        | zero =>
            cases Option.some.inj found
            exact .inl (by simpa using emitted)
        | succ i =>
            rw [List.getElem?_cons_succ] at found
            exact .inr ⟨i, item, found, by simpa using emitted⟩

/-- A pass from the first item. -/
theorem mem_scan_nil {result : β} {items : List α} :
    result ∈ scan emit [] items ↔
      ∃ i item, items[i]? = some item ∧ result ∈ emit (items.take i) item := by
  simp only [mem_scan, List.nil_append]

/-- Positions that emit different results emit no result twice. -/
theorem nodup_scan (position : β → Nat)
    (placed : ∀ before item, ∀ result ∈ emit before item, position result = before.length)
    (once : ∀ before item, (emit before item).Nodup) (before rest : List α) :
    (scan emit before rest).Nodup := by
  induction rest generalizing before with
  | nil => exact .nil
  | cons head rest ih =>
      refine List.nodup_append.mpr ⟨once before head, ih (before ++ [head]), ?_⟩
      rintro result first _ later rfl
      rcases mem_scan.mp later with ⟨i, item, _, emitted⟩
      have early := placed _ _ result first
      have late := placed _ _ result emitted
      simp only [List.length_append, List.length_singleton] at late
      omega

end Scan
