import Mathlib.Data.List.Basic
import Mathlib.Data.List.Nodup

/-!
# Counting and selecting members of lists

How a count changes when one element changes or leaves the counted set, and what a
selection shows of a map that rewrites only one class of the elements.
-/

namespace Counting

universe u v

/-- When one key leaves a set, the members of a list that are in the set become
fewer by the occurrences of the key. -/
theorem countP_leave_count {K : Type u} [DecidableEq K] {keys : List K}
    {before after : K → Bool} {key : K} (was : before key = true) (left : after key = false)
    (others : ∀ other, other ≠ key → after other = before other) :
    keys.countP before = keys.countP after + keys.count key := by
  induction keys with
  | nil => rfl
  | cons head rest ih =>
      rw [List.countP_cons, List.countP_cons, List.count_cons, ih]
      by_cases same : head = key
      · subst same
        rw [if_pos was, left, if_pos (beq_self_eq_true head)]
        simp only [Bool.false_eq_true, if_false]
        omega
      · have other : ¬ (head == key) = true := by simpa using same
        rw [others head same, if_neg other]
        omega

/-- Without repetitions the key leaves once if it is listed. -/
theorem countP_leave {K : Type u} [DecidableEq K] {keys : List K} (nodup : keys.Nodup)
    {before after : K → Bool} {key : K} (was : before key = true) (left : after key = false)
    (others : ∀ other, other ≠ key → after other = before other) :
    keys.countP before = keys.countP after + if key ∈ keys then 1 else 0 := by
  rw [countP_leave_count was left others]
  split
  · next listed => rw [List.count_eq_one_of_mem nodup listed]
  · next absent => rw [List.count_eq_zero_of_not_mem absent]

variable {α : Type u} {K : Type v} [DecidableEq K] {keyOf : α → K} {items : List α}

/-- Replacing an item leaves the others alone. -/
theorem map_replace_of_not_mem {key : K} (absent : key ∉ items.map keyOf) (replacement : α) :
    (items.map fun other => if keyOf other = key then replacement else other) = items := by
  have same : ∀ other ∈ items,
      (if keyOf other = key then replacement else other) = id other := by
    intro other membership
    rw [if_neg, id]
    intro isKey
    exact absent (isKey ▸ List.mem_map_of_mem membership)
  rw [List.map_congr_left same, List.map_id]

/-- Replacing the item with one key changes a count by that item alone. -/
theorem countP_replace (nodup : (items.map keyOf).Nodup) {item replacement : α}
    (membership : item ∈ items) (counts : α → Bool) :
    (items.map fun other => if keyOf other = keyOf item then replacement else other).countP
        counts + (if counts item then 1 else 0) =
      items.countP counts + if counts replacement then 1 else 0 := by
  induction items with
  | nil => cases membership
  | cons head rest ih =>
      rw [List.map_cons, List.nodup_cons] at nodup
      rw [List.map_cons, List.countP_cons, List.countP_cons]
      rcases List.mem_cons.mp membership with rfl | inRest
      · rw [if_pos rfl, map_replace_of_not_mem nodup.1]
        omega
      · have different : keyOf head ≠ keyOf item := by
          intro same
          exact nodup.1 (same ▸ List.mem_map_of_mem inRest)
        rw [if_neg different]
        have later := ih nodup.2 inRest
        omega

/-- A map that keeps a property keeps its count. -/
theorem countP_map_of_iff {counts : α → Bool} {image : α → α}
    (same : ∀ item ∈ items, counts (image item) = counts item) :
    (items.map image).countP counts = items.countP counts := by
  rw [List.countP_map]
  apply List.countP_congr
  intro item membership
  rw [Function.comp_apply, same item membership]

/-! ## Rewriting one class -/

section Class

variable {isMember selected : α → Bool} {image : α → α}

/-- A map that rewrites the members of a class, seen by the class. -/
theorem filter_map_class (keeps : ∀ item ∈ items, isMember item = true →
      isMember (image item) = true) :
    (items.map fun item => if isMember item = true then image item else item).filter isMember =
      (items.filter isMember).map image := by
  rw [List.filter_map]
  have same : ∀ item ∈ items, (isMember ∘ fun item =>
      if isMember item = true then image item else item) item = isMember item := by
    intro item membership
    simp only [Function.comp_apply]
    split
    · next member => rw [member, keeps item membership member]
    · rfl
  rw [List.filter_congr same]
  apply List.map_congr_left
  intro item membership
  exact if_pos (List.mem_filter.mp membership).2

/-- A map that rewrites the members of a class, seen by another class. -/
theorem filter_map_other (disjoint : ∀ item, isMember item = true → selected item = false)
    (keeps : ∀ item ∈ items, isMember item = true → isMember (image item) = true) :
    (items.map fun item => if isMember item = true then image item else item).filter selected =
      items.filter selected := by
  rw [List.filter_map]
  have same : ∀ item ∈ items, (selected ∘ fun item =>
      if isMember item = true then image item else item) item = selected item := by
    intro item membership
    simp only [Function.comp_apply]
    split
    · next member =>
      rw [disjoint item member, disjoint _ (keeps item membership member)]
    · rfl
  rw [List.filter_congr same]
  have kept : ∀ item ∈ items.filter selected,
      (if isMember item = true then image item else item) = id item := by
    intro item membership
    rw [if_neg, id]
    intro member
    have absent := disjoint item member
    rw [(List.mem_filter.mp membership).2] at absent
    cases absent
  rw [List.map_congr_left kept, List.map_id]

end Class

/-- Two lists without repetitions that select the same members select equally
many. -/
theorem countP_eq_of_same_members {left right : List α} (leftNodup : left.Nodup)
    (rightNodup : right.Nodup) {counts counts' : α → Bool}
    (same : ∀ item, item ∈ left ∧ counts item = true ↔ item ∈ right ∧ counts' item = true) :
    left.countP counts = right.countP counts' := by
  rw [List.countP_eq_length_filter, List.countP_eq_length_filter]
  apply List.Perm.length_eq
  rw [List.perm_ext_iff_of_nodup (leftNodup.filter _) (rightNodup.filter _)]
  intro item
  rw [List.mem_filter, List.mem_filter]
  exact same item

section Lists

/-- One list of a list of lists is replaced. -/
theorem flatten_set {lists : List (List α)} {i : Nat} {list : List α}
    (found : lists[i]? = some list) : ∃ others, lists.flatten.Perm (list ++ others) ∧
      ∀ replacement, (lists.set i replacement).flatten.Perm (replacement ++ others) := by
  rcases List.getElem?_eq_some_iff.mp found with ⟨bound, rfl⟩
  refine ⟨(lists.take i).flatten ++ (lists.drop (i + 1)).flatten, ?_, ?_⟩
  · have split : lists = lists.take i ++ lists[i] :: lists.drop (i + 1) := by
      rw [List.getElem_cons_drop, List.take_append_drop]
    conv => lhs; rw [split]
    rw [List.flatten_append, List.flatten_cons, ← List.append_assoc, ← List.append_assoc]
    exact List.perm_append_comm.append_right _
  · intro replacement
    rw [List.set_eq_take_append_cons_drop, if_pos bound, List.flatten_append, List.flatten_cons,
      ← List.append_assoc, ← List.append_assoc]
    exact List.perm_append_comm.append_right _

/-- Replacing one entry keeps the others. -/
theorem mem_set_of_ne {list : List α} {i : Nat} {old new other : α} (found : list[i]? = some old)
    (membership : other ∈ list) (different : other ≠ old) : other ∈ list.set i new := by
  rcases List.mem_iff_getElem?.mp membership with ⟨j, isOther⟩
  have apart : i ≠ j := by
    rintro rfl
    rw [found] at isOther
    exact different (Option.some.inj isOther).symm
  apply List.mem_of_getElem?
  rw [List.getElem?_set_ne apart]
  exact isOther

end Lists

end Counting
