import Mathlib.Data.List.Nodup

/-!
# Repeated sweeps

A sweep handles the first few items of a list.  Some items stay in the list when they are
handled, the others leave it.  Sweeps that are repeated get to an item when few enough of
those before it stay.
-/

namespace Sweep

variable {α : Type} {stays : α → Bool} {limit : Nat} {items : List α} {item : α}

/-- The items that repeated sweeps of this size get to. -/
def reached (stays : α → Bool) : Nat → List α → List α
  | 0, _ => []
  | _ + 1, [] => []
  | room + 1, item :: rest =>
      item :: if stays item then reached stays room rest else reached stays (room + 1) rest

section

-- derives the equations of `reached` once, for all the proofs below
attribute [local grind =] reached

end

@[simp] theorem reached_zero (stays : α → Bool) (items : List α) :
    reached stays 0 items = [] := by
  rw [reached]

@[simp] theorem reached_nil (stays : α → Bool) (limit : Nat) : reached stays limit [] = [] := by
  cases limit <;> rfl

/-- Larger sweeps get to more items. -/
theorem reached_succ : ∀ item ∈ reached stays limit items,
    item ∈ reached stays (limit + 1) items := by
  induction items generalizing limit with
  | nil => simp
  | cons first rest ih =>
      cases limit with
      | zero => simp
      | succ room =>
          intro item membership
          rw [reached] at membership ⊢
          rcases List.mem_cons.mp membership with rfl | later
          · exact List.mem_cons_self
          · apply List.mem_cons_of_mem
            split
            · next stay =>
              rw [if_pos stay] at later
              exact ih item later
            · next leave =>
              rw [if_neg leave] at later
              exact ih item later

/-- The first sweep handles items that are reached. -/
theorem mem_reached_of_mem_take : ∀ item ∈ items.take limit, item ∈ reached stays limit items := by
  induction items generalizing limit with
  | nil => simp
  | cons first rest ih =>
      cases limit with
      | zero => simp
      | succ room =>
          intro item membership
          rw [reached]
          rcases List.mem_cons.mp membership with rfl | later
          · exact List.mem_cons_self
          · apply List.mem_cons_of_mem
            split
            · exact ih item later
            · exact reached_succ item (ih item later)

/-- Items that leave make no difference to the others. -/
theorem reached_filter {keep : α → Bool}
    (kept : ∀ item ∈ items, stays item = true → keep item = true) :
    reached stays limit (items.filter keep) = (reached stays limit items).filter keep := by
  induction items generalizing limit with
  | nil => simp
  | cons first rest ih =>
      have later := fun room => @ih room fun item membership =>
        kept item (List.mem_cons_of_mem _ membership)
      cases limit with
      | zero => simp
      | succ room =>
          rw [reached]
          by_cases stay : stays first = true
          · have remains := kept first List.mem_cons_self stay
            rw [List.filter_cons_of_pos remains, reached, if_pos stay, if_pos stay,
              List.filter_cons_of_pos remains, later]
          · rw [if_neg stay]
            by_cases remains : keep first = true
            · rw [List.filter_cons_of_pos remains, reached, if_neg stay,
                List.filter_cons_of_pos remains, later]
            · rw [List.filter_cons_of_neg remains, List.filter_cons_of_neg remains, later]

/-- While an item that leaves is reached, the next sweep handles one. -/
theorem exists_mem_take (membership : item ∈ reached stays limit items)
    (leaves : stays item = false) : ∃ next ∈ items.take limit, stays next = false := by
  induction items generalizing limit with
  | nil => simp at membership
  | cons first rest ih =>
      cases limit with
      | zero => simp at membership
      | succ room =>
          by_cases stay : stays first = true
          · rw [reached, if_pos stay] at membership
            rcases List.mem_cons.mp membership with rfl | later
            · rw [stay] at leaves
              cases leaves
            · rcases ih later with ⟨next, nextMem, nextLeaves⟩
              exact ⟨next, List.mem_cons_of_mem _ nextMem, nextLeaves⟩
          · exact ⟨first, List.mem_cons_self, by simpa using stay⟩

/-- An item is reached when fewer items stay before it than a sweep handles. -/
theorem mem_reached_append {earlier later : List α} (absent : item ∉ earlier) :
    item ∈ reached stays limit (earlier ++ item :: later) ↔ earlier.countP stays < limit := by
  induction earlier generalizing limit with
  | nil =>
      cases limit with
      | zero => simp
      | succ room => simp [reached]
  | cons first rest ih =>
      rw [List.mem_cons, not_or] at absent
      cases limit with
      | zero => simp
      | succ room =>
          rw [List.cons_append, reached, List.mem_cons, or_iff_right absent.1]
          by_cases stay : stays first = true
          · rw [if_pos stay, List.countP_cons_of_pos stay, ih absent.2]
            omega
          · rw [if_neg stay, List.countP_cons_of_neg stay, ih absent.2]

/-- A rewriting that leaves the selected items alone. -/
theorem filter_map_of_fixed {selects before : α → Bool} {image : α → α}
    (same : ∀ item ∈ items, selects (image item) = before item)
    (fixed : ∀ item ∈ items, before item = true → image item = item) :
    (items.map image).filter selects = items.filter before := by
  induction items with
  | nil => rfl
  | cons first rest ih =>
      have later := ih (fun item membership => same item (List.mem_cons_of_mem _ membership))
        fun item membership => fixed item (List.mem_cons_of_mem _ membership)
      have first_same := same first List.mem_cons_self
      rw [List.map_cons]
      by_cases selected : before first = true
      · rw [List.filter_cons_of_pos (by rw [first_same]; exact selected),
          List.filter_cons_of_pos selected, later, fixed first List.mem_cons_self selected]
      · rw [List.filter_cons_of_neg (by rw [first_same]; exact selected),
          List.filter_cons_of_neg selected, later]

/-! ## Sweep after sweep -/

section

variable {K : Type} [DecidableEq K] {key : α → K} {count : Nat}

/-- What a sweep leaves.  Items are told apart by their keys. -/
def swept (key : α → K) (stays : α → Bool) (limit : Nat) (items : List α) : List α :=
  items.filter fun item => stays item || !decide (key item ∈ (items.take limit).map key)

/-- What a number of sweeps leave. -/
def sweeps (key : α → K) (stays : α → Bool) (limit : Nat) : Nat → List α → List α
  | 0, items => items
  | count + 1, items => sweeps key stays limit count (swept key stays limit items)

omit [DecidableEq K] in
theorem mem_keys_take (nodup : (items.map key).Nodup) (membership : item ∈ items) :
    key item ∈ (items.take limit).map key ↔ item ∈ items.take limit := by
  constructor
  · intro taken
    rcases List.mem_map.mp taken with ⟨other, handled, same⟩
    have unique := List.inj_on_of_nodup_map nodup (List.mem_of_mem_take handled) membership same
    exact unique ▸ handled
  · exact List.mem_map_of_mem

theorem nodup_swept (nodup : (items.map key).Nodup) :
    ((swept key stays limit items).map key).Nodup :=
  nodup.sublist (List.filter_sublist.map key)

/-- A sweep that handles nothing but items that stay leaves all. -/
theorem swept_of_stays (nodup : (items.map key).Nodup)
    (still : ∀ item ∈ items.take limit, stays item = true) :
    swept key stays limit items = items := by
  rw [swept, List.filter_eq_self]
  intro item membership
  by_cases handled : item ∈ items.take limit
  · rw [still item handled]
    rfl
  · rw [decide_eq_false ((mem_keys_take nodup membership).not.mpr handled)]
    exact Bool.or_true _

theorem sweeps_of_fixed (fixed : swept key stays limit items = items) :
    sweeps key stays limit count items = items := by
  induction count with
  | zero => rfl
  | succ count ih => rw [sweeps, fixed, ih]

/-- After enough sweeps the items that are left are those that stay and those that are not
reached. -/
theorem mem_sweeps_iff (nodup : (items.map key).Nodup) (enough : items.length ≤ count) :
    item ∈ sweeps key stays limit count items ↔
      item ∈ items ∧ (stays item = true ∨ item ∉ reached stays limit items) := by
  induction count generalizing items with
  | zero =>
      rw [List.length_eq_zero_iff.mp (Nat.le_zero.mp enough)]
      simp [sweeps]
  | succ count ih =>
      by_cases still : ∀ other ∈ items.take limit, stays other = true
      · -- no further sweep changes anything
        rw [sweeps_of_fixed (swept_of_stays nodup still)]
        refine ⟨fun membership => ⟨membership, ?_⟩, And.left⟩
        by_contra leaving
        rw [not_or, Bool.not_eq_true, not_not] at leaving
        rcases exists_mem_take leaving.2 leaving.1 with ⟨other, handled, leaves⟩
        rw [still other handled] at leaves
        cases leaves
      · rcases not_forall₂.mp still with ⟨other, handled, leaves⟩
        rw [Bool.not_eq_true] at leaves
        have shorter : (swept key stays limit items).length < items.length := by
          refine List.length_filter_lt_length_iff_exists.mpr
            ⟨other, List.mem_of_mem_take handled, ?_⟩
          rw [leaves, decide_eq_true (List.mem_map_of_mem handled)]
          exact Bool.false_ne_true
        have kept := @reached_filter α stays limit items
          (fun item => stays item || !decide (key item ∈ (items.take limit).map key))
          fun item _ stay => by rw [stay]; rfl
        rw [sweeps, ih (nodup_swept nodup) (by omega), swept, kept, List.mem_filter,
          List.mem_filter]
        constructor
        · rintro ⟨⟨membership, keep⟩, free⟩
          refine ⟨membership, free.imp_right fun apart inside => ?_⟩
          exact apart ⟨inside, keep⟩
        · rintro ⟨membership, free⟩
          have keep : (stays item || !decide (key item ∈ (items.take limit).map key)) = true := by
            rcases free with stay | apart
            · rw [stay]
              rfl
            · have unhandled := (mem_keys_take nodup membership).not.mpr
                fun handled => apart (mem_reached_of_mem_take item handled)
              rw [decide_eq_false unhandled]
              exact Bool.or_true _
          refine ⟨⟨membership, keep⟩, free.imp_right fun apart inside => ?_⟩
          exact apart inside.1

end

end Sweep
