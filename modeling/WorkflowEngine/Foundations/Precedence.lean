import Mathlib.Data.List.Basic
import Mathlib.Data.List.Induction
import Mathlib.Data.List.Nodup
import Mathlib.Data.Set.Finite.List
import Mathlib.Logic.Relation
import Mathlib.Order.WellFounded

/-!
# Precedence orders

A relation `needs key dep` between keys, lists that put every key after the keys
it needs, and the two consequences used to reason about such relations: a rank
that decreases along the relation, and a least key of every non-empty set of
ranked keys.
-/

namespace Precedence

universe u

variable {K : Type u} {needs : K → K → Prop}

/-- Every key of the list comes after all keys it needs, and only once. -/
inductive Sorted (needs : K → K → Prop) : List K → Prop where
  | nil : Sorted needs []
  | snoc {order : List K} {key : K} : Sorted needs order → key ∉ order →
      (∀ dep, needs key dep → dep ∈ order) → Sorted needs (order ++ [key])

/-- What a key of a sorted list needs comes before it. -/
theorem Sorted.needs_before {order : List K} (sorted : Sorted needs order)
    {before after : List K} {key dep : K} (split : order = before ++ key :: after)
    (needed : needs key dep) : dep ∈ before := by
  induction sorted generalizing after with
  | nil => cases before <;> cases split
  | @snoc order last _ new ready ih =>
      cases after using List.reverseRecOn with
      | nil =>
          rcases List.append_inj_left' split rfl with rfl
          cases List.append_inj_right' split rfl
          exact ready dep needed
      | append_singleton after final =>
          rw [← List.cons_append, ← List.append_assoc] at split
          exact ih (List.append_inj_left' split rfl)

theorem Sorted.nodup {order : List K} (sorted : Sorted needs order) : order.Nodup := by
  induction sorted with
  | nil => exact .nil
  | snoc _ new _ ih => simpa using ih.concat new

/-- A sorted list goes on with what another one has more, in the order of the other. -/
theorem Sorted.append_filter [DecidableEq K] {done order : List K} (sorted : Sorted needs done)
    (all : Sorted needs order) : Sorted needs (done ++ order.filter fun key => key ∉ done) := by
  induction all with
  | nil => simpa using sorted
  | @snoc order key _ new ready ih =>
      rw [List.filter_append]
      by_cases isDone : key ∈ done
      · simpa [isDone] using ih
      · have last : [key].filter (fun key => key ∉ done) = [key] := by simp [isDone]
        rw [last, ← List.append_assoc]
        apply ih.snoc
        · simp [isDone, new]
        · intro dep needed
          by_cases depDone : dep ∈ done
          · exact List.mem_append_left _ depDone
          · apply List.mem_append_right
            simpa [depDone] using ready dep needed

/-- A rank that decreases along the relation, for keys of a given set. -/
def Ranks (needs : K → K → Prop) (keys : K → Prop) (rank : K → Nat) : Prop :=
  ∀ key, keys key → ∀ dep, needs key dep → rank dep < rank key

/-- The position in a sorted list is a rank. -/
theorem Sorted.ranks_idxOf [DecidableEq K] {order : List K} (sorted : Sorted needs order) :
    Ranks needs (· ∈ order) fun key => order.idxOf key := by
  induction sorted with
  | nil => intro key membership; cases membership
  | @snoc order last _ new ready ih =>
      intro key membership dep needed
      rcases List.mem_append.mp membership with earlier | isLast
      · have depEarlier : dep ∈ order := by
          by_contra absent
          have less := ih key earlier dep needed
          simp only [List.idxOf_eq_length absent] at less
          exact absurd (List.idxOf_lt_length_of_mem earlier) (by omega)
        simp only [List.idxOf_append_of_mem earlier, List.idxOf_append_of_mem depEarlier]
        exact ih key earlier dep needed
      · cases List.mem_singleton.mp isLast
        have depEarlier := ready dep needed
        simp only [List.idxOf_append_of_mem depEarlier, List.idxOf_append_of_notMem new]
        exact Nat.lt_of_lt_of_le (List.idxOf_lt_length_of_mem depEarlier) (Nat.le_add_right _ _)

/-- A rank decreases along several steps. -/
theorem Ranks.lt_of_transGen {keys : K → Prop} {rank : K → Nat}
    (ranks : Ranks needs keys rank) (isKey : ∀ key dep, needs key dep → keys key) {key dep : K}
    (needed : Relation.TransGen needs key dep) : rank dep < rank key := by
  induction needed with
  | single direct => exact ranks _ (isKey _ _ direct) _ direct
  | tail _ last ih => exact Nat.lt_trans (ranks _ (isKey _ _ last) _ last) ih

/-- Among finitely many keys that all need one of them, some key needs itself. -/
theorem exists_transGen_self {keys : List K} {start : K} (isStart : start ∈ keys)
    (closed : ∀ key ∈ keys, ∃ dep ∈ keys, needs key dep) :
    ∃ key, Relation.TransGen needs key key := by
  by_contra acyclic
  have irrefl : ∀ key, ¬ Relation.TransGen needs key key :=
    fun key loop => acyclic ⟨key, loop⟩
  let below : {key // key ∈ keys} → {key // key ∈ keys} → Prop :=
    fun dep key => Relation.TransGen needs key.val dep.val
  have finite : Finite {key // key ∈ keys} := keys.finite_toSet
  have isIrrefl : Std.Irrefl below := ⟨fun key => irrefl key.val⟩
  have isTrans : IsTrans _ below := ⟨fun _ _ _ first second => second.trans first⟩
  have wellFounded := Finite.wellFounded_of_trans_of_irrefl below
  rcases wellFounded.has_min Set.univ ⟨⟨start, isStart⟩, trivial⟩ with ⟨least, _, minimal⟩
  rcases closed least.val least.property with ⟨dep, isDep, needed⟩
  exact minimal ⟨dep, isDep⟩ trivial (.single needed)

/-- Among ranked keys with a property, one needs no key with that property. -/
theorem Ranks.exists_first {keys : K → Prop} {rank : K → Nat}
    (ranks : Ranks needs keys rank) (wanted : K → Prop) (subset : ∀ key, wanted key → keys key)
    {start : K} (startWanted : wanted start) :
    ∃ key, wanted key ∧ ∀ dep, needs key dep → ¬ wanted dep := by
  have wellFounded := (measure rank).wf
  refine ⟨wellFounded.min {key | wanted key} ⟨start, startWanted⟩,
    wellFounded.min_mem _ _, ?_⟩
  intro dep needed depWanted
  have first := wellFounded.min_mem {key | wanted key} ⟨start, startWanted⟩
  exact wellFounded.not_lt_min {key | wanted key} depWanted
    (ranks _ (subset _ first) dep needed)

/-- Induction along ranked keys: a property that holds of a key whenever it holds
of all keys it needs. -/
theorem Ranks.induction {keys holds : K → Prop} {rank : K → Nat}
    (ranks : Ranks needs keys rank)
    (step : ∀ key, keys key → (∀ dep, needs key dep → keys dep → holds dep) → holds key)
    {key : K} (isKey : keys key) : holds key := by
  by_contra fails
  rcases ranks.exists_first (fun key => keys key ∧ ¬ holds key)
    (fun _ both => both.1) ⟨isKey, fails⟩ with ⟨first, ⟨firstKey, firstFails⟩, none⟩
  apply firstFails
  apply step first firstKey
  intro dep needed depKey
  by_contra depFails
  exact none dep needed ⟨depKey, depFails⟩

end Precedence
