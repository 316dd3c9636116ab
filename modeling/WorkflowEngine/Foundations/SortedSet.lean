import Mathlib.Data.List.Sort
import Mathlib.Data.Prod.Lex
import Mathlib.Order.Lex

/-!
# Sorted sets

A sorted set keeps its members ordered by an integer score, members of one score
by themselves.  A member has one score: adding it again moves it.  Ranges are
read in order and can be cut at a limit.
-/

/-- Entries are listed in order, and no member is listed twice. -/
structure SortedSet (M : Type) [LinearOrder M] where
  entries : List (Int ×ₗ M)
  sorted : entries.Pairwise (· ≤ ·)
  nodup : (entries.map fun entry => (ofLex entry).2).Nodup
  deriving DecidableEq

/-- The first `limit` items; all of them when the limit is negative. -/
def List.limited {α : Type} (limit : Int) (items : List α) : List α :=
  if limit < 0 then items else items.take limit.toNat

theorem List.limited_sublist {α : Type} (limit : Int) (items : List α) :
    (items.limited limit).Sublist items := by
  simp only [List.limited]
  split
  · exact .refl _
  · exact List.take_sublist _ _

namespace SortedSet

variable {M : Type} [LinearOrder M]

/-- The sorted set without members. -/
def empty : SortedSet M :=
  ⟨[], .nil, .nil⟩

def members (set : SortedSet M) : List M :=
  set.entries.map fun entry => (ofLex entry).2

instance : Membership M (SortedSet M) :=
  ⟨fun set member => member ∈ set.members⟩

instance (member : M) (set : SortedSet M) : Decidable (member ∈ set) :=
  decidable_of_iff (set.members.contains member = true) List.contains_iff_mem

theorem mem_def {member : M} {set : SortedSet M} : member ∈ set ↔ member ∈ set.members := .rfl

@[simp] theorem not_mem_empty (member : M) : member ∉ (empty : SortedSet M) :=
  List.not_mem_nil

/-- Remove a member. -/
def rem (set : SortedSet M) (member : M) : SortedSet M where
  entries := set.entries.filter fun entry => (ofLex entry).2 ≠ member
  sorted := set.sorted.filter _
  nodup := set.nodup.sublist (List.filter_sublist.map _)

theorem members_rem (set : SortedSet M) (member : M) :
    (set.rem member).members = set.members.filter (· ≠ member) := by
  rw [members, members, List.filter_map]
  rfl

@[simp] theorem mem_rem {set : SortedSet M} {member other : M} :
    other ∈ set.rem member ↔ other ∈ set ∧ other ≠ member := by
  rw [mem_def, members_rem, List.mem_filter, decide_eq_true_iff]
  rfl

theorem mem_entries_rem {set : SortedSet M} {member : M} {entry : Int ×ₗ M} :
    entry ∈ (set.rem member).entries ↔ entry ∈ set.entries ∧ (ofLex entry).2 ≠ member := by
  rw [rem, List.mem_filter, decide_eq_true_iff]

/-- Give a member a score, whether or not it had one before. -/
def add (set : SortedSet M) (score : Int) (member : M) : SortedSet M where
  entries := (set.rem member).entries.orderedInsert (· ≤ ·) (toLex (score, member))
  sorted := (set.rem member).sorted.orderedInsert _ _
  nodup := by
    have moved := ((set.rem member).entries.perm_orderedInsert (· ≤ ·)
      (toLex (score, member))).map fun entry => (ofLex entry).2
    refine moved.nodup_iff.mpr (List.nodup_cons.mpr ⟨?_, (set.rem member).nodup⟩)
    intro found
    exact (mem_rem.mp found).2 rfl

@[simp] theorem mem_add {set : SortedSet M} {score : Int} {member other : M} :
    other ∈ set.add score member ↔ other = member ∨ other ∈ set := by
  have moved := ((set.rem member).entries.perm_orderedInsert (· ≤ ·)
    (toLex (score, member))).map fun entry => (ofLex entry).2
  have placed : other ∈ set.add score member ↔ other = member ∨ other ∈ set.rem member :=
    moved.mem_iff.trans List.mem_cons
  rw [placed, mem_rem]
  by_cases same : other = member
  · simp [same]
  · simp [same]

theorem mem_entries_add {set : SortedSet M} {score : Int} {member : M} {entry : Int ×ₗ M} :
    entry ∈ (set.add score member).entries ↔
      entry = toLex (score, member) ∨ entry ∈ set.entries ∧ (ofLex entry).2 ≠ member := by
  rw [add, List.mem_orderedInsert, mem_entries_rem]

/-- Adding a member again does not add an entry. -/
theorem length_add_of_mem {set : SortedSet M} {score : Int} {member : M} (present : member ∈ set) :
    (set.add score member).entries.length = set.entries.length := by
  have members : (set.rem member).members = set.members.erase member := by
    have distinct : set.members.Nodup := set.nodup
    rw [members_rem, distinct.erase_eq_filter]
    apply List.filter_congr
    intro other _
    exact (Bool.eq_iff_iff.mpr (by rw [decide_eq_true_iff, bne_iff_ne]))
  have fewer := congrArg List.length members
  rw [List.length_erase_of_mem present, SortedSet.members, SortedSet.members, List.length_map,
    List.length_map] at fewer
  have positive : 0 < set.entries.length := by
    rcases List.mem_map.mp present with ⟨entry, stored, _⟩
    exact List.length_pos_of_mem stored
  rw [add, List.orderedInsert_length, fewer]
  omega

/-- Adding a member adds at most one entry. -/
theorem length_add_le (set : SortedSet M) (score : Int) (member : M) :
    (set.add score member).entries.length ≤ set.entries.length + 1 := by
  rw [add, List.orderedInsert_length, rem]
  exact Nat.succ_le_succ (List.length_filter_le _ _)

/-- Remove the members with a score up to the bound. -/
def remUpTo (set : SortedSet M) (bound : Int) : SortedSet M where
  entries := set.entries.filter fun entry => bound < (ofLex entry).1
  sorted := set.sorted.filter _
  nodup := set.nodup.sublist (List.filter_sublist.map _)

theorem mem_entries_remUpTo {set : SortedSet M} {bound : Int} {entry : Int ×ₗ M} :
    entry ∈ (set.remUpTo bound).entries ↔ entry ∈ set.entries ∧ bound < (ofLex entry).1 := by
  rw [remUpTo, List.mem_filter, decide_eq_true_iff]

/-- The members with a score up to the bound, in order, cut at the limit. -/
def upTo (set : SortedSet M) (bound limit : Int) : List M :=
  ((set.entries.filter fun entry => (ofLex entry).1 ≤ bound).map
    fun entry => (ofLex entry).2).limited limit

theorem upTo_sublist (set : SortedSet M) (bound limit : Int) :
    (set.upTo bound limit).Sublist set.members :=
  (List.limited_sublist _ _).trans (List.filter_sublist.map _)

theorem upTo_nodup (set : SortedSet M) (bound limit : Int) : (set.upTo bound limit).Nodup :=
  set.nodup.sublist (set.upTo_sublist bound limit)

theorem mem_of_mem_upTo {set : SortedSet M} {bound limit : Int} {member : M}
    (listed : member ∈ set.upTo bound limit) : member ∈ set :=
  (set.upTo_sublist bound limit).subset listed

/-- A member up to the bound has a score up to the bound. -/
theorem score_of_mem_upTo {set : SortedSet M} {bound limit : Int} {member : M}
    (listed : member ∈ set.upTo bound limit) :
    ∃ score ≤ bound, toLex (score, member) ∈ set.entries := by
  have found := (List.limited_sublist _ _).subset listed
  rcases List.mem_map.mp found with ⟨entry, kept, rfl⟩
  rcases List.mem_filter.mp kept with ⟨stored, due⟩
  exact ⟨(ofLex entry).1, of_decide_eq_true due, stored⟩

end SortedSet
