import Mathlib.Data.List.Sort
import WorkflowEngine.Foundations.JsonRoundTrip

/-!
# Equal JSON data

Values that are equal up to the order of object keys, and sorting the keys as a normal
form for this equality.
-/

open Text Numerals

namespace Json

/-! ## Equality up to the order of keys -/

mutual

/-- Equal up to the order of object keys; 0 and -0 are equal. -/
def Same : Json → Json → Prop
  | .null, other => other = .null
  | .bool value, other => other = .bool value
  | .number value, other => ∃ value', other = .number value' ∧ value.plain = value'.plain
  | .string value, other => other = .string value
  | .array items, other => ∃ items', other = .array items' ∧ SameItems items items'
  | .object entries, other => ∃ entries', other = .object entries' ∧
      entries.length = entries'.length ∧ SameEntries entries entries'

def SameItems : List Json → List Json → Prop
  | [], others => others = []
  | item :: rest, others => ∃ item' rest', others = item' :: rest' ∧ Same item item' ∧
      SameItems rest rest'

/-- Every entry has an entry with its key and the same value among the others. -/
def SameEntries : List (Text × Json) → List (Text × Json) → Prop
  | [], _ => True
  | (key, value) :: rest, others =>
      (∃ value', (key, value') ∈ others ∧ Same value value') ∧ SameEntries rest others

end

theorem sameItems_iff {items items' : List Json} :
    SameItems items items' ↔ List.Forall₂ Same items items' := by
  induction items generalizing items' with
  | nil => rw [SameItems, List.forall₂_nil_left_iff]
  | cons item rest ih =>
      rw [SameItems, List.forall₂_cons_left_iff]
      constructor
      · rintro ⟨item', rest', rfl, same, others⟩
        exact ⟨item', rest', same, ih.mp others, rfl⟩
      · rintro ⟨item', rest', same, others, rfl⟩
        exact ⟨item', rest', rfl, same, ih.mpr others⟩

theorem sameEntries_iff {entries entries' : List (Text × Json)} :
    SameEntries entries entries' ↔
      ∀ entry ∈ entries, ∃ value', (entry.1, value') ∈ entries' ∧ Same entry.2 value' := by
  induction entries with
  | nil => simp [SameEntries]
  | cons entry rest ih =>
      rcases entry with ⟨key, value⟩
      rw [SameEntries, ih, List.forall_mem_cons]

theorem distinctItems_iff {items : List Json} :
    DistinctItems items ↔ ∀ item ∈ items, Distinct item := by
  induction items with
  | nil => simp [DistinctItems]
  | cons item rest ih => rw [DistinctItems, ih, List.forall_mem_cons]

theorem distinctEntries_iff {entries : List (Text × Json)} :
    DistinctEntries entries ↔ ∀ entry ∈ entries, Distinct entry.2 := by
  induction entries with
  | nil => simp [DistinctEntries]
  | cons entry rest ih =>
      rcases entry with ⟨key, value⟩
      rw [DistinctEntries, ih, List.forall_mem_cons]

theorem keptItems_eq (items : List Json) : keptItems items = items.map kept := by
  induction items with
  | nil => rfl
  | cons item rest ih => rw [keptItems, ih, List.map_cons]

theorem keptEntries_eq (entries : List (Text × Json)) :
    keptEntries entries = entries.map fun entry => (entry.1, kept entry.2) := by
  induction entries with
  | nil => rfl
  | cons entry rest ih =>
      rcases entry with ⟨key, value⟩
      rw [keptEntries, ih, List.map_cons]

theorem stringifyItems_eq (items : List Json) : stringifyItems items = items.map stringify := by
  induction items with
  | nil => rfl
  | cons item rest ih => rw [stringifyItems, ih, List.map_cons]

theorem stringifyEntries_eq (entries : List (Text × Json)) :
    stringifyEntries entries =
      entries.map fun entry => quote entry.1 ++ unit ':' :: stringify entry.2 := by
  induction entries with
  | nil => rfl
  | cons entry rest ih =>
      rcases entry with ⟨key, value⟩
      rw [stringifyEntries, ih, List.map_cons]

theorem plain_plain (number : Number) : number.plain.plain = number.plain := by
  cases number <;> rfl

theorem isFinite_plain (number : Number) : number.plain.isFinite = number.isFinite := by
  cases number <;> rfl

/-- Nothing more is lost when a printed value is printed again. -/
theorem kept_kept (value : Json) : kept (kept value) = kept value := by
  induction value using Json.induction with
  | null => rfl
  | bool value => rfl
  | number value =>
      rw [kept]
      split
      · next finite => rw [kept, isFinite_plain, if_pos finite, plain_plain]
      · rfl
  | string value => rfl
  | array items ih =>
      rw [kept, keptItems_eq, kept, keptItems_eq, List.map_map]
      congr 1
      exact List.map_congr_left ih
  | object entries ih =>
      rw [kept, keptEntries_eq, kept, keptEntries_eq, List.map_map]
      congr 1
      apply List.map_congr_left
      intro entry membership
      exact Prod.ext rfl (ih entry membership)

theorem distinct_kept {value : Json} (distinct : Distinct value) : Distinct (kept value) := by
  induction value using Json.induction with
  | null => trivial
  | bool value => trivial
  | number value =>
      rw [kept]
      split
      · trivial
      · trivial
  | string value => trivial
  | array items ih =>
      rw [Distinct, distinctItems_iff] at distinct
      rw [kept, keptItems_eq, Distinct, distinctItems_iff, List.forall_mem_map]
      exact fun item membership => ih item membership (distinct item membership)
  | object entries ih =>
      rw [Distinct, distinctEntries_iff] at distinct
      rw [kept, Distinct, keptEntries_keys, keptEntries_eq, distinctEntries_iff,
        List.forall_mem_map]
      exact ⟨distinct.1, fun entry membership => ih entry membership (distinct.2 entry membership)⟩

theorem Proper.distinct {value : Json} (proper : Proper value) : Distinct value := by
  induction value using Json.induction with
  | null | bool | number | string => trivial
  | array items ih =>
      rw [Proper, properItems_iff] at proper
      rw [Distinct, distinctItems_iff]
      exact fun item membership => ih item membership (proper item membership)
  | object entries ih =>
      rw [Proper, properEntries_iff] at proper
      rw [Distinct, distinctEntries_iff]
      exact ⟨proper.1.nodup, fun entry membership =>
        ih entry membership (proper.2 entry membership)⟩

theorem Proper.kept {value : Json} (proper : Proper value) : Proper (kept value) := by
  induction value using Json.induction with
  | null | bool | string => trivial
  | number value =>
      rw [Json.kept]
      split
      · trivial
      · trivial
  | array items ih =>
      rw [Proper, properItems_iff] at proper
      rw [Json.kept, keptItems_eq, Proper, properItems_iff, List.forall_mem_map]
      exact fun item membership => ih item membership (proper item membership)
  | object entries ih =>
      rw [Proper, properEntries_iff] at proper
      rw [Json.kept, Proper, keptEntries_keys, keptEntries_eq, properEntries_iff,
        List.forall_mem_map]
      exact ⟨proper.1, fun entry membership => ih entry membership (proper.2 entry membership)⟩

/-! ## Sorted keys -/

/-- The order of keys by UTF-16 code units. -/
def keyLe (left right : Text) : Prop := left.map UInt16.toNat ≤ right.map UInt16.toNat

instance (left right : Text) : Decidable (keyLe left right) :=
  inferInstanceAs (Decidable (left.map UInt16.toNat ≤ right.map UInt16.toNat))

theorem keyLe_antisymm {left right : Text} (below : keyLe left right) (above : keyLe right left) :
    left = right :=
  List.map_injective_iff.mpr (fun _ _ => UInt16.toNat_inj.mp) (le_antisymm below above)

/-- Entries sorted by key. -/
def sortEntries {α : Type} (entries : List (Text × α)) : List (Text × α) :=
  entries.insertionSort fun left right => keyLe left.1 right.1

section Sorting

variable {α β : Type} {entries entries' : List (Text × α)}

theorem sortEntries_perm (entries : List (Text × α)) : (sortEntries entries).Perm entries :=
  List.perm_insertionSort _ _

theorem sortEntries_map (image : α → β) (entries : List (Text × α)) :
    sortEntries (entries.map fun entry => (entry.1, image entry.2)) =
      (sortEntries entries).map fun entry => (entry.1, image entry.2) :=
  (List.map_insertionSort _ _ (fun entry : Text × α => (entry.1, image entry.2)) entries
    fun _ _ _ _ => Iff.rfl).symm

theorem sortEntries_pairwise (entries : List (Text × α)) :
    (sortEntries entries).Pairwise fun left right => keyLe left.1 right.1 := by
  have total : Std.Total fun left right : Text × α => keyLe left.1 right.1 :=
    ⟨fun left right => le_total (left.1.map UInt16.toNat) (right.1.map UInt16.toNat)⟩
  have trans : IsTrans (Text × α) fun left right => keyLe left.1 right.1 :=
    ⟨fun _ _ _ first second => le_trans first second⟩
  exact List.pairwise_insertionSort _ _

/-- The same entries in another order have one sorted list. -/
theorem sortEntries_congr (distinct : (entries.map Prod.fst).Nodup)
    (same : entries.Perm entries') : sortEntries entries = sortEntries entries' := by
  have perm : (sortEntries entries).Perm (sortEntries entries') :=
    (sortEntries_perm entries).trans (same.trans (sortEntries_perm entries').symm)
  apply perm.eq_of_pairwise _ (sortEntries_pairwise entries) (sortEntries_pairwise entries')
  intro left right isLeft isRight below above
  have isRight := same.mem_iff.mpr ((sortEntries_perm entries').mem_iff.mp isRight)
  have isLeft := (sortEntries_perm entries).mem_iff.mp isLeft
  exact List.inj_on_of_nodup_map distinct isLeft isRight (keyLe_antisymm below above)

end Sorting

mutual

/-- The keys of every object sorted. -/
def sortKeys : Json → Json
  | .array items => .array (sortKeysItems items)
  | .object entries => .object (sortEntries (sortKeysEntries entries))
  | value => value

def sortKeysItems : List Json → List Json
  | [] => []
  | item :: rest => sortKeys item :: sortKeysItems rest

def sortKeysEntries : List (Text × Json) → List (Text × Json)
  | [] => []
  | (key, value) :: rest => (key, sortKeys value) :: sortKeysEntries rest

end

theorem sortKeysItems_eq (items : List Json) : sortKeysItems items = items.map sortKeys := by
  induction items with
  | nil => rfl
  | cons item rest ih => rw [sortKeysItems, ih, List.map_cons]

theorem sortKeysEntries_eq (entries : List (Text × Json)) :
    sortKeysEntries entries = entries.map fun entry => (entry.1, sortKeys entry.2) := by
  induction entries with
  | nil => rfl
  | cons entry rest ih =>
      rcases entry with ⟨key, value⟩
      rw [sortKeysEntries, ih, List.map_cons]

theorem distinct_sortKeys {value : Json} (distinct : Distinct value) :
    Distinct (sortKeys value) := by
  induction value using Json.induction with
  | null => trivial
  | bool value => trivial
  | number value => trivial
  | string value => trivial
  | array items ih =>
      rw [Distinct, distinctItems_iff] at distinct
      rw [sortKeys, sortKeysItems_eq, Distinct, distinctItems_iff, List.forall_mem_map]
      exact fun item membership => ih item membership (distinct item membership)
  | object entries ih =>
      rw [Distinct, distinctEntries_iff] at distinct
      rw [sortKeys, sortKeysEntries_eq, Distinct, distinctEntries_iff]
      have perm := sortEntries_perm (entries.map fun entry => (entry.1, sortKeys entry.2))
      constructor
      · rw [(perm.map Prod.fst).nodup_iff, List.map_map]
        exact distinct.1
      · intro entry membership
        rcases List.mem_map.mp (perm.mem_iff.mp membership) with ⟨source, isSource, rfl⟩
        exact ih source isSource (distinct.2 source isSource)

/-- Sorting undoes every other order. -/
theorem sortKeys_reorder {value : Json} (distinct : Distinct value) :
    sortKeys (reorder value) = sortKeys value := by
  induction value using Json.induction with
  | null | bool | number | string => rfl
  | array items ih =>
      rw [Distinct, distinctItems_iff] at distinct
      rw [reorder, reorderItems_eq, sortKeys, sortKeysItems_eq, sortKeys, sortKeysItems_eq,
        List.map_map]
      congr 1
      exact List.map_congr_left fun item membership =>
        ih item membership (distinct item membership)
  | object entries ih =>
      rw [Distinct, distinctEntries_iff] at distinct
      rw [reorder, reorderEntries_eq, sortKeys, sortKeysEntries_eq, sortKeys, sortKeysEntries_eq]
      have keys : ((entries.map fun entry => (entry.1, reorder entry.2)).map Prod.fst).Nodup := by
        rw [List.map_map]
        exact distinct.1
      have sorted : (entries.map fun entry => (entry.1, reorder entry.2)).map
          (fun entry => (entry.1, sortKeys entry.2)) =
            entries.map fun entry => (entry.1, sortKeys entry.2) := by
        rw [List.map_map]
        apply List.map_congr_left
        intro entry membership
        exact Prod.ext rfl (ih entry membership (distinct.2 entry membership))
      have perm := ((collect_perm keys).map fun entry => (entry.1, sortKeys entry.2)).symm
      rw [sorted] at perm
      apply congrArg Json.object
      refine (sortEntries_congr ?_ perm).symm
      rw [List.map_map]
      exact distinct.1

theorem sortKeys_sortKeys {value : Json} (distinct : Distinct value) :
    sortKeys (sortKeys value) = sortKeys value := by
  induction value using Json.induction with
  | null | bool | number | string => rfl
  | array items ih =>
      rw [Distinct, distinctItems_iff] at distinct
      rw [sortKeys, sortKeysItems_eq, sortKeys, sortKeysItems_eq, List.map_map]
      congr 1
      exact List.map_congr_left fun item membership =>
        ih item membership (distinct item membership)
  | object entries ih =>
      rw [Distinct, distinctEntries_iff] at distinct
      rw [sortKeys, sortKeysEntries_eq, sortKeys, sortKeysEntries_eq, ← sortEntries_map sortKeys,
        List.map_map]
      have sorted : (entries.map ((fun entry => (entry.1, sortKeys entry.2)) ∘
          fun entry => (entry.1, sortKeys entry.2))) =
            entries.map fun entry => (entry.1, sortKeys entry.2) := by
        apply List.map_congr_left
        intro entry membership
        exact Prod.ext rfl (ih entry membership (distinct.2 entry membership))
      rw [sorted]
      apply congrArg Json.object
      apply sortEntries_congr _ (sortEntries_perm _)
      rw [((sortEntries_perm _).map Prod.fst).nodup_iff, List.map_map]
      exact distinct.1

theorem kept_sortKeys (value : Json) : kept (sortKeys value) = sortKeys (kept value) := by
  induction value using Json.induction with
  | null => rfl
  | bool value => rfl
  | number value =>
      rw [sortKeys, kept]
      · split
        · rfl
        · rfl
      · exact nofun
      · exact nofun
  | string value => rfl
  | array items ih =>
      rw [sortKeys, sortKeysItems_eq, kept, keptItems_eq, kept, keptItems_eq, sortKeys,
        sortKeysItems_eq, List.map_map, List.map_map]
      congr 1
      exact List.map_congr_left ih
  | object entries ih =>
      rw [sortKeys, sortKeysEntries_eq, kept, keptEntries_eq, kept, keptEntries_eq, sortKeys,
        sortKeysEntries_eq, ← sortEntries_map kept, List.map_map, List.map_map]
      congr 2
      apply List.map_congr_left
      intro entry membership
      exact Prod.ext rfl (ih entry membership)

/-- Values with the same sorted form are the same. -/
theorem same_of_sortKeys {left right : Json} (sorted : sortKeys left = sortKeys right) :
    Same left right := by
  induction left using Json.induction generalizing right with
  | null =>
      cases right with
      | null => rfl
      | _ => cases sorted
  | bool value =>
      cases right with
      | bool value' =>
          cases sorted
          rfl
      | _ => cases sorted
  | number value =>
      cases right with
      | number value' =>
          cases sorted
          exact ⟨value, rfl, rfl⟩
      | _ => cases sorted
  | string value =>
      cases right with
      | string value' =>
          cases sorted
          rfl
      | _ => cases sorted
  | array items ih =>
      cases right with
      | array items' =>
          rw [sortKeys, sortKeys, sortKeysItems_eq, sortKeysItems_eq, array.injEq] at sorted
          refine ⟨items', rfl, ?_⟩
          induction items generalizing items' with
          | nil => exact List.map_eq_nil_iff.mp sorted.symm
          | cons item rest ihRest =>
              cases items' with
              | nil => cases sorted
              | cons item' rest' =>
                  rw [List.map_cons, List.map_cons, List.cons.injEq] at sorted
                  exact ⟨item', rest', rfl, ih item List.mem_cons_self sorted.1,
                    ihRest (fun other membership => ih other (List.mem_cons_of_mem _ membership))
                      rest' sorted.2⟩
      | _ => cases sorted
  | object entries ih =>
      cases right with
      | object entries' =>
          rw [sortKeys, sortKeys, sortKeysEntries_eq, sortKeysEntries_eq, object.injEq] at sorted
          have perm := (sortEntries_perm (entries.map fun entry => (entry.1, sortKeys entry.2))).symm
          rw [sorted] at perm
          have perm := perm.trans (sortEntries_perm _)
          refine ⟨entries', rfl, ?_, sameEntries_iff.mpr ?_⟩
          · have length := perm.length_eq
            rwa [List.length_map, List.length_map] at length
          · intro entry membership
            have image := perm.mem_iff.mp (List.mem_map_of_mem membership)
            rcases List.mem_map.mp image with ⟨entry', isEntry, same⟩
            rw [Prod.mk.injEq] at same
            refine ⟨entry'.2, ?_, ih entry membership same.2.symm⟩
            rw [← same.1]
            exact isEntry
      | _ => cases sorted

/-- Values that are read back differ in the order of keys alone. -/
theorem same_reorder {value : Json} (distinct : Distinct value) : Same (reorder value) value :=
  same_of_sortKeys (sortKeys_reorder distinct)

end Json
