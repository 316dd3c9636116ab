import Mathlib.Data.List.Nodup
import WorkflowEngine.Foundations.Json

/-!
# The order of keys

The entries of an object come in the order in which JavaScript lists its keys.  Reading
puts them in this order, at every depth.
-/

open Text

namespace Json

/-- Induction over the values inside a value. -/
@[elab_as_elim]
theorem induction {holds : Json → Prop} (null : holds .null) (bool : ∀ value, holds (.bool value))
    (number : ∀ value, holds (.number value)) (string : ∀ value, holds (.string value))
    (array : ∀ items, (∀ item ∈ items, holds item) → holds (.array items))
    (object : ∀ entries, (∀ entry ∈ entries, holds entry.2) → holds (.object entries))
    (value : Json) : holds value := by
  have inside : ∀ bound, ∀ value : Json, sizeOf value < bound → holds value := by
    intro bound
    induction bound with
    | zero => exact fun value small => absurd small (Nat.not_lt_zero _)
    | succ bound ih =>
        intro value small
        cases value with
        | null => exact null
        | bool value => exact bool value
        | number value => exact number value
        | string value => exact string value
        | array items =>
            apply array
            intro item membership
            apply ih
            have smaller := List.sizeOf_lt_of_mem membership
            simp only [Json.array.sizeOf_spec] at small
            omega
        | object entries =>
            apply object
            intro entry membership
            apply ih
            have smaller := List.sizeOf_lt_of_mem membership
            have inEntry : sizeOf entry.2 < sizeOf entry := by
              cases entry
              simp only [Prod.mk.sizeOf_spec]
              omega
            simp only [Json.object.sizeOf_spec] at small
            omega
  exact inside _ value (Nat.lt_succ_self _)

/-! ## One object -/

theorem precedes_iff {left right : Text} : precedes left right = true ↔
    ∀ index ∈ arrayIndex? right, ∃ other ∈ arrayIndex? left, other ≤ index := by
  rw [precedes]
  cases arrayIndex? right with
  | none => simp
  | some index => simp [Option.any_eq_true]

theorem precedes_total (left right : Text) :
    precedes left right = true ∨ precedes right left = true := by
  rw [precedes_iff, precedes_iff]
  cases arrayIndex? left with
  | none => exact .inr nofun
  | some index =>
      cases arrayIndex? right with
      | none => exact .inl nofun
      | some other =>
          rcases Nat.le_total index other with below | below
          · left
            rintro _ ⟨⟩
            exact ⟨index, rfl, below⟩
          · right
            rintro _ ⟨⟩
            exact ⟨other, rfl, below⟩

theorem precedes_trans {left middle right : Text} (first : precedes left middle = true)
    (second : precedes middle right = true) : precedes left right = true := by
  rw [precedes_iff] at *
  intro index isIndex
  rcases second index isIndex with ⟨other, isOther, below⟩
  rcases first other isOther with ⟨least, isLeast, lower⟩
  exact ⟨least, isLeast, Nat.le_trans lower below⟩

/-- The keys of an object as JavaScript lists them. -/
structure Listed (keys : List Text) : Prop where
  nodup : keys.Nodup
  inOrder : keys.Pairwise fun left right => precedes left right = true

theorem Listed.nil : Listed [] := ⟨.nil, .nil⟩

theorem Listed.sublist {keys fewer : List Text} (listed : Listed keys)
    (sub : fewer.Sublist keys) : Listed fewer :=
  ⟨listed.nodup.sublist sub, listed.inOrder.sublist sub⟩

variable {entries before : List (Text × Json)} {entry : Text × Json}

theorem insertEntry_perm (entry : Text × Json) (entries : List (Text × Json)) :
    (insertEntry entry entries).Perm (entry :: entries) := by
  induction entries with
  | nil => exact .refl _
  | cons first rest ih =>
      rw [insertEntry]
      split
      · exact (ih.cons first).trans (.swap entry first rest)
      · exact .refl _

/-- An entry that all others precede is added at the end. -/
theorem insertEntry_last (last : ∀ other ∈ entries, precedes other.1 entry.1 = true) :
    insertEntry entry entries = entries ++ [entry] := by
  induction entries with
  | nil => rfl
  | cons first rest ih =>
      rw [List.forall_mem_cons] at last
      rw [insertEntry, if_pos last.1, ih last.2, List.cons_append]

theorem insertEntry_inOrder
    (inOrder : entries.Pairwise fun left right => precedes left.1 right.1 = true) :
    (insertEntry entry entries).Pairwise fun left right => precedes left.1 right.1 = true := by
  induction entries with
  | nil => exact List.pairwise_singleton _ _
  | cons first rest ih =>
      rw [List.pairwise_cons] at inOrder
      rw [insertEntry]
      split
      · next precedes =>
          refine List.pairwise_cons.mpr ⟨?_, ih inOrder.2⟩
          intro other membership
          cases (insertEntry_perm entry rest).mem_iff.mp membership with
          | head => exact precedes
          | tail _ behind => exact inOrder.1 other behind
      · next behind =>
          have below := (precedes_total first.1 entry.1).resolve_left behind
          refine List.pairwise_cons.mpr ⟨?_, List.pairwise_cons.mpr inOrder⟩
          rw [List.forall_mem_cons]
          exact ⟨below, fun other membership =>
            precedes_trans below (inOrder.1 other membership)⟩

/-- Replacing an entry keeps the keys. -/
theorem keys_replace (entries : List (Text × Json)) (entry : Text × Json) :
    (entries.map fun other => if other.1 = entry.1 then entry else other).map Prod.fst =
      entries.map Prod.fst := by
  rw [List.map_map]
  apply List.map_congr_left
  intro other _
  rw [Function.comp_apply]
  split
  · next equal => exact equal.symm
  · rfl

theorem Listed.setEntry (listed : Listed (entries.map Prod.fst)) (entry : Text × Json) :
    Listed ((setEntry entries entry).map Prod.fst) := by
  rw [Json.setEntry]
  split
  · rwa [keys_replace]
  · next new =>
      constructor
      · rw [((insertEntry_perm entry entries).map Prod.fst).nodup_iff]
        exact List.nodup_cons.mpr ⟨new, listed.nodup⟩
      · exact List.pairwise_map.mpr (insertEntry_inOrder (List.pairwise_map.mp listed.inOrder))

theorem mem_of_mem_setEntry {other : Text × Json} (membership : other ∈ setEntry entries entry) :
    other ∈ entries ∨ other = entry := by
  rw [setEntry] at membership
  split at membership
  · rcases List.mem_map.mp membership with ⟨source, isSource, same⟩
    split at same
    · exact .inr same.symm
    · exact .inl (same ▸ isSource)
  · exact (List.mem_cons.mp ((insertEntry_perm entry entries).mem_iff.mp membership)).symm

/-- The keys of a text are listed, and no value is made up. -/
theorem collect_spec (entries : List (Text × Json)) :
    Listed ((collect entries).map Prod.fst) ∧ ∀ entry ∈ collect entries, entry ∈ entries := by
  have kept : ∀ before : List (Text × Json), Listed (before.map Prod.fst) →
      Listed ((entries.foldl Json.setEntry before).map Prod.fst) ∧
        ∀ entry ∈ entries.foldl Json.setEntry before, entry ∈ before ∨ entry ∈ entries := by
    induction entries with
    | nil => exact fun before listed => ⟨listed, fun entry membership => .inl membership⟩
    | cons first rest ih =>
        intro before listed
        rcases ih _ (listed.setEntry first) with ⟨keys, values⟩
        refine ⟨keys, ?_⟩
        intro entry membership
        rcases values entry membership with isOld | isNew
        · rcases mem_of_mem_setEntry isOld with isBefore | rfl
          · exact .inl isBefore
          · exact .inr List.mem_cons_self
        · exact .inr (List.mem_cons_of_mem _ isNew)
  rcases kept [] .nil with ⟨keys, values⟩
  exact ⟨keys, fun entry membership => (values entry membership).resolve_left List.not_mem_nil⟩

/-- Distinct keys are put in order. -/
theorem collect_perm (distinct : (entries.map Prod.fst).Nodup) :
    (collect entries).Perm entries := by
  have perm : ∀ before : List (Text × Json), ((before ++ entries).map Prod.fst).Nodup →
      (entries.foldl Json.setEntry before).Perm (before ++ entries) := by
    induction entries with
    | nil => exact fun before _ => .of_eq (List.append_nil before).symm
    | cons first rest ih =>
        intro before distinct
        have new : first.1 ∉ before.map Prod.fst := by
          rw [List.map_append, List.nodup_append] at distinct
          intro again
          exact distinct.2.2 first.1 again first.1 List.mem_cons_self rfl
        have added : (setEntry before first).Perm (first :: before) := by
          rw [setEntry, if_neg new]
          exact insertEntry_perm first before
        have moved : (setEntry before first ++ rest).Perm (before ++ first :: rest) :=
          (added.append_right rest).trans List.perm_middle.symm
        have others : (rest.map Prod.fst).Nodup := by
          rw [List.map_append, List.nodup_append] at distinct
          exact (List.nodup_cons.mp distinct.2.1).2
        exact (ih others _ ((moved.map Prod.fst).nodup_iff.mpr distinct)).trans moved
  exact perm [] distinct

/-- Listed keys stay as they are. -/
theorem Listed.collect (listed : Listed (entries.map Prod.fst)) : collect entries = entries := by
  have same : ∀ before : List (Text × Json), Listed ((before ++ entries).map Prod.fst) →
      entries.foldl Json.setEntry before = before ++ entries := by
    induction entries with
    | nil => exact fun before _ => (List.append_nil before).symm
    | cons first rest ih =>
        intro before listed
        have split := listed
        rw [List.map_append, List.map_cons] at split
        have new : first.1 ∉ before.map Prod.fst := fun again =>
          (List.nodup_append.mp split.nodup).2.2 first.1 again first.1 List.mem_cons_self rfl
        have last : ∀ other ∈ before, precedes other.1 first.1 = true := fun other membership =>
          (List.pairwise_append.mp split.inOrder).2.2 other.1 (List.mem_map_of_mem membership)
            first.1 List.mem_cons_self
        have added : Json.setEntry before first = before ++ [first] := by
          rw [Json.setEntry, if_neg new, insertEntry_last last]
        have fewer : Listed (rest.map Prod.fst) :=
          listed.sublist ((List.sublist_append_of_sublist_right
            (List.sublist_cons_self first rest)).map _)
        rw [List.foldl_cons, added, ih fewer (before ++ [first])]
        · rw [List.append_assoc, List.singleton_append]
        · rwa [List.append_assoc, List.singleton_append]
  exact same [] listed

/-! ## Every object in a value -/

mutual

/-- What `JSON.parse` makes of a value: the keys of every object are put in order. -/
def reorder : Json → Json
  | .array items => .array (reorderItems items)
  | .object entries => .object (collect (reorderEntries entries))
  | value => value

def reorderItems : List Json → List Json
  | [] => []
  | item :: rest => reorder item :: reorderItems rest

def reorderEntries : List (Text × Json) → List (Text × Json)
  | [] => []
  | (key, value) :: rest => (key, reorder value) :: reorderEntries rest

end

mutual

/-- The keys of every object are listed as JavaScript does. -/
def Proper : Json → Prop
  | .array items => ProperItems items
  | .object entries => Listed (entries.map Prod.fst) ∧ ProperEntries entries
  | _ => True

def ProperItems : List Json → Prop
  | [] => True
  | item :: rest => Proper item ∧ ProperItems rest

def ProperEntries : List (Text × Json) → Prop
  | [] => True
  | (_, value) :: rest => Proper value ∧ ProperEntries rest

end

theorem reorderItems_eq (items : List Json) : reorderItems items = items.map reorder := by
  induction items with
  | nil => rfl
  | cons item rest ih => rw [reorderItems, ih, List.map_cons]

theorem reorderEntries_eq (entries : List (Text × Json)) :
    reorderEntries entries = entries.map fun entry => (entry.1, reorder entry.2) := by
  induction entries with
  | nil => rfl
  | cons entry rest ih =>
      rcases entry with ⟨key, value⟩
      rw [reorderEntries, ih, List.map_cons]

theorem properItems_iff {items : List Json} : ProperItems items ↔ ∀ item ∈ items, Proper item := by
  induction items with
  | nil => simp [ProperItems]
  | cons item rest ih => rw [ProperItems, ih, List.forall_mem_cons]

theorem properEntries_iff : ProperEntries entries ↔ ∀ entry ∈ entries, Proper entry.2 := by
  induction entries with
  | nil => simp [ProperEntries]
  | cons entry rest ih =>
      rcases entry with ⟨key, value⟩
      rw [ProperEntries, ih, List.forall_mem_cons]

/-- A value in which the keys are listed is not changed. -/
theorem Proper.reorder {value : Json} (proper : Proper value) : reorder value = value := by
  induction value using Json.induction with
  | null => rfl
  | bool value => rfl
  | number value => rfl
  | string value => rfl
  | array items ih =>
      rw [Proper, properItems_iff] at proper
      have same : items.map Json.reorder = items.map id :=
        List.map_congr_left fun item membership => ih item membership (proper item membership)
      rw [Json.reorder, reorderItems_eq, same, List.map_id]
  | object entries ih =>
      rw [Proper, properEntries_iff] at proper
      have same : (entries.map fun entry => (entry.1, Json.reorder entry.2)) = entries.map id := by
        apply List.map_congr_left
        intro entry membership
        exact Prod.ext rfl (ih entry membership (proper.2 entry membership))
      rw [Json.reorder, reorderEntries_eq, same, List.map_id, proper.1.collect]

theorem proper_collect (proper : ProperEntries entries) : Proper (.object (collect entries)) := by
  rw [properEntries_iff] at proper
  rw [Proper, properEntries_iff]
  rcases collect_spec entries with ⟨keys, values⟩
  exact ⟨keys, fun entry membership => proper entry (values entry membership)⟩

/-- The entries that pass a test. -/
theorem Proper.filter (proper : Proper (.object entries)) (test : Text × Json → Bool) :
    Proper (.object (entries.filter test)) := by
  rw [Proper, properEntries_iff] at *
  refine ⟨proper.1.sublist (List.filter_sublist.map _), ?_⟩
  exact fun entry membership => proper.2 entry (List.mem_filter.mp membership).1

end Json
