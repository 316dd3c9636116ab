import Mathlib.Data.List.Nodup
import Mathlib.Data.List.Basic

/-!
# Document collections

A collection is a list of stored documents in insertion order.  Every stored
document carries the number of writes it has received: two reads of one document
that find the same revision find the same value.  Updates never change the
identifier of a document, and documents are never removed, so a collection only
evolves by rewriting documents in place and by appending new ones.
-/

namespace DocStore

/-- A type of documents.  `id` is the unique identifier; `clash` says that two
documents with different identifiers violate another unique index. -/
class Document (V : Type) (I : outParam Type) where
  id : V → I
  clash : V → V → Bool

/-- A document as it is stored: its value and the number of writes it received
since it was inserted. -/
structure Stored (V : Type) where
  rev : Nat
  val : V
  deriving DecidableEq

abbrev Collection (V : Type) := List (Stored V)

/-- An update statement: the documents that match `filter` are rewritten by
`set`, which keeps the identifier. -/
structure Update (V : Type) {I : Type} [Document V I] where
  filter : V → Bool
  set : V → V
  id_set : ∀ value, Document.id (set value) = Document.id value

variable {V I : Type} [Document V I]

namespace Update

/-- The update as a function on values. -/
def onValue (update : Update V) (value : V) : V :=
  if update.filter value then update.set value else value

/-- The update as a function on stored documents: a match is one more write. -/
def onStored (update : Update V) (doc : Stored V) : Stored V :=
  if update.filter doc.val then ⟨doc.rev + 1, update.set doc.val⟩ else doc

@[simp] theorem id_onValue (update : Update V) (value : V) :
    Document.id (update.onValue value) = Document.id value := by
  unfold onValue
  split
  · exact update.id_set value
  · rfl

@[simp] theorem val_onStored (update : Update V) (doc : Stored V) :
    (update.onStored doc).val = update.onValue doc.val := by
  unfold onStored onValue
  split <;> rfl

theorem onStored_of_not_filter {update : Update V} {doc : Stored V}
    (unmatched : update.filter doc.val = false) : update.onStored doc = doc := by
  simp [onStored, unmatched]

/-- Rewriting a document is visible in its revision. -/
theorem onStored_eq_or_lt (update : Update V) (doc : Stored V) :
    update.onStored doc = doc ∨ doc.rev < (update.onStored doc).rev := by
  unfold onStored
  split
  · exact .inr (Nat.lt_succ_self _)
  · exact .inl rfl

end Update

/-- A sequence of update statements on one collection, first one first. -/
abbrev Script (V : Type) {I : Type} [Document V I] := List (Update V)

namespace Script

def onValue (script : Script V) (value : V) : V :=
  script.foldl (fun current update => update.onValue current) value

def onStored (script : Script V) (doc : Stored V) : Stored V :=
  script.foldl (fun current update => update.onStored current) doc

@[simp] theorem onValue_nil (value : V) : onValue ([] : Script V) value = value := rfl

@[simp] theorem onValue_cons (update : Update V) (script : Script V) (value : V) :
    onValue (update :: script) value = onValue script (update.onValue value) := rfl

@[simp] theorem onStored_nil (doc : Stored V) : onStored ([] : Script V) doc = doc := rfl

@[simp] theorem onStored_cons (update : Update V) (script : Script V) (doc : Stored V) :
    onStored (update :: script) doc = onStored script (update.onStored doc) := rfl

@[simp] theorem val_onStored (script : Script V) (doc : Stored V) :
    (onStored script doc).val = onValue script doc.val := by
  induction script generalizing doc with
  | nil => rfl
  | cons update script ih => rw [onStored_cons, ih, Update.val_onStored, onValue_cons]

@[simp] theorem id_onValue (script : Script V) (value : V) :
    Document.id (onValue script value) = Document.id value := by
  induction script generalizing value with
  | nil => rfl
  | cons update script ih => rw [onValue_cons, ih, Update.id_onValue]

theorem onStored_eq_or_lt (script : Script V) (doc : Stored V) :
    onStored script doc = doc ∨ doc.rev < (onStored script doc).rev := by
  induction script generalizing doc with
  | nil => exact .inl rfl
  | cons update script ih =>
      rw [onStored_cons]
      rcases update.onStored_eq_or_lt doc with same | written
      · rw [same]
        exact ih doc
      · rcases ih (update.onStored doc) with unchanged | later
        · exact .inr (by rw [unchanged]; exact written)
        · exact .inr (Nat.lt_trans written later)

/-- A document that matches an update of the script is written by it. -/
theorem rev_lt_of_filter {script : Script V} {update : Update V} {doc : Stored V}
    (matched : update.filter doc.val = true) :
    doc.rev < (onStored (update :: script) doc).rev := by
  have written : (update.onStored doc).rev = doc.rev + 1 := by
    simp [Update.onStored, matched]
  rcases onStored_eq_or_lt script (update.onStored doc) with unchanged | later
  · rw [onStored_cons, unchanged, written]
    exact Nat.lt_succ_self _
  · rw [onStored_cons]
    omega

/-- A script whose updates do not match leaves a document alone. -/
theorem onStored_of_unmatched {script : Script V} {doc : Stored V}
    (unmatched : ∀ update ∈ script, update.filter doc.val = false) : onStored script doc = doc := by
  induction script with
  | nil => rfl
  | cons update script ih =>
      rw [onStored_cons, Update.onStored_of_not_filter (unmatched update List.mem_cons_self)]
      exact ih fun later membership => unmatched later (List.mem_cons_of_mem _ membership)

/-- A single statement writes the documents it matches only. -/
theorem filter_of_written {update : Update V} {doc : Stored V}
    (written : doc.rev < (onStored [update] doc).rev) : update.filter doc.val = true := by
  by_contra unmatched
  rw [onStored_cons, onStored_nil,
    Update.onStored_of_not_filter (by simpa using unmatched)] at written
  exact Nat.lt_irrefl _ written

theorem onStored_append (first second : Script V) (doc : Stored V) :
    onStored (first ++ second) doc = onStored second (onStored first doc) := by
  rw [onStored, List.foldl_append]
  rfl

theorem onValue_append (first second : Script V) (value : V) :
    onValue (first ++ second) value = onValue second (onValue first value) := by
  rw [onValue, List.foldl_append]
  rfl

end Script

namespace Collection

/-- The identifier of a stored document. -/
def idOf (doc : Stored V) : I := Document.id doc.val

def ids (collection : Collection V) : List I := collection.map idOf

def values (collection : Collection V) : List V := collection.map (·.val)

/-- The documents that match a filter, in insertion order. -/
def find (collection : Collection V) (filter : V → Bool) : List V :=
  (values collection).filter filter

def updateMany (collection : Collection V) (update : Update V) : Collection V :=
  collection.map update.onStored

/-- How many documents an update matches. -/
def matched (collection : Collection V) (update : Update V) : Nat :=
  collection.countP fun doc => update.filter doc.val

/-- Run a script and append new documents. -/
def rewrite (collection : Collection V) (script : Script V) (inserted : List V) :
    Collection V :=
  collection.map (Script.onStored script) ++ inserted.map (Stored.mk 0)

@[simp] theorem mem_values {collection : Collection V} {value : V} :
    value ∈ values collection ↔ ∃ doc ∈ collection, doc.val = value := by
  simp [values]

theorem val_mem_values {collection : Collection V} {doc : Stored V}
    (membership : doc ∈ collection) : doc.val ∈ values collection :=
  mem_values.mpr ⟨doc, membership, rfl⟩

/-- Two stored documents of a collection with one identifier are one document. -/
theorem eq_of_idOf_eq {collection : Collection V} (nodup : (ids collection).Nodup)
    {left right : Stored V} (leftMem : left ∈ collection) (rightMem : right ∈ collection)
    (same : idOf left = idOf right) : left = right :=
  List.inj_on_of_nodup_map nodup leftMem rightMem same

theorem values_ids (collection : Collection V) :
    (values collection).map Document.id = ids collection := by
  simp [values, ids, idOf, Function.comp_def]

theorem value_eq_of_id_eq {collection : Collection V} (nodup : (ids collection).Nodup)
    {left right : V} (leftMem : left ∈ values collection) (rightMem : right ∈ values collection)
    (same : (Document.id left : I) = Document.id right) : left = right :=
  List.inj_on_of_nodup_map (by rwa [values_ids]) leftMem rightMem same

theorem mem_ids {collection : Collection V} {i : I} :
    i ∈ ids collection ↔ ∃ value ∈ values collection, Document.id value = i := by
  rw [← values_ids, List.mem_map]

theorem idOf_mem_ids {collection : Collection V} {doc : Stored V}
    (membership : doc ∈ collection) : idOf doc ∈ ids collection :=
  List.mem_map_of_mem membership

@[simp] theorem values_rewrite (collection : Collection V) (script : Script V)
    (inserted : List V) :
    values (rewrite collection script inserted) =
      (values collection).map (Script.onValue script) ++ inserted := by
  simp [values, rewrite, Function.comp_def]

@[simp] theorem ids_rewrite (collection : Collection V) (script : Script V)
    (inserted : List V) :
    ids (rewrite collection script inserted) =
      ids collection ++ inserted.map Document.id := by
  simp [ids, rewrite, idOf, Function.comp_def]

theorem rewrite_nil_nil (collection : Collection V) :
    rewrite collection [] [] = collection := by
  rw [rewrite, List.map_nil, List.append_nil]
  exact List.map_id collection

theorem updateMany_eq_rewrite (collection : Collection V) (update : Update V) :
    collection.updateMany update = rewrite collection [update] [] := by
  rw [rewrite, List.map_nil, List.append_nil]
  rfl

theorem values_updateMany (collection : Collection V) (update : Update V) :
    values (collection.updateMany update) = (values collection).map update.onValue := by
  rw [updateMany_eq_rewrite, values_rewrite, List.append_nil]
  rfl

theorem append_eq_rewrite (collection : Collection V) (inserted : List V) :
    collection ++ inserted.map (Stored.mk 0) = rewrite collection [] inserted := by
  rw [rewrite]
  congr 1
  exact (List.map_id collection).symm

/-- Two rewritings in a row are one, unless the second touches insertions of the
first. -/
theorem rewrite_rewrite (collection : Collection V) {first second : Script V}
    {inserted later : List V} (separate : inserted = [] ∨ second = []) :
    rewrite (rewrite collection first inserted) second later =
      rewrite collection (first ++ second) (inserted ++ later) := by
  simp only [rewrite, List.map_append, List.map_map]
  rcases separate with rfl | rfl
  · simp only [List.map_nil, List.append_nil, List.nil_append]
    congr 1
    apply List.map_congr_left
    intro doc _
    exact (Script.onStored_append first second doc).symm
  · rw [List.append_nil, ← List.append_assoc]
    congr 1

variable [DecidableEq I]

def findStored (collection : Collection V) (i : I) : Option (Stored V) :=
  collection.find? fun doc => idOf doc = i

/-- The revision of the document stored under an identifier. -/
def rev? (collection : Collection V) (i : I) : Option Nat :=
  (findStored collection i).map (·.rev)

/-- The document with this identifier. -/
def findById (collection : Collection V) (i : I) : Option V :=
  (findStored collection i).map (·.val)

/-- Another document of the collection violates a unique index with this one. -/
def duplicates (collection : Collection V) (value : V) : Bool :=
  collection.any fun doc => idOf doc = Document.id value || Document.clash doc.val value

theorem findStored_eq_some {collection : Collection V} (nodup : (ids collection).Nodup)
    {i : I} {doc : Stored V} :
    findStored collection i = some doc ↔ doc ∈ collection ∧ idOf doc = i := by
  constructor
  · intro found
    exact ⟨List.mem_of_find?_eq_some found, by simpa using List.find?_some found⟩
  · rintro ⟨membership, rfl⟩
    cases search : findStored collection (idOf doc) with
    | none =>
        have absent := List.find?_eq_none.mp search doc membership
        simp at absent
    | some other =>
        have otherMem : other ∈ collection := List.mem_of_find?_eq_some search
        have same : idOf other = idOf doc := by simpa using List.find?_some search
        rw [eq_of_idOf_eq nodup otherMem membership same]

theorem findStored_eq_none {collection : Collection V} {i : I} :
    findStored collection i = none ↔ i ∉ ids collection := by
  simp [findStored, ids]

theorem rev?_eq_none {collection : Collection V} {i : I} :
    rev? collection i = none ↔ i ∉ ids collection := by
  rw [rev?, Option.map_eq_none_iff, findStored_eq_none]

theorem rev?_of_mem {collection : Collection V} (nodup : (ids collection).Nodup)
    {doc : Stored V} (membership : doc ∈ collection) :
    rev? collection (idOf doc) = some doc.rev := by
  rw [rev?, (findStored_eq_some nodup).mpr ⟨membership, rfl⟩, Option.map_some]

theorem findById_eq_some {collection : Collection V} (nodup : (ids collection).Nodup)
    {i : I} {value : V} :
    findById collection i = some value ↔ value ∈ values collection ∧ Document.id value = i := by
  simp only [findById, Option.map_eq_some_iff, findStored_eq_some nodup, mem_values]
  constructor
  · rintro ⟨doc, ⟨membership, rfl⟩, rfl⟩
    exact ⟨⟨doc, membership, rfl⟩, rfl⟩
  · rintro ⟨⟨doc, membership, rfl⟩, rfl⟩
    exact ⟨doc, ⟨membership, rfl⟩, rfl⟩

theorem mem_values_of_findById {collection : Collection V} {i : I} {value : V}
    (found : collection.findById i = some value) : value ∈ collection.values := by
  obtain ⟨doc, search, rfl⟩ := Option.map_eq_some_iff.mp found
  exact val_mem_values (List.mem_of_find?_eq_some search)

theorem findById_eq_none {collection : Collection V} {i : I} :
    findById collection i = none ↔ i ∉ ids collection := by
  rw [findById, Option.map_eq_none_iff, findStored_eq_none]

theorem findById_rewrite (collection : Collection V) (script : Script V) (i : I) :
    findById (rewrite collection script []) i = (findById collection i).map script.onValue := by
  have same : (fun doc : Stored V => decide (idOf doc = i)) ∘ Script.onStored script =
      fun doc => decide (idOf doc = i) := by
    funext doc
    rw [Function.comp_apply, decide_eq_decide, idOf, Script.val_onStored, Script.id_onValue]
    rfl
  rw [findById, findStored, rewrite, List.map_nil, List.append_nil, List.find?_map, same, findById,
    findStored, Option.map_map, Option.map_map]
  congr 1
  funext doc
  simp

end Collection

end DocStore
