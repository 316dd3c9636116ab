import WorkflowEngine.Foundations.Separators
import WorkflowEngine.Rag.Pipeline

/-!
# The vector store

One collection for an embedding model and a dimension: the two are encoded in its name.
The collections are kept by a service that is told their names.
-/

open Separators

namespace WorkflowEngine.Rag

/-- An embedding model and a dimension.  Vectors of different spaces are never compared. -/
structure Space where
  model : String
  dims : ℕ
  deriving DecidableEq, Repr

def Space.collection (space : Space) : String := collectionName space.model space.dims

/-- A point as callers give it, without a collection. -/
structure Entry (Scalar : Type) where
  id : Nat
  vector : List Scalar
  ownerId : UserId
  documentId : ObjectId
  chunkIndex : Nat
  title : String
  text : String
  deriving DecidableEq, Repr

variable {Scalar : Type}

def Entry.place (collection : String) (entry : Entry Scalar) : Point Scalar :=
  { collection := collection
    id := entry.id
    vector := entry.vector
    ownerId := entry.ownerId
    documentId := entry.documentId
    chunkIndex := entry.chunkIndex
    title := entry.title
    text := entry.text }

/-- What the service decides. -/
structure Qdrant (Scalar : Type) where
  /-- a collection of this name and vector size may be created -/
  accepts : String → ℕ → Bool
  /-- the points nearest to a vector, so many and with this score at least -/
  nearest : List (Point Scalar) → List Scalar → ℕ → Scalar → List (Point Scalar)
  subset_nearest : ∀ points vector topK minScore, nearest points vector topK minScore ⊆ points

structure VectorStore (Scalar : Type) where
  /-- the collections that this process has ensured -/
  ready : List String
  /-- the collections with the size of their vectors -/
  collections : List (String × ℕ)
  points : List (Point Scalar)

namespace VectorStore

def empty : VectorStore Scalar where
  ready := []
  collections := []
  points := []

variable (qdrant : Qdrant Scalar)

def ensureCollection (store : VectorStore Scalar) (name : String) (dims : ℕ) :
    Option (VectorStore Scalar) :=
  if name ∈ store.ready then some store
  else if name ∈ store.collections.map Prod.fst then
    some { store with ready := name :: store.ready }
  else if qdrant.accepts name dims then
    some { store with
      ready := name :: store.ready
      collections := (name, dims) :: store.collections }
  else none

/-- A call to the store. -/
inductive Call (Scalar : Type) where
  | upsert (model : String) (entries : List (Entry Scalar))
  | search (model : String) (vector : List Scalar) (ownerId : UserId) (topK : ℕ)
      (minScore : Scalar)
  | deleteByDocument (model : String) (dims : ℕ) (documentId : ObjectId)

/-- The store after a call, and what a search returns; nothing if the call throws.  The
service refuses vectors of another size than the collection's. -/
def call (store : VectorStore Scalar) : Call Scalar →
    VectorStore Scalar × Option (List (Point Scalar))
  | .upsert _ [] => (store, some [])
  | .upsert model (first :: rest) =>
      let name := collectionName model first.vector.length
      match store.ensureCollection qdrant name first.vector.length with
      | none => (store, none)
      | some store =>
          if ∀ entry ∈ first :: rest, (name, entry.vector.length) ∈ store.collections then
            ({ store with points := upsert store.points ((first :: rest).map (Entry.place name)) },
              some [])
          else (store, none)
  | .search model vector ownerId topK minScore =>
      let name := collectionName model vector.length
      match store.ensureCollection qdrant name vector.length with
      | none => (store, none)
      | some store =>
          if (name, vector.length) ∈ store.collections then
            (store, some (qdrant.nearest
              (store.points.filter fun point => point.collection == name && point.ownerId == ownerId)
              vector topK minScore))
          else (store, none)
  | .deleteByDocument model dims documentId =>
      match store.ensureCollection qdrant (collectionName model dims) dims with
      | none => (store, none)
      | some store =>
          ({ store with points := Rag.deleteByDocument store.points model dims documentId }, some [])

/-- A sequence of calls of one process, from an empty service. -/
def run (calls : List (Call Scalar)) : VectorStore Scalar :=
  calls.foldl (fun store next => (store.call qdrant next).1) empty

end VectorStore

/-! ## Names -/

/-- Names that differ only in the characters between their letters and digits. -/
inductive SameWords : List Char → List Char → Prop where
  | nil : SameWords [] []
  | letter {char : Char} {left right : List Char} (isLetter : char.isAlphanum = true)
      (rest : SameWords left right) : SameWords (char :: left) (char :: right)
  | marks {marks marks' left right : List Char} (nonempty : marks ≠ [])
      (nonempty' : marks' ≠ []) (are : ∀ char ∈ marks, char.isAlphanum = false)
      (are' : ∀ char ∈ marks', char.isAlphanum = false)
      (rest : SameWords left right) : SameWords (marks ++ left) (marks' ++ right)

theorem underscored_letter {char : Char} (isLetter : char.isAlphanum = true) (inRun : Bool)
    (name : List Char) : underscored inRun (char :: name) = char :: underscored false name := by
  rw [underscored, if_pos isLetter]

theorem underscored_mark {char : Char} (isMark : char.isAlphanum = false) (name : List Char) :
    underscored false (char :: name) = '_' :: underscored true name := by
  rw [underscored, if_neg (Bool.not_eq_true _ ▸ isMark), if_neg Bool.false_ne_true]

theorem underscored_more {char : Char} (isMark : char.isAlphanum = false) (name : List Char) :
    underscored true (char :: name) = underscored true name := by
  rw [underscored, if_neg (Bool.not_eq_true _ ▸ isMark), if_pos rfl]

theorem underscored_marks {marks : List Char} (are : ∀ char ∈ marks, char.isAlphanum = false)
    (name : List Char) : underscored true (marks ++ name) = underscored true name := by
  induction marks with
  | nil => rfl
  | cons char marks ih =>
      rw [List.forall_mem_cons] at are
      rw [List.cons_append, underscored_more are.1, ih are.2]

/-- The rest of a run of marks is left out. -/
theorem split_marks (name : List Char) :
    ∃ marks rest, name = marks ++ rest ∧ (∀ char ∈ marks, char.isAlphanum = false) ∧
      underscored true name = underscored false rest := by
  induction name with
  | nil => exact ⟨[], [], rfl, List.forall_mem_nil _, rfl⟩
  | cons char name ih =>
      cases isLetter : char.isAlphanum with
      | true =>
          refine ⟨[], char :: name, rfl, List.forall_mem_nil _, ?_⟩
          rw [underscored_letter isLetter, underscored_letter isLetter]
      | false =>
          rcases ih with ⟨marks, rest, split, are, same⟩
          refine ⟨char :: marks, rest, by rw [split, List.cons_append], ?_, ?_⟩
          · rw [List.forall_mem_cons]
            exact ⟨isLetter, are⟩
          · rw [underscored_more isLetter, same]

theorem SameWords.underscored_eq {left right : List Char} (same : SameWords left right)
    (inRun : Bool) : underscored inRun left = underscored inRun right := by
  induction same generalizing inRun with
  | nil => rfl
  | letter isLetter rest ih => rw [underscored_letter isLetter, underscored_letter isLetter, ih]
  | @marks marks marks' left right nonempty nonempty' are are' rest ih =>
      cases marks with
      | nil => exact absurd rfl nonempty
      | cons char marks =>
          cases marks' with
          | nil => exact absurd rfl nonempty'
          | cons char' marks' =>
              rw [List.forall_mem_cons] at are are'
              have later : underscored true (marks ++ left) = underscored true (marks' ++ right) := by
                rw [underscored_marks are.2, underscored_marks are'.2, ih]
              rw [List.cons_append, List.cons_append]
              cases inRun with
              | false => rw [underscored_mark are.1, underscored_mark are'.1, later]
              | true => rw [underscored_more are.1, underscored_more are'.1, later]

theorem underscore_ne_letter {char : Char} (isLetter : char.isAlphanum = true) : char ≠ '_' := by
  intro same
  rw [same] at isLetter
  exact absurd isLetter (by decide)

/-- The encoding forgets exactly which marks stand between the words. -/
theorem sameWords_of_underscored_eq (left right : List Char)
    (same : underscored false left = underscored false right) : SameWords left right := by
  match left, right with
  | [], [] => exact .nil
  | [], char :: right =>
      cases isLetter : char.isAlphanum with
      | true =>
          rw [underscored_letter isLetter] at same
          cases same
      | false =>
          rw [underscored_mark isLetter] at same
          cases same
  | char :: left, [] =>
      cases isLetter : char.isAlphanum with
      | true =>
          rw [underscored_letter isLetter] at same
          cases same
      | false =>
          rw [underscored_mark isLetter] at same
          cases same
  | char :: left, char' :: right =>
      cases isLetter : char.isAlphanum with
      | true =>
          rw [underscored_letter isLetter] at same
          cases isLetter' : char'.isAlphanum with
          | true =>
              rw [underscored_letter isLetter'] at same
              rcases List.cons.inj same with ⟨rfl, rest⟩
              exact .letter isLetter (sameWords_of_underscored_eq left right rest)
          | false =>
              rw [underscored_mark isLetter'] at same
              exact absurd (List.cons.inj same).1 (underscore_ne_letter isLetter)
      | false =>
          rw [underscored_mark isLetter] at same
          cases isLetter' : char'.isAlphanum with
          | true =>
              rw [underscored_letter isLetter'] at same
              exact absurd (List.cons.inj same).1.symm (underscore_ne_letter isLetter')
          | false =>
              rw [underscored_mark isLetter'] at same
              rcases split_marks left with ⟨marks, rest, rfl, are, isRest⟩
              rcases split_marks right with ⟨marks', rest', rfl, are', isRest'⟩
              have inner : underscored false rest = underscored false rest' := by
                rw [← isRest, ← isRest']
                exact (List.cons.inj same).2
              have inside := sameWords_of_underscored_eq rest rest' inner
              exact .marks (List.cons_ne_nil char marks) (List.cons_ne_nil char' marks')
                (List.forall_mem_cons.mpr ⟨isLetter, are⟩)
                (List.forall_mem_cons.mpr ⟨isLetter', are'⟩) inside
termination_by left.length

theorem underscored_eq_iff {left right : List Char} :
    underscored false left = underscored false right ↔ SameWords left right := by
  constructor
  · exact sameWords_of_underscored_eq left right
  · exact fun same => same.underscored_eq false

theorem toList_collectionName (model : String) (dims : ℕ) :
    (collectionName model dims).toList =
      "knowledge_".toList ++ (underscored false model.toList ++ '_' :: dims.repr.toList) := by
  simp [collectionName, toString]

/-- Two spaces share a collection if their dimensions are the same and their models the
same words. -/
theorem collection_eq_iff {left right : Space} :
    left.collection = right.collection ↔
      left.dims = right.dims ∧ SameWords left.model.toList right.model.toList := by
  rw [Space.collection, Space.collection, ← String.toList_inj, toList_collectionName,
    toList_collectionName, List.append_cancel_left_eq, ← underscored_eq_iff]
  constructor
  · intro same
    have parts := append_cons_inj_right (not_mem_repr rfl) (not_mem_repr rfl) same
    exact ⟨Nat.repr_injective (String.toList_inj.mp parts.2), parts.1⟩
  · rintro ⟨dims, words⟩
    rw [dims, words]

end WorkflowEngine.Rag
