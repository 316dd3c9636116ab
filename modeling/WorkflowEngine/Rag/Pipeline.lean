import WorkflowEngine.Foundations.Transition
import WorkflowEngine.Models

/-!
# Ingestion and deletion of a document

A document is a row, its chunks in MongoDB and its vectors in the vector store, which no
transaction spans.  One call ingests a document while another one deletes it; every
operation on a store is one step.
-/

namespace WorkflowEngine.Rag

inductive DocumentStatus where
  | processing | ready | failed
  deriving DecidableEq, Repr

structure KnowledgeDocument where
  id : ObjectId
  ownerId : UserId
  title : String
  mimeType : String
  contentHash : String
  status : DocumentStatus
  chunkCount : Nat
  embeddingModel : String
  /-- which collection holds its vectors -/
  vectorDims : Option Nat
  error : Option String
  deriving DecidableEq, Repr

structure KnowledgeChunk where
  documentId : ObjectId
  ownerId : UserId
  index : Nat
  text : String
  pointId : Nat
  embeddingModel : String
  deriving DecidableEq, Repr

/-- A vector with its payload. -/
structure Point (Scalar : Type) where
  collection : String
  id : Nat
  vector : List Scalar
  ownerId : UserId
  documentId : ObjectId
  chunkIndex : Nat
  title : String
  text : String
  deriving DecidableEq, Repr

/-- The provider's embedding model.  Its vectors have one dimension, which is not 0. -/
structure Embedder (Scalar : Type) where
  model : String
  dims : Nat
  embed : String → List Scalar
  length_embed : ∀ text, (embed text).length = dims
  positive : 0 < dims

/-- One call of `ingest` after cleaning, hashing and chunking. -/
structure Upload where
  /-- the id of the new row -/
  id : ObjectId
  ownerId : UserId
  title : String
  mimeType : String
  contentHash : String
  pieces : List String
  /-- the ids that `randomUUID` draws for the chunks -/
  randomUUID : Nat → Nat

structure Stores (Scalar : Type) where
  documents : List KnowledgeDocument
  chunks : List KnowledgeChunk
  points : List (Point Scalar)

variable {Scalar : Type}

/-! ## The vector store -/

/-- Every run of other characters becomes one underscore. -/
def underscored : Bool → List Char → List Char
  | _, [] => []
  | inRun, char :: rest =>
      if char.isAlphanum then char :: underscored false rest
      else if inRun then underscored true rest
      else '_' :: underscored true rest

def collectionName (model : String) (dims : Nat) : String :=
  s!"knowledge_{String.ofList (underscored false model.toList)}_{dims}"

/-- Points with the same id are replaced. -/
def upsert (points new : List (Point Scalar)) : List (Point Scalar) :=
  points.filter (fun point => !new.any fun other =>
    other.collection == point.collection && other.id == point.id) ++ new

def deleteByDocument (points : List (Point Scalar)) (model : String) (dims : Nat)
    (documentId : ObjectId) : List (Point Scalar) :=
  points.filter fun point =>
    !(point.collection == collectionName model dims && point.documentId == documentId)

/-! ## The two calls -/

/-- Where a call of `ingest` is. -/
inductive Ingest where
  | creating
  /-- about to embed the pieces and insert the chunks -/
  | embedding
  | upserting
  /-- about to save the row as READY -/
  | saving
  /-- it failed; `dims` is known once the pieces are embedded -/
  | cleaningChunks (dims : Option Nat)
  | cleaningVectors (dims : Nat)
  | savingFailed
  | returned
  | threw
  deriving DecidableEq, Repr

/-- Where a call of `deleteDocument` is, with the row it has read. -/
inductive Delete where
  | reading
  | deletingVectors (document : KnowledgeDocument)
  | deletingChunks (document : KnowledgeDocument)
  | deletingRow (document : KnowledgeDocument)
  | returned
  | threw
  deriving DecidableEq, Repr

structure Knowledge (Scalar : Type) extends Stores Scalar where
  ingest : Ingest
  delete : Delete

namespace Upload

/-- The row as it is created. -/
def document (upload : Upload) (model : String) : KnowledgeDocument :=
  { id := upload.id
    ownerId := upload.ownerId
    title := upload.title
    mimeType := upload.mimeType
    contentHash := upload.contentHash
    status := .processing
    chunkCount := 0
    embeddingModel := model
    vectorDims := none
    error := none }

def chunks (upload : Upload) (model : String) : List KnowledgeChunk :=
  upload.pieces.mapIdx fun index text =>
    { documentId := upload.id
      ownerId := upload.ownerId
      index, text
      pointId := upload.randomUUID index
      embeddingModel := model }

def points (upload : Upload) (embedder : Embedder Scalar) : List (Point Scalar) :=
  (upload.chunks embedder.model).map fun chunk =>
    { collection := collectionName embedder.model embedder.dims
      id := chunk.pointId
      vector := embedder.embed chunk.text
      ownerId := upload.ownerId
      documentId := upload.id
      chunkIndex := chunk.index
      title := upload.title
      text := chunk.text }

end Upload

/-- Change the row with this id. -/
def updateRow (documents : List KnowledgeDocument) (id : ObjectId)
    (set : KnowledgeDocument → KnowledgeDocument) : List KnowledgeDocument :=
  documents.map fun document => if document.id = id then set document else document

/-- `if (doc.vectorDims)` -/
def hasVectors (document : KnowledgeDocument) : Bool :=
  document.vectorDims.any (· ≠ 0)

namespace Knowledge

variable (embedder : Embedder Scalar) (upload : Upload) (scope : Option UserId)

/-- One step of `ingest`. -/
def ingestStep (knowledge : Knowledge Scalar) : Option (Knowledge Scalar) :=
  match knowledge.ingest with
  | .creating =>
      if knowledge.documents.any fun document =>
          document.ownerId == upload.ownerId && document.contentHash == upload.contentHash then
        some { knowledge with ingest := .threw }
      else
        some { knowledge with
          documents := knowledge.documents ++ [upload.document embedder.model]
          ingest := .embedding }
  | .embedding =>
      -- Without a piece there is no first vector to take the dimension of.
      if upload.pieces = [] then
        some { knowledge with ingest := .cleaningChunks none }
      else
        some { knowledge with
          chunks := knowledge.chunks ++ upload.chunks embedder.model, ingest := .upserting }
  | .upserting =>
      some { knowledge with
        points := upsert knowledge.points (upload.points embedder), ingest := .saving }
  | .saving =>
      if knowledge.documents.any fun document => document.id == upload.id then
        some { knowledge with
          documents := updateRow knowledge.documents upload.id fun document =>
            { document with
              status := .ready
              chunkCount := upload.pieces.length
              vectorDims := some embedder.dims }
          ingest := .returned }
      else
        -- saving a row that is gone throws
        some { knowledge with ingest := .cleaningChunks (some embedder.dims) }
  | .cleaningChunks dims =>
      some { knowledge with
        chunks := knowledge.chunks.filter fun chunk => chunk.documentId != upload.id
        ingest := dims.elim .savingFailed .cleaningVectors }
  | .cleaningVectors dims =>
      some { knowledge with
        points := deleteByDocument knowledge.points embedder.model dims upload.id
        ingest := .savingFailed }
  | .savingFailed =>
      some { knowledge with
        documents := updateRow knowledge.documents upload.id fun document =>
          { document with
            status := .failed
            error := some "Cannot read properties of undefined (reading 'length')" }
        ingest := .threw }
  | .returned | .threw => none

/-- One step of `deleteDocument`. -/
def deleteStep (knowledge : Knowledge Scalar) : Option (Knowledge Scalar) :=
  match knowledge.delete with
  | .reading =>
      match knowledge.documents.find? fun document =>
          document.id == upload.id && scope.all fun ownerId => document.ownerId == ownerId with
      | none => some { knowledge with delete := .threw }
      | some document =>
          some { knowledge with
            delete :=
              if hasVectors document then .deletingVectors document
              else .deletingChunks document }
  | .deletingVectors document =>
      some { knowledge with
        points := deleteByDocument knowledge.points document.embeddingModel
          (document.vectorDims.getD 0) document.id
        delete := .deletingChunks document }
  | .deletingChunks document =>
      some { knowledge with
        chunks := knowledge.chunks.filter fun chunk => chunk.documentId != document.id
        delete := .deletingRow document }
  | .deletingRow document =>
      some { knowledge with
        documents := knowledge.documents.filter fun other => other.id != document.id
        delete := .returned }
  | .returned | .threw => none

end Knowledge

/-- Who takes the next step. -/
inductive Party where
  | ingest | delete
  deriving DecidableEq, Repr

/-- Both calls on any stores. -/
def knowledgeBase (embedder : Embedder Scalar) (upload : Upload) (scope : Option UserId)
    (stores : Stores Scalar) : Transition.System (Knowledge Scalar) Party where
  init := { stores with ingest := .creating, delete := .reading }
  step knowledge
    | .ingest => knowledge.ingestStep embedder upload
    | .delete => knowledge.deleteStep upload scope

/-! ## What the operations leave -/

theorem mem_updateRow {documents : List KnowledgeDocument} {id : ObjectId}
    {set : KnowledgeDocument → KnowledgeDocument} {document : KnowledgeDocument}
    (membership : document ∈ updateRow documents id set) :
    ∃ source ∈ documents, source.id = id ∧ document = set source ∨
      document ∈ documents ∧ document.id ≠ id := by
  rcases List.mem_map.mp membership with ⟨source, sourceMem, rfl⟩
  by_cases same : source.id = id
  · exact ⟨source, sourceMem, .inl ⟨same, if_pos same⟩⟩
  · rw [if_neg same]
    exact ⟨source, sourceMem, .inr ⟨sourceMem, same⟩⟩

theorem mem_upsert {points new : List (Point Scalar)} {point : Point Scalar}
    (membership : point ∈ upsert points new) : point ∈ points ∨ point ∈ new := by
  rcases List.mem_append.mp membership with before | added
  · exact .inl (List.mem_filter.mp before).1
  · exact .inr added

theorem mem_deleteByDocument {points : List (Point Scalar)} {model : String} {dims : Nat}
    {documentId : ObjectId} {point : Point Scalar}
    (membership : point ∈ deleteByDocument points model dims documentId) :
    point ∈ points ∧
      (point.collection = collectionName model dims → point.documentId ≠ documentId) := by
  rcases List.mem_filter.mp membership with ⟨before, kept⟩
  refine ⟨before, fun collection same => ?_⟩
  simp [collection, same] at kept

/-! ## What is left of a deleted document -/

namespace Stores

/-- No point of the document is in the vector store. -/
def Pointless (stores : Stores Scalar) (id : ObjectId) : Prop :=
  ∀ point ∈ stores.points, point.documentId ≠ id

def Chunkless (stores : Stores Scalar) (id : ObjectId) : Prop :=
  ∀ chunk ∈ stores.chunks, chunk.documentId ≠ id

/-- The stores know nothing of the document. -/
structure Fresh (stores : Stores Scalar) (id : ObjectId) : Prop where
  documents : ∀ document ∈ stores.documents, document.id ≠ id
  chunks : stores.Chunkless id
  points : stores.Pointless id

/-- Points and chunks of the document belong to a READY row. -/
def Searchable (stores : Stores Scalar) (id : ObjectId) : Prop :=
  stores.Pointless id ∧ stores.Chunkless id ∨
    ∃ document ∈ stores.documents, document.id = id ∧ document.status = .ready

end Stores

namespace Schedule

/-- Every text has the same vector. -/
def constant : Embedder Int where
  model := "m"
  dims := 2
  embed _ := [1, 0]
  length_embed _ := rfl
  positive := by decide

/-- One user uploads a document of one chunk. -/
def onePage : Upload where
  id := 7
  ownerId := 1
  title := "t"
  mimeType := "text/plain"
  contentHash := "h"
  pieces := ["p"]
  randomUUID := id

def noStores : Stores Int := ⟨[], [], []⟩

end Schedule

end WorkflowEngine.Rag
