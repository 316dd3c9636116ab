import WorkflowEngine.Rag.Pipeline
import WorkflowEngine.Rag.Text
import WorkflowEngine.Services.Access

/-!
# One ingestion with failing steps

A call of `ingest` on its own: cleaning, the row that recognises a document, the
external steps of which any can fail after part of its work, and the clean-up.
-/

open Text

namespace WorkflowEngine.Rag

/-- The text splitter.  Of a text that is not empty it leaves at least one piece. -/
structure Splitter where
  splitText : Text → List String
  nonempty : ∀ text, text ≠ [] → splitText text ≠ []

/-- What the pipeline is created with. -/
structure IngestDeps (Scalar : Type) where
  normalizer : Normalizer
  sha256 : Text → String
  splitter : Splitter
  embedder : Embedder Scalar

structure IngestRequest where
  ownerId : UserId
  title : String
  content : Text
  mimeType : String

/-- What one call draws and what its external steps do: the message with which a step
fails, and what it has done by then. -/
structure IngestWorld (Scalar : Type) where
  /-- the id of the new row -/
  id : ObjectId
  randomUUID : ℕ → ℕ
  chunking : Option String
  /-- by the number of the request to the provider -/
  embedding : ℕ → Option String
  inserting : Option ((KnowledgeChunk → Bool) × String)
  upserting : Option ((Point Scalar → Bool) × String)
  saving : Option (Bool × String)

inductive IngestError where
  | app (error : AppError)
  | step (message : String)
  deriving DecidableEq

def tooLittleText : AppError :=
  validationError "Document has too little text after cleaning" "VALIDATION_ERROR" .none

def duplicateDocument : AppError :=
  conflictError "This document was already uploaded" "DUPLICATE_DOCUMENT" .none

/-- The stores while a call runs, with its row as it holds it and the dimension once it
knows it. -/
structure Ingesting (Scalar : Type) extends Stores Scalar where
  document : KnowledgeDocument
  dims : Option ℕ

variable {Scalar : Type}

/-- `EMBED_BATCH` -/
def embedBatch : ℕ := 16

/-- One request to the provider for every batch of texts; so many texts came before. -/
def embedAll (embedder : Embedder Scalar) (embedding : ℕ → Option String) :
    ℕ → List String → Except String (List (List Scalar))
  | _, [] => .ok []
  | done, text :: rest =>
      match (if done % embedBatch = 0 then embedding (done / embedBatch) else none),
        embedAll embedder embedding (done + 1) rest with
      | some message, _ => .error message
      | none, .error message => .error message
      | none, .ok vectors => .ok (embedder.embed text :: vectors)

theorem embedAll_eq_ok {embedder : Embedder Scalar} {embedding : ℕ → Option String} {done : ℕ}
    {texts : List String} {vectors : List (List Scalar)}
    (embedded : embedAll embedder embedding done texts = .ok vectors) :
    vectors = texts.map embedder.embed := by
  induction texts generalizing done vectors with
  | nil =>
      cases embedded
      rfl
  | cons text rest ih =>
      rw [embedAll] at embedded
      split at embedded
      · cases embedded
      · cases embedded
      · next others later =>
        cases embedded
        rw [ih later, List.map_cons]

theorem length_of_embedAll {embedder : Embedder Scalar} {embedding : ℕ → Option String} {done : ℕ}
    {texts : List String} {vectors : List (List Scalar)} {vector : List Scalar}
    (embedded : embedAll embedder embedding done texts = .ok vectors)
    (membership : vector ∈ vectors) : vector.length = embedder.dims := by
  rw [embedAll_eq_ok embedded] at membership
  obtain ⟨text, _, rfl⟩ := List.mem_map.mp membership
  exact embedder.length_embed text

theorem embedAll_of_none {embedder : Embedder Scalar} {embedding : ℕ → Option String}
    (succeeds : ∀ batch, embedding batch = none) (done : ℕ) (texts : List String) :
    embedAll embedder embedding done texts = .ok (texts.map embedder.embed) := by
  induction texts generalizing done with
  | nil => rfl
  | cons text rest ih =>
      rw [embedAll, ih, succeeds, ite_self]
      rfl

section Call

variable (deps : IngestDeps Scalar) (request : IngestRequest) (world : IngestWorld Scalar)

/-- The row as it is created. -/
def newDocument (text : Text) : KnowledgeDocument :=
  { id := world.id
    ownerId := request.ownerId
    title := request.title
    mimeType := request.mimeType
    contentHash := deps.sha256 text
    status := .processing
    chunkCount := 0
    embeddingModel := deps.embedder.model
    vectorDims := none
    error := none }

def newChunks (pieces : List String) : List KnowledgeChunk :=
  pieces.mapIdx fun index text =>
    { documentId := world.id
      ownerId := request.ownerId
      index, text
      pointId := world.randomUUID index
      embeddingModel := deps.embedder.model }

def newPoints (dims : ℕ) (chunks : List KnowledgeChunk) (vectors : List (List Scalar)) :
    List (Point Scalar) :=
  List.zipWith (fun chunk vector =>
    { collection := collectionName deps.embedder.model dims
      id := chunk.pointId
      vector
      ownerId := request.ownerId
      documentId := world.id
      chunkIndex := chunk.index
      title := request.title
      text := chunk.text }) chunks vectors

/-- `doc.save()` -/
def saveDocument (ingesting : Ingesting Scalar) : Ingesting Scalar :=
  { ingesting with
    documents := updateRow ingesting.documents ingesting.document.id fun _ => ingesting.document }

/-- The row is saved READY. -/
def saveReady (chunkCount dims : ℕ) (ingesting : Ingesting Scalar) :
    Except String KnowledgeDocument × Ingesting Scalar :=
  let ready := { ingesting with
    document := { ingesting.document with
      status := .ready, chunkCount, vectorDims := some dims } }
  match world.saving with
  | none => (.ok ready.document, saveDocument ready)
  | some (applied, message) => (.error message, if applied then saveDocument ready else ready)

def upsertPoints (dims : ℕ) (chunks : List KnowledgeChunk) (vectors : List (List Scalar))
    (ingesting : Ingesting Scalar) : Except String KnowledgeDocument × Ingesting Scalar :=
  let points := newPoints deps request world dims chunks vectors
  match world.upserting with
  | none =>
      saveReady world chunks.length dims
        { ingesting with points := upsert ingesting.points points }
  | some (written, message) =>
      (.error message,
        { ingesting with points := upsert ingesting.points (points.filter written) })

def insertChunks (dims : ℕ) (pieces : List String) (vectors : List (List Scalar))
    (ingesting : Ingesting Scalar) : Except String KnowledgeDocument × Ingesting Scalar :=
  let chunks := newChunks deps request world pieces
  match world.inserting with
  | none =>
      upsertPoints deps request world dims chunks vectors
        { ingesting with chunks := ingesting.chunks ++ chunks }
  | some (inserted, message) =>
      (.error message, { ingesting with chunks := ingesting.chunks ++ chunks.filter inserted })

/-- The `try` block. -/
def attempt (text : Text) (ingesting : Ingesting Scalar) :
    Except String KnowledgeDocument × Ingesting Scalar :=
  match world.chunking with
  | some message => (.error message, ingesting)
  | none =>
      let pieces := deps.splitter.splitText text
      match embedAll deps.embedder world.embedding 0 pieces with
      | .error message => (.error message, ingesting)
      | .ok [] => (.error "Cannot read properties of undefined (reading 'length')", ingesting)
      | .ok (first :: others) =>
          insertChunks deps request world first.length pieces (first :: others)
            { ingesting with dims := some first.length }

/-- The `catch` block, whose calls succeed. -/
def cleanUp (message : String) (ingesting : Ingesting Scalar) : Ingesting Scalar :=
  let cleaned := { ingesting with
    chunks := ingesting.chunks.filter fun chunk => chunk.documentId != ingesting.document.id
    points := match ingesting.dims with
      | none | some 0 => ingesting.points
      | some dims =>
          deleteByDocument ingesting.points deps.embedder.model dims ingesting.document.id
    document := { ingesting.document with
      status := .failed
      error := some (decode ((encode message).take 500)) } }
  saveDocument cleaned

/-- The row of a document of the owner with this hash. -/
def isSame (ownerId : UserId) (contentHash : String) (document : KnowledgeDocument) : Bool :=
  document.ownerId == ownerId && document.contentHash == contentHash

/-- `KnowledgeDocument.create` -/
def createDocument (document : KnowledgeDocument) (stores : Stores Scalar) : Ingesting Scalar :=
  { stores with documents := stores.documents ++ [document], document, dims := none }

def ingest (stores : Stores Scalar) : Except IngestError KnowledgeDocument × Stores Scalar :=
  let text := cleanText deps.normalizer request.content
  if text.length < 20 then
    (.error (.app tooLittleText), stores)
  else if stores.documents.any (isSame request.ownerId (deps.sha256 text)) then
    (.error (.app duplicateDocument), stores)
  else
    match attempt deps request world text
      (createDocument (newDocument deps request world text) stores) with
    | (.ok saved, ingesting) => (.ok saved, ingesting.toStores)
    | (.error message, ingesting) =>
        (.error (.step message), (cleanUp deps message ingesting).toStores)

end Call

end WorkflowEngine.Rag
