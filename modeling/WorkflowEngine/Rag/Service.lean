import WorkflowEngine.Ai.Agent.Loop
import WorkflowEngine.Rag.VectorStore
import WorkflowEngine.Services.Access

/-!
# The knowledge base

Any number of calls ingest and delete documents at the same time, while questions are
answered from what is in the vector store.  Every operation on a store is one step and may
fail after part of its work; a process that has stopped takes no more steps.
-/

open Text

namespace WorkflowEngine.Rag

variable {Scalar : Type}

/-! ## Ingestion -/

/-- What a call of `ingest` does next. -/
inductive IngestStage where
  | creating
  /-- about to split the text and embed its pieces -/
  | embedding
  | inserting
  | upserting
  | saving
  | cleaningChunks
  | cleaningVectors
  | savingFailed
  | returned
  | threw
  deriving DecidableEq, Repr

structure IngestCall (Scalar : Type) where
  embedder : Embedder Scalar
  upload : Upload
  /-- the row as the call holds it -/
  document : KnowledgeDocument
  dims : Option ℕ
  /-- of the error that was caught -/
  message : String
  stage : IngestStage

/-- How much of its work an operation has done that fails. -/
structure Part (Scalar : Type) where
  row : Bool
  chunk : KnowledgeChunk → Bool
  point : Point Scalar → Bool

/-- The row of this document of the owner. -/
def duplicates (stores : Stores Scalar) (document : KnowledgeDocument) : Bool :=
  stores.documents.any fun other =>
    other.ownerId == document.ownerId && other.contentHash == document.contentHash

def deleteChunks (chunks : List KnowledgeChunk) (documentId : ObjectId) : List KnowledgeChunk :=
  chunks.filter fun chunk => chunk.documentId != documentId

namespace IngestCall

def start (embedder : Embedder Scalar) (upload : Upload) : IngestCall Scalar :=
  { embedder, upload
    document := upload.document embedder.model
    dims := none
    message := ""
    stage := .creating }

def caught (message : String) (call : IngestCall Scalar) : IngestCall Scalar :=
  { call with message, stage := .cleaningChunks }

/-- The row that is saved when everything is stored. -/
def ready (call : IngestCall Scalar) : KnowledgeDocument :=
  { call.document with
    status := .ready
    chunkCount := call.upload.pieces.length
    vectorDims := call.dims }

/-- The row that is saved after the clean-up. -/
def failed (call : IngestCall Scalar) : KnowledgeDocument :=
  { call.document with
    status := .failed
    error := some (decode ((encode call.message).take 500)) }

/-- `if (dims)` -/
def cleanVectors (call : IngestCall Scalar) : IngestCall Scalar :=
  { call with stage := if call.dims.any (· ≠ 0) then .cleaningVectors else .savingFailed }

/-- `doc.save()` -/
def save (stores : Stores Scalar) (document : KnowledgeDocument) : Stores Scalar :=
  { stores with documents := updateRow stores.documents document.id fun _ => document }

def create (stores : Stores Scalar) (call : IngestCall Scalar) : Stores Scalar :=
  { stores with documents := stores.documents ++ [call.document] }

def insertChunks (stores : Stores Scalar) (call : IngestCall Scalar)
    (inserted : KnowledgeChunk → Bool) : Stores Scalar :=
  { stores with
    chunks := stores.chunks ++ (call.upload.chunks call.embedder.model).filter inserted }

def upsertPoints (stores : Stores Scalar) (call : IngestCall Scalar)
    (written : Point Scalar → Bool) : Stores Scalar :=
  { stores with
    points := upsert stores.points ((call.upload.points call.embedder).filter written) }

/-- The next step, if it succeeds. -/
def advance (stores : Stores Scalar) (call : IngestCall Scalar) :
    Option (Stores Scalar × IngestCall Scalar) :=
  match call.stage with
  | .creating =>
      if duplicates stores call.document then some (stores, { call with stage := .threw })
      else some (create stores call, { call with stage := .embedding })
  | .embedding =>
      -- Without a piece there is no first vector to take the dimension of.
      if call.upload.pieces = [] then
        some (stores, call.caught "Cannot read properties of undefined (reading 'length')")
      else
        some (stores, { call with dims := some call.embedder.dims, stage := .inserting })
  | .inserting =>
      some (insertChunks stores call fun _ => true, { call with stage := .upserting })
  | .upserting =>
      some (upsertPoints stores call fun _ => true, { call with stage := .saving })
  | .saving =>
      let call := { call with document := call.ready }
      if stores.documents.any fun document => document.id == call.document.id then
        some (save stores call.document, { call with stage := .returned })
      else
        -- saving a row that is gone throws
        some (stores, call.caught "No document found for query")
  | .cleaningChunks =>
      some ({ stores with chunks := deleteChunks stores.chunks call.document.id },
        call.cleanVectors)
  | .cleaningVectors =>
      some ({ stores with
          points := deleteByDocument stores.points call.embedder.model (call.dims.getD 0)
            call.document.id },
        { call with stage := .savingFailed })
  | .savingFailed =>
      some (save stores call.failed, { call with document := call.failed, stage := .threw })
  | .returned | .threw => none

/-- The next step fails, after part of its work. -/
def fail (stores : Stores Scalar) (message : String) (part : Part Scalar)
    (call : IngestCall Scalar) : Option (Stores Scalar × IngestCall Scalar) :=
  match call.stage with
  | .creating =>
      some (if part.row && !duplicates stores call.document then create stores call else stores,
        { call with stage := .threw })
  | .embedding => some (stores, call.caught message)
  | .inserting => some (insertChunks stores call part.chunk, call.caught message)
  | .upserting => some (upsertPoints stores call part.point, call.caught message)
  | .saving =>
      let call := { call with document := call.ready }
      some (if part.row then save stores call.document else stores, call.caught message)
  -- errors of the clean-up are dropped
  | .cleaningChunks =>
      some ({ stores with
          chunks := stores.chunks.filter fun chunk =>
            !(chunk.documentId == call.document.id && part.chunk chunk) },
        call.cleanVectors)
  | .cleaningVectors =>
      some ({ stores with
          points := stores.points.filter fun point =>
            !(point.collection == collectionName call.embedder.model (call.dims.getD 0) &&
              point.documentId == call.document.id && part.point point) },
        { call with stage := .savingFailed })
  | .savingFailed =>
      some (if part.row then save stores call.failed else stores,
        { call with document := call.failed, stage := .threw })
  | .returned | .threw => none

end IngestCall

/-! ## Deletion -/

/-- What a call of `deleteDocument` does next, with the row that it has read. -/
inductive DeleteStage where
  | reading
  | deletingVectors (document : KnowledgeDocument)
  | deletingChunks (document : KnowledgeDocument)
  | deletingRow (document : KnowledgeDocument)
  | returned (document : KnowledgeDocument)
  | notFound
  | threw (document : Option KnowledgeDocument)
  deriving DecidableEq, Repr

def DeleteStage.document? : DeleteStage → Option KnowledgeDocument
  | .deletingVectors document | .deletingChunks document | .deletingRow document
  | .returned document => some document
  | .threw document => document
  | .reading | .notFound => none

structure DeleteCall where
  user : User
  documentId : ObjectId
  stage : DeleteStage
  deriving DecidableEq, Repr

namespace DeleteCall

/-- `findOne({ _id: documentId, ...ownerScopeFilter })` -/
def find (documents : List KnowledgeDocument) (call : DeleteCall) : Option KnowledgeDocument :=
  documents.find? fun document =>
    document.id == call.documentId && inScope (ownerScope call.user) document.ownerId

/-- The next step, if it succeeds. -/
def advance (stores : Stores Scalar) (call : DeleteCall) : Option (Stores Scalar × DeleteCall) :=
  match call.stage with
  | .reading =>
      match call.find stores.documents with
      | none => some (stores, { call with stage := .notFound })
      | some document =>
          some (stores, { call with
            stage :=
              if hasVectors document then .deletingVectors document
              else .deletingChunks document })
  | .deletingVectors document =>
      some ({ stores with
          points := deleteByDocument stores.points document.embeddingModel
            (document.vectorDims.getD 0) document.id },
        { call with stage := .deletingChunks document })
  | .deletingChunks document =>
      some ({ stores with chunks := deleteChunks stores.chunks document.id },
        { call with stage := .deletingRow document })
  | .deletingRow document =>
      some ({ stores with documents := stores.documents.filter fun other => other.id != document.id },
        { call with stage := .returned document })
  | .returned _ | .notFound | .threw _ => none

/-- The next step fails, after part of its work. -/
def fail (stores : Stores Scalar) (part : Part Scalar) (call : DeleteCall) :
    Option (Stores Scalar × DeleteCall) :=
  match call.stage with
  | .reading => some (stores, { call with stage := .threw none })
  | .deletingVectors document =>
      some ({ stores with
          points := stores.points.filter fun point =>
            !(point.collection == collectionName document.embeddingModel
                (document.vectorDims.getD 0) &&
              point.documentId == document.id && part.point point) },
        { call with stage := .threw (some document) })
  | .deletingChunks document =>
      some ({ stores with
          chunks := stores.chunks.filter fun chunk =>
            !(chunk.documentId == document.id && part.chunk chunk) },
        { call with stage := .threw (some document) })
  | .deletingRow document =>
      some ({ stores with
          documents := stores.documents.filter fun other =>
            !(other.id == document.id && part.row) },
        { call with stage := .threw (some document) })
  | .returned _ | .notFound | .threw _ => none

end DeleteCall

/-! ## Retrieval -/

/-- How the pipeline searches. -/
structure Retriever (Scalar : Type) where
  qdrant : Qdrant Scalar
  /-- similarity, rounded to four digits -/
  score : List Scalar → Point Scalar → Scalar
  topK : ℕ
  minScore : Scalar

/-- A chunk that was found. -/
structure Hit (Scalar : Type) where
  pointId : ℕ
  score : Scalar
  documentId : ObjectId
  title : String
  chunkIndex : ℕ
  text : String

/-- The chunks nearest to a question, of one owner's documents. -/
def retrieve (retriever : Retriever Scalar) (embedder : Embedder Scalar)
    (points : List (Point Scalar)) (ownerId : UserId) (query : String) (topK : ℕ) :
    List (Hit Scalar) :=
  let vector := embedder.embed query
  let owned := points.filter fun point =>
    point.collection == collectionName embedder.model vector.length && point.ownerId == ownerId
  (retriever.qdrant.nearest owned vector topK retriever.minScore).map fun point =>
    { pointId := point.id
      score := retriever.score vector point
      documentId := point.documentId
      title := point.title
      chunkIndex := point.chunkIndex
      text := point.text }

/-! ## Answers -/

/-- `NO_ANSWER` -/
def noAnswer : Text :=
  ofString "I don't have enough information in the knowledge base to answer that."

/-- `RAG_PROMPT_VERSION` -/
def ragPromptVersion : String := "rag-answer.v2"

def sourceId (index : ℕ) : Text := ofString "S" ++ decimal (index + 1)

def sourceIds (hits : List (Hit Scalar)) : List Text := hits.mapIdx fun index _ => sourceId index

def Hit.source (index : ℕ) (hit : Hit Scalar) : Text :=
  ofString "[" ++ sourceId index ++ ofString "] " ++ encode hit.title ++ ofString " (chunk " ++
    decimal hit.chunkIndex ++ ofString ")\n" ++ encode hit.text

def sources (hits : List (Hit Scalar)) : Text := join "\n\n" (hits.mapIdx Hit.source)

def ragSystem : Text :=
  ofString (
    "Answer the question using ONLY the numbered sources in <document>. " ++
    "When a source contains the answer: write the answer, set grounded to true, and list the source ids you used in citations (e.g. [\"S1\"]). " ++
    "Only if NO source contains the answer: set grounded to false, citations to [], and answer exactly: \"") ++
    noAnswer ++ ofString "\""

def ragPrompt (hits : List (Hit Scalar)) (question : String) : Text :=
  wrapUntrusted (ofString "document") (sources hits) ++ ofString "\n\nQuestion:\n" ++
    wrapUntrusted (ofString "user_input") (encode question)

/-- What the model replies. -/
structure RagReply where
  answer : Text
  citations : List Text
  grounded : Bool
  deriving DecidableEq

/-- `z.array(z.enum(ids)).max(ids.length)` -/
def citationsOf (ids : List Text) : Option Json → Option (List Text)
  | some (.array items) =>
      if items.length ≤ ids.length then items.mapM fun item => toolOf ids (some item) else none
  | _ => none

/-- `z.boolean()` -/
def booleanOf : Option Json → Option Bool
  | some (.bool value) => some value
  | _ => none

def replyOf (ids : List Text) : Json → Option RagReply
  | .object entries => do
      let answer ← answerOf (entries.lookup (ofString "answer"))
      let citations ← citationsOf ids (entries.lookup (ofString "citations"))
      let grounded ← booleanOf (entries.lookup (ofString "grounded"))
      return { answer, citations, grounded }
  | _ => none

structure Citation (Scalar : Type) where
  id : Text
  documentId : ObjectId
  title : String
  chunkIndex : ℕ
  score : Scalar

structure RagAnswer (Scalar : Type) where
  answer : Text
  citations : List (Citation Scalar)
  grounded : Bool
  retrieved : ℕ
  usage : Usage
  model : Option Text
  promptVersion : String

/-- What is asked, and what the provider does then. -/
structure Question (Scalar : Type) where
  embedder : Embedder Scalar
  ownerId : UserId
  question : String
  model : Text
  world : World
  /-- the complaints about a reply -/
  replyIssues : Json → List Issue
  /-- the schema of the replies as printed JSON, given the ids of the sources -/
  replySchema : List Text → Text

def Question.schema (asked : Question Scalar) (ids : List Text) (value : Json) :
    Except (List Issue) RagReply :=
  match replyOf ids value with
  | some reply => .ok reply
  | none => .error (asked.replyIssues value)

/-- The sources that a reply cites, each once. -/
def cited (hits : List (Hit Scalar)) (citations : List Text) : List (Citation Scalar) :=
  citations.eraseDups.filterMap fun id =>
    (hits[(sourceIds hits).idxOf id]?).map fun hit =>
      { id
        documentId := hit.documentId
        title := hit.title
        chunkIndex := hit.chunkIndex
        score := hit.score }

/-- The answer from what was retrieved, and the calls to the provider. -/
def answer (asked : Question Scalar) (hits : List (Hit Scalar)) :
    Except AgentError (RagAnswer Scalar) × Trace :=
  if hits = [] then
    (.ok
      { answer := noAnswer
        citations := []
        grounded := false
        retrieved := 0
        usage := .zero
        model := none
        promptVersion := ragPromptVersion }, [])
  else
    let ids := sourceIds hits
    match generateStructured asked.world (asked.schema ids) (asked.replySchema ids) asked.model
        ragSystem (ragPrompt hits asked.question) [] with
    | (.error error, trace) => (.error error, trace)
    | (.ok (reply, usage), trace) =>
        let cited := cited hits reply.citations
        let grounded := reply.grounded && !cited.isEmpty
        (.ok
          { answer := if grounded then reply.answer else noAnswer
            citations := if grounded then cited else []
            grounded
            retrieved := hits.length
            usage
            model := some asked.model
            promptVersion := ragPromptVersion }, trace)

/-! ## All calls -/

inductive KnowledgeCall (Scalar : Type) where
  | ingest (call : IngestCall Scalar)
  | delete (call : DeleteCall)

namespace KnowledgeCall

def advance (stores : Stores Scalar) : KnowledgeCall Scalar →
    Option (Stores Scalar × KnowledgeCall Scalar)
  | .ingest call => (call.advance stores).map fun after => (after.1, .ingest after.2)
  | .delete call => (call.advance stores).map fun after => (after.1, .delete after.2)

def fail (stores : Stores Scalar) (message : String) (part : Part Scalar) :
    KnowledgeCall Scalar → Option (Stores Scalar × KnowledgeCall Scalar)
  | .ingest call => (call.fail stores message part).map fun after => (after.1, .ingest after.2)
  | .delete call => (call.fail stores part).map fun after => (after.1, .delete after.2)

end KnowledgeCall

/-- An answered question. -/
structure Asked (Scalar : Type) where
  question : Question Scalar
  hits : List (Hit Scalar)
  result : Except AgentError (RagAnswer Scalar)
  trace : Trace

structure KnowledgeBase (Scalar : Type) extends Stores Scalar where
  calls : ℕ → Option (KnowledgeCall Scalar)
  /-- newest first; only the generation of ids looks at them -/
  uploads : List Upload
  /-- newest first; nothing reads them -/
  asked : List (Asked Scalar)

def Upload.pointIds (upload : Upload) : List ℕ :=
  (List.range upload.pieces.length).map upload.randomUUID

/-- Generated ids are new. -/
def Upload.drawsFresh (upload : Upload) (uploads : List Upload) : Bool :=
  !(uploads.any fun other => other.id == upload.id) && decide upload.pointIds.Nodup &&
    upload.pointIds.all fun id => !(uploads.any fun other => other.pointIds.contains id)

namespace KnowledgeBase

inductive Action (Scalar : Type) where
  | ingest (call : ℕ) (embedder : Embedder Scalar) (upload : Upload)
  | delete (call : ℕ) (user : User) (documentId : ObjectId)
  /-- a call performs its next operation -/
  | advance (call : ℕ)
  | fail (call : ℕ) (message : String) (part : Part Scalar)
  | ask (question : Question Scalar)

def begin (base : KnowledgeBase Scalar) (call : ℕ) (begun : KnowledgeCall Scalar) :
    Option (KnowledgeBase Scalar) :=
  match base.calls call with
  | none => some { base with calls := Function.update base.calls call (some begun) }
  | some _ => none

/-- A call has changed the stores. -/
def after (base : KnowledgeBase Scalar) (call : ℕ)
    (changed : Stores Scalar × KnowledgeCall Scalar) : KnowledgeBase Scalar :=
  { base with
    toStores := changed.1
    calls := Function.update base.calls call (some changed.2) }

def step (retriever : Retriever Scalar) (base : KnowledgeBase Scalar) :
    Action Scalar → Option (KnowledgeBase Scalar)
  | .ingest call embedder upload =>
      if upload.drawsFresh base.uploads then
        { base with uploads := upload :: base.uploads }.begin call
          (.ingest (.start embedder upload))
      else none
  | .delete call user documentId => base.begin call (.delete ⟨user, documentId, .reading⟩)
  | .advance call =>
      (base.calls call).bind fun running => (running.advance base.toStores).map (base.after call)
  | .fail call message part =>
      (base.calls call).bind fun running =>
        (running.fail base.toStores message part).map (base.after call)
  | .ask question =>
      let hits := retrieve retriever question.embedder base.points question.ownerId
        question.question retriever.topK
      let answered := answer question hits
      some { base with asked := ⟨question, hits, answered.1, answered.2⟩ :: base.asked }

end KnowledgeBase

/-- The pipeline on empty stores. -/
def knowledgeSystem (retriever : Retriever Scalar) :
    Transition.System (KnowledgeBase Scalar) (KnowledgeBase.Action Scalar) where
  init :=
    { documents := [], chunks := [], points := [], calls := fun _ => none, uploads := [], asked := [] }
  step := KnowledgeBase.step retriever

namespace Schedule

theorem oldest_subset (points : List (Point Int)) (_ : List Int) (topK : ℕ) (_ : Int) :
    points.take topK ⊆ points :=
  List.take_subset topK points

/-- A service that ranks points by the order in which they were upserted. -/
def inOrder : Retriever Int where
  qdrant :=
    { accepts := fun _ _ => true
      nearest := fun points _ topK _ => points.take topK
      subset_nearest := oldest_subset }
  score _ _ := 1
  topK := 4
  minScore := 0

/-- The knowledge base after a schedule. -/
def baseAfter (actions : List (KnowledgeBase.Action Int))
    (runs : ((knowledgeSystem inOrder).run actions).isSome = true) : KnowledgeBase Int :=
  ((knowledgeSystem inOrder).run actions).get runs

theorem baseAfter_reachable (actions : List (KnowledgeBase.Action Int))
    (runs : ((knowledgeSystem inOrder).run actions).isSome = true) :
    (knowledgeSystem inOrder).Reachable (baseAfter actions runs) :=
  Transition.System.get_run_reachable _ actions runs

/-- The owner ingests a page. -/
def ingested : List (KnowledgeBase.Action Int) :=
  [.ingest 0 constant onePage, .advance 0, .advance 0, .advance 0, .advance 0, .advance 0]

/-- A question to a provider that is down. -/
def unanswered (ownerId : UserId) : Question Int where
  embedder := constant
  ownerId := ownerId
  question := "q"
  model := []
  world :=
    { chat := fun _ => .error none
      settle := fun _ => .pending
      aborted := fun _ => none
      stepIssues := fun _ => []
      stepSchema := fun _ => []
      syntaxError := fun _ => [] }
  replyIssues _ := []
  replySchema _ := []

end Schedule

end WorkflowEngine.Rag
