import WorkflowEngine.Rag.Ingestion

/-!
# After a failed ingestion

The clean-up removes the chunks and the vectors of the document, whatever the failed
step has left.  The row stays, FAILED, and recognises the content: a later upload of
it is refused until the row is deleted.
-/

open Text

namespace WorkflowEngine.Rag

variable {Scalar : Type} {deps : IngestDeps Scalar} {request : IngestRequest}
  {world retry : IngestWorld Scalar} {stores later : Stores Scalar} {text : Text}

/-! ## The vectors -/

theorem collection_of_mem_newPoints {dims : ℕ} {chunks : List KnowledgeChunk}
    {vectors : List (List Scalar)} {point : Point Scalar}
    (membership : point ∈ newPoints deps request world dims chunks vectors) :
    point.collection = collectionName deps.embedder.model dims := by
  rw [newPoints, List.mem_iff_getElem] at membership
  obtain ⟨index, inside, same⟩ := membership
  rw [List.getElem_zipWith] at same
  rw [← same]

/-! ## What is kept while the steps run -/

/-- The call has its row, and vectors only where it will look for them. -/
structure Started (deps : IngestDeps Scalar) (request : IngestRequest) (world : IngestWorld Scalar)
    (contentHash : String) (ingesting : Ingesting Scalar) : Prop where
  id : ingesting.document.id = world.id
  same : isSame request.ownerId contentHash ingesting.document = true
  row : ∃ row ∈ ingesting.documents, row.id = world.id
  vectors : ingesting.dims = none ∧ ingesting.Pointless world.id ∨
    ingesting.dims = some deps.embedder.dims ∧ ∀ point ∈ ingesting.points,
      point.documentId = world.id →
        point.collection = collectionName deps.embedder.model deps.embedder.dims

theorem exists_row_updateRow {documents : List KnowledgeDocument} {id : ObjectId}
    {document : KnowledgeDocument} (row : ∃ row ∈ documents, row.id = id) :
    document ∈ updateRow documents id fun _ => document := by
  obtain ⟨row, membership, isRow⟩ := row
  rw [updateRow, List.mem_map]
  exact ⟨row, membership, if_pos isRow⟩

namespace Started

variable {contentHash : String} {ingesting : Ingesting Scalar}

theorem save (started : Started deps request world contentHash ingesting) :
    Started deps request world contentHash (saveDocument ingesting) where
  id := started.id
  same := started.same
  row := by
    have row := started.row
    rw [← started.id] at row
    exact ⟨ingesting.document, exists_row_updateRow row, started.id⟩
  vectors := started.vectors

theorem saveReady (started : Started deps request world contentHash ingesting)
    (chunkCount dims : ℕ) :
    Started deps request world contentHash (saveReady world chunkCount dims ingesting).2 := by
  have ready : Started deps request world contentHash { ingesting with
      document := { ingesting.document with
        status := .ready, chunkCount, vectorDims := some dims } } :=
    { id := started.id, same := started.same, row := started.row, vectors := started.vectors }
  rw [Rag.saveReady]
  split
  · exact ready.save
  · split
    · exact ready.save
    · exact ready

/-- Points in the collection of the call may be upserted. -/
theorem upsert (started : Started deps request world contentHash ingesting)
    (known : ingesting.dims = some deps.embedder.dims) {points : List (Point Scalar)}
    (collected : ∀ point ∈ points,
      point.collection = collectionName deps.embedder.model deps.embedder.dims) :
    Started deps request world contentHash
      { ingesting with points := Rag.upsert ingesting.points points } where
  id := started.id
  same := started.same
  row := started.row
  vectors := by
    right
    refine ⟨known, ?_⟩
    intro point membership isDocument
    cases List.mem_append.mp membership with
    | inl old =>
        rcases started.vectors with ⟨unknown, _⟩ | ⟨_, collectedOld⟩
        · rw [known] at unknown
          cases unknown
        · exact collectedOld point (List.mem_filter.mp old).1 isDocument
    | inr new => exact collected point new

theorem upsertPoints (started : Started deps request world contentHash ingesting)
    (known : ingesting.dims = some deps.embedder.dims) (chunks : List KnowledgeChunk)
    (vectors : List (List Scalar)) :
    Started deps request world contentHash
      (upsertPoints deps request world deps.embedder.dims chunks vectors ingesting).2 := by
  rw [Rag.upsertPoints]
  split
  · apply Started.saveReady
    apply started.upsert known
    exact fun _ => collection_of_mem_newPoints
  · apply started.upsert known
    intro point membership
    exact collection_of_mem_newPoints (List.mem_filter.mp membership).1

theorem insertChunks (started : Started deps request world contentHash ingesting)
    (known : ingesting.dims = some deps.embedder.dims) (pieces : List String)
    (vectors : List (List Scalar)) :
    Started deps request world contentHash
      (insertChunks deps request world deps.embedder.dims pieces vectors ingesting).2 := by
  have inserted : ∀ chunks, Started deps request world contentHash
      { ingesting with chunks := ingesting.chunks ++ chunks } := fun chunks =>
    { id := started.id, same := started.same, row := started.row, vectors := started.vectors }
  rw [Rag.insertChunks]
  split
  · exact (inserted _).upsertPoints known _ _
  · exact inserted _

theorem attempt (started : Started deps request world contentHash ingesting) (text : Text) :
    Started deps request world contentHash (attempt deps request world text ingesting).2 := by
  rw [Rag.attempt]
  split
  · exact started
  · dsimp only
    split
    · exact started
    · exact started
    · next first others embedded =>
      have isDims : first.length = deps.embedder.dims :=
        length_of_embedAll embedded List.mem_cons_self
      have known : Started deps request world contentHash
          { ingesting with dims := some first.length } :=
        { id := started.id
          same := started.same
          row := started.row
          vectors := by
            right
            refine ⟨congrArg some isDims, ?_⟩
            intro point membership isDocument
            rcases started.vectors with ⟨_, pointless⟩ | ⟨_, collected⟩
            · exact absurd isDocument (pointless point membership)
            · exact collected point membership isDocument }
      rw [isDims] at known ⊢
      exact known.insertChunks rfl _ _

/-- The clean-up leaves the row and nothing else. -/
theorem cleanUp (started : Started deps request world contentHash ingesting) (message : String) :
    (cleanUp deps message ingesting).Chunkless world.id ∧
      (cleanUp deps message ingesting).Pointless world.id ∧
        ∃ row ∈ (cleanUp deps message ingesting).documents,
          row.status = .failed ∧ isSame request.ownerId contentHash row = true := by
  refine ⟨?_, ?_, ?_⟩
  · intro chunk membership isDocument
    have kept := (List.mem_filter.mp membership).2
    rw [started.id] at kept
    exact bne_iff_ne.mp kept isDocument
  · intro point membership isDocument
    rcases started.vectors with ⟨unknown, pointless⟩ | ⟨known, collected⟩
    · simp only [Rag.cleanUp, saveDocument, unknown] at membership
      exact pointless point membership isDocument
    · simp only [Rag.cleanUp, saveDocument, known] at membership
      split at membership
      · next same => cases same
      · next same =>
        have zero : deps.embedder.dims = 0 := Option.some.inj same
        have positive := deps.embedder.positive
        omega
      · next dims _ same =>
        cases same
        have kept := mem_deleteByDocument membership
        rw [started.id] at kept
        exact kept.2 (collected point kept.1 isDocument) isDocument
  · have row := started.row
    rw [← started.id] at row
    exact ⟨_, exists_row_updateRow row, rfl, started.same⟩

end Started

/-! ## The two calls -/

/-- Every external step of the call succeeds. -/
structure IngestWorld.Succeeds (world : IngestWorld Scalar) : Prop where
  chunking : world.chunking = none
  embedding : ∀ batch, world.embedding batch = none
  inserting : world.inserting = none
  upserting : world.upserting = none
  saving : world.saving = none

/-- Nothing recognises the content of the request. -/
def Unrecorded (deps : IngestDeps Scalar) (request : IngestRequest) (stores : Stores Scalar) :
    Prop :=
  ∀ document ∈ stores.documents, ¬ (document.ownerId = request.ownerId ∧
    document.contentHash = deps.sha256 (cleanText deps.normalizer request.content))

/-- The call returns a READY document. -/
def ReturnsReady (deps : IngestDeps Scalar) (request : IngestRequest) (world : IngestWorld Scalar)
    (stores : Stores Scalar) : Prop :=
  ∃ document, (ingest deps request world stores).1 = .ok document ∧ document.status = .ready

theorem any_isSame_iff :
    stores.documents.any (isSame request.ownerId
      (deps.sha256 (cleanText deps.normalizer request.content))) = false ↔
        Unrecorded deps request stores := by
  simp [isSame, Unrecorded]

/-- Where every step succeeds the attempt saves a READY row. -/
theorem attempt_of_succeeds (succeeds : world.Succeeds) (nonempty : text ≠ [])
    (ingesting : Ingesting Scalar) :
    ∃ document, (attempt deps request world text ingesting).1 = .ok document ∧
      document.status = .ready := by
  have embedded : embedAll deps.embedder world.embedding 0 (deps.splitter.splitText text) = _ :=
    embedAll_of_none succeeds.embedding 0 _
  obtain ⟨piece, others, pieces⟩ :=
    List.exists_cons_of_ne_nil (deps.splitter.nonempty text nonempty)
  rw [pieces] at embedded
  simp only [attempt, succeeds.chunking, pieces, embedded, List.map_cons, insertChunks,
    succeeds.inserting, upsertPoints, succeeds.upserting, saveReady, succeeds.saving]
  exact ⟨_, rfl, rfl⟩

theorem returnsReady_iff (succeeds : retry.Succeeds)
    (long : ¬ (cleanText deps.normalizer request.content).length < 20) :
    ReturnsReady deps request retry later ↔ Unrecorded deps request later := by
  rw [← any_isSame_iff, ReturnsReady, ingest, if_neg long]
  cases recorded : later.documents.any (isSame request.ownerId
      (deps.sha256 (cleanText deps.normalizer request.content))) with
  | true =>
      rw [if_pos rfl]
      apply iff_of_false
      · intro ready
        obtain ⟨document, returned, _⟩ := ready
        cases returned
      · exact Bool.noConfusion
  | false =>
      rw [if_neg Bool.false_ne_true]
      have nonempty : cleanText deps.normalizer request.content ≠ [] := by
        intro empty
        rw [empty] at long
        exact long (by decide)
      obtain ⟨document, saved, ready⟩ := attempt_of_succeeds succeeds nonempty
        (createDocument
          (newDocument deps request retry (cleanText deps.normalizer request.content)) later)
      apply iff_of_true _ rfl
      refine ⟨document, ?_, ready⟩
      split
      · next other _ returned =>
        rw [returned] at saved
        exact congrArg Except.ok (Except.ok.inj saved)
      · next message _ threw =>
        rw [threw] at saved
        cases saved

/-- The row is there once it is created. -/
theorem started_createDocument (fresh : stores.Fresh world.id) :
    Started deps request world (deps.sha256 text)
      (createDocument (newDocument deps request world text) stores) := by
  exact
    { id := rfl
      same := by simp [isSame, createDocument, newDocument]
      row := ⟨_, List.mem_append_right _ List.mem_cons_self, rfl⟩
      vectors := .inl ⟨rfl, fresh.points⟩ }

/-- What the stores are after a failed call. -/
theorem failed_ingest (fresh : stores.Fresh world.id) {message : String}
    (failed : (ingest deps request world stores).1 = .error (.step message)) :
    ¬ (cleanText deps.normalizer request.content).length < 20 ∧
      (ingest deps request world stores).2.Chunkless world.id ∧
      (ingest deps request world stores).2.Pointless world.id ∧
      ¬ Unrecorded deps request (ingest deps request world stores).2 := by
  simp only [ingest] at failed ⊢
  split at failed
  · cases failed
  · next long =>
    rw [if_neg long]
    split at failed
    · cases failed
    · next unrecorded =>
      rw [if_neg unrecorded]
      split at failed
      · cases failed
      · next thrown ingesting threw =>
        have started : Started deps request world
            (deps.sha256 (cleanText deps.normalizer request.content)) (createDocument
              (newDocument deps request world (cleanText deps.normalizer request.content)) stores) :=
          started_createDocument fresh
        have kept := started.attempt (cleanText deps.normalizer request.content)
        rw [threw] at kept
        obtain ⟨chunkless, pointless, row, membership, _, same⟩ := kept.cleanUp thrown
        refine ⟨long, chunkless, pointless, ?_⟩
        intro unrecorded
        rw [isSame, Bool.and_eq_true, beq_iff_eq, beq_iff_eq] at same
        exact unrecorded row membership same

/-- A failed call leaves no chunks and no vectors of its document, and a later call for
the same content by the same owner whose steps succeed returns a READY document exactly
when no row recognises the content any more, which the row of the failed call does until
it is deleted. -/
theorem failed_ingest_retried_iff (fresh : stores.Fresh world.id) {message : String}
    (failed : (ingest deps request world stores).1 = .error (.step message))
    (succeeds : retry.Succeeds) :
    ¬ Unrecorded deps request (ingest deps request world stores).2 ∧
      ((ingest deps request world stores).2.Chunkless world.id ∧
        (ingest deps request world stores).2.Pointless world.id ∧
          ReturnsReady deps request retry later ↔ Unrecorded deps request later) := by
  obtain ⟨long, chunkless, pointless, recorded⟩ := failed_ingest fresh failed
  refine ⟨recorded, ?_⟩
  rw [returnsReady_iff succeeds long]
  constructor
  · intro all
    exact all.2.2
  · intro unrecorded
    exact ⟨chunkless, pointless, unrecorded⟩

namespace Schedule

/-- The whole text is one piece; every step fails that is asked to. -/
def onePiece : IngestDeps Int where
  normalizer := unchanged
  sha256 text := decode text
  splitter :=
    { splitText := fun text => [decode text]
      nonempty := fun _ _ => List.cons_ne_nil _ _ }
  embedder := constant

def upload : IngestRequest where
  ownerId := 1
  title := "t"
  content := ofString "twenty letters or so"
  mimeType := "text/plain"

def allSucceed : IngestWorld Int where
  id := 8
  randomUUID := id
  chunking := none
  embedding _ := none
  inserting := none
  upserting := none
  saving := none

/-- The provider refuses the first batch. -/
def embeddingFails : IngestWorld Int :=
  { allSucceed with id := 7, embedding := fun _ => some "embedding model crashed" }

theorem allSucceed_succeeds : allSucceed.Succeeds := ⟨rfl, fun _ => rfl, rfl, rfl, rfl⟩

theorem embeddingFails_failed : (ingest onePiece upload embeddingFails noStores).1 =
    .error (.step "embedding model crashed") := by decide +kernel

end Schedule

open Schedule in
theorem failed_ingest_retried_embeddingFails :
    ReturnsReady onePiece upload allSucceed noStores ∧
      ¬ Unrecorded onePiece upload (ingest onePiece upload embeddingFails noStores).2 := by
  have fresh : noStores.Fresh embeddingFails.id :=
    ⟨List.forall_mem_nil _, List.forall_mem_nil _, List.forall_mem_nil _⟩
  have retried := @failed_ingest_retried_iff Int onePiece upload embeddingFails allSucceed noStores
    noStores fresh _ embeddingFails_failed allSucceed_succeeds
  exact ⟨(retried.2.mpr (List.forall_mem_nil _)).2.2, retried.1⟩

open Schedule in
/-- The retry is told that the document was already uploaded. -/
theorem retry_refused :
    (ingest onePiece upload embeddingFails noStores).1 =
        .error (.step "embedding model crashed") ∧
      (ingest onePiece upload allSucceed
        (ingest onePiece upload embeddingFails noStores).2).1 =
          .error (.app duplicateDocument) ∧
      ¬ ReturnsReady onePiece upload allSucceed
        (ingest onePiece upload embeddingFails noStores).2 := by
  have refused : (ingest onePiece upload allSucceed
      (ingest onePiece upload embeddingFails noStores).2).1 = .error (.app duplicateDocument) := by
    decide +kernel
  refine ⟨embeddingFails_failed, refused, ?_⟩
  intro ready
  obtain ⟨document, returned, _⟩ := ready
  rw [refused] at returned
  cases returned

end WorkflowEngine.Rag
