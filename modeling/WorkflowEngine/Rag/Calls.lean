import WorkflowEngine.Rag.Ingestion
import WorkflowEngine.Rag.Service

/-!
# Calls on their own

What a call does that nothing interrupts is a run of the knowledge base; `ingest` is such a
call.
-/

open Text

namespace WorkflowEngine.Rag

variable {Scalar : Type} {retriever : Retriever Scalar} {base : KnowledgeBase Scalar} {id : ℕ}

/-! ## Runs of one call -/

/-- The next operation of a call, which may fail. -/
def IngestCall.Step (before after : Stores Scalar × IngestCall Scalar) : Prop :=
  before.2.advance before.1 = some after ∨
    ∃ message part, before.2.fail before.1 message part = some after

/-- Operations of a call that nothing comes between. -/
abbrev IngestCall.Runs (before after : Stores Scalar × IngestCall Scalar) : Prop :=
  Relation.ReflTransGen IngestCall.Step before after

theorem KnowledgeBase.after_after (base : KnowledgeBase Scalar) (id : ℕ)
    (between after : Stores Scalar × KnowledgeCall Scalar) :
    (base.after id between).after id after = base.after id after := by
  simp only [KnowledgeBase.after, Function.update_idem]

theorem KnowledgeBase.calls_after (base : KnowledgeBase Scalar) (id : ℕ)
    (after : Stores Scalar × KnowledgeCall Scalar) :
    (base.after id after).calls id = some after.2 :=
  Function.update_self ..

theorem KnowledgeBase.calls_after_of_ne (base : KnowledgeBase Scalar) {id other : ℕ}
    (apart : other ≠ id) (after : Stores Scalar × KnowledgeCall Scalar) :
    (base.after id after).calls other = base.calls other :=
  Function.update_of_ne apart ..

theorem KnowledgeBase.step_advance {running : KnowledgeCall Scalar}
    (begun : base.calls id = some running) :
    (knowledgeSystem retriever).step base (.advance id) =
      (running.advance base.toStores).map (base.after id) := by
  change (base.calls id).bind _ = _
  rw [begun, Option.bind_some]

theorem KnowledgeBase.step_fail {running : KnowledgeCall Scalar}
    (begun : base.calls id = some running) (message : String) (part : Part Scalar) :
    (knowledgeSystem retriever).step base (.fail id message part) =
      (running.fail base.toStores message part).map (base.after id) := by
  change (base.calls id).bind _ = _
  rw [begun, Option.bind_some]

/-- What a call does on its own, the knowledge base can do. -/
theorem IngestCall.Runs.leads {call : IngestCall Scalar}
    {after : Stores Scalar × IngestCall Scalar} (begun : base.calls id = some (.ingest call))
    (runs : Runs (base.toStores, call) after) :
    (knowledgeSystem retriever).Leads base (base.after id (after.1, .ingest after.2)) := by
  induction runs with
  | refl =>
      have same : base.after id (base.toStores, .ingest call) = base := by
        rw [KnowledgeBase.after, ← begun, Function.update_eq_self]
      rw [same]
      exact .refl
  | @tail before after _ taken ih =>
      have running := base.calls_after id (before.1, .ingest before.2)
      refine ih.tail ?_
      rcases taken with advanced | ⟨message, part, failed⟩
      · refine ⟨.advance id, ?_⟩
        rw [KnowledgeBase.step_advance running, KnowledgeCall.advance]
        change Option.map _ (Option.map _ (before.2.advance before.1)) = _
        rw [advanced, Option.map_some, Option.map_some, KnowledgeBase.after_after]
      · refine ⟨.fail id message part, ?_⟩
        rw [KnowledgeBase.step_fail running, KnowledgeCall.fail]
        change Option.map _ (Option.map _ (before.2.fail before.1 message part)) = _
        rw [failed, Option.map_some, Option.map_some, KnowledgeBase.after_after]

/-! ## A call that nothing interrupts -/

section Ingest

variable (deps : IngestDeps Scalar) (request : IngestRequest) (world : IngestWorld Scalar)

/-- The request with its text cleaned, hashed and split. -/
def IngestRequest.upload (text : Text) : Upload where
  id := world.id
  ownerId := request.ownerId
  title := request.title
  mimeType := request.mimeType
  contentHash := deps.sha256 text
  pieces := deps.splitter.splitText text
  randomUUID := world.randomUUID

variable {deps request world}

/-- The vectors of the pieces make the points of the upload. -/
theorem newPoints_eq (text : Text) :
    newPoints deps request world deps.embedder.dims
        (newChunks deps request world (deps.splitter.splitText text))
        ((deps.splitter.splitText text).map deps.embedder.embed) =
      (request.upload deps world text).points deps.embedder := by
  apply List.ext_getElem
  · simp [newPoints, newChunks, Upload.points, Upload.chunks, IngestRequest.upload]
  · intro index _ _
    simp [newPoints, newChunks, Upload.points, Upload.chunks, IngestRequest.upload]

/-- The call of the knowledge base with the same row and dimension. -/
def Ingesting.call (embedder : Embedder Scalar) (upload : Upload) (message : String)
    (stage : IngestStage) (ingesting : Ingesting Scalar) : IngestCall Scalar :=
  { embedder, upload
    document := ingesting.document
    dims := ingesting.dims
    message, stage }

/-- The call gets through its `try` block, or to the clean-up. -/
def Attempts (embedder : Embedder Scalar) (upload : Upload)
    (before : Stores Scalar × IngestCall Scalar) :
    Except String KnowledgeDocument × Ingesting Scalar → Prop
  | (.ok saved, ingesting) =>
      saved = ingesting.document ∧ ∃ message, IngestCall.Runs before
        (ingesting.toStores, ingesting.call embedder upload message .returned)
  | (.error message, ingesting) =>
      IngestCall.Runs before
        (ingesting.toStores, ingesting.call embedder upload message .cleaningChunks)

theorem Attempts.head {embedder : Embedder Scalar} {upload : Upload}
    {before between : Stores Scalar × IngestCall Scalar}
    {attempted : Except String KnowledgeDocument × Ingesting Scalar}
    (first : IngestCall.Step before between)
    (rest : Attempts embedder upload between attempted) :
    Attempts embedder upload before attempted := by
  rcases attempted with ⟨_ | saved, ingesting⟩
  · exact Relation.ReflTransGen.head first rest
  · rcases rest with ⟨same, message, runs⟩
    exact ⟨same, message, Relation.ReflTransGen.head first runs⟩

variable {text : Text} {ingesting : Ingesting Scalar} {message : String}

/-- The `catch` block ends the call. -/
theorem cleanUp_runs (upload : Upload) (message : String) (ingesting : Ingesting Scalar) :
    IngestCall.Runs
      (ingesting.toStores, ingesting.call deps.embedder upload message .cleaningChunks)
      ((cleanUp deps message ingesting).toStores,
        (cleanUp deps message ingesting).call deps.embedder upload message .threw) := by
  rcases ingesting with ⟨stores, document, dims⟩
  refine .head (.inl rfl) ?_
  cases dims with
  | none => exact .single (.inl rfl)
  | some dims =>
      cases dims with
      | zero => exact .single (.inl rfl)
      | succ dims => exact .head (.inl rfl) (.single (.inl rfl))

theorem saveReady_attempts {upload : Upload} (known : ingesting.dims = some deps.embedder.dims)
    (row : ∃ row ∈ ingesting.documents, row.id = ingesting.document.id) :
    Attempts deps.embedder upload
      (ingesting.toStores, ingesting.call deps.embedder upload message .saving)
      (saveReady world upload.pieces.length deps.embedder.dims ingesting) := by
  rcases ingesting with ⟨stores, document, dims⟩
  cases known
  rw [saveReady]
  cases world.saving with
  | none =>
      refine ⟨rfl, message, .single (.inl ?_)⟩
      have present : stores.documents.any (fun other => other.id == document.id) = true := by
        rcases row with ⟨row, membership, isRow⟩
        exact List.any_eq_true.mpr ⟨row, membership, beq_iff_eq.mpr isRow⟩
      exact if_pos present
  | some failure =>
      refine .single (.inr ⟨failure.2, ⟨failure.1, fun _ => true, fun _ => true⟩, ?_⟩)
      cases failure.1 with
      | true => rfl
      | false => rfl

theorem upsertPoints_attempts (known : ingesting.dims = some deps.embedder.dims)
    (row : ∃ row ∈ ingesting.documents, row.id = ingesting.document.id) :
    Attempts deps.embedder (request.upload deps world text)
      (ingesting.toStores,
        ingesting.call deps.embedder (request.upload deps world text) message .upserting)
      (upsertPoints deps request world deps.embedder.dims
        (newChunks deps request world (deps.splitter.splitText text))
        ((deps.splitter.splitText text).map deps.embedder.embed) ingesting) := by
  have pieces : (newChunks deps request world (deps.splitter.splitText text)).length =
      (request.upload deps world text).pieces.length := List.length_mapIdx
  rw [upsertPoints, newPoints_eq, pieces]
  cases world.upserting with
  | none =>
      have advanced : IngestCall.advance ingesting.toStores
          (ingesting.call deps.embedder (request.upload deps world text) message .upserting) =
            some ({ ingesting.toStores with
                points := upsert ingesting.points
                  ((request.upload deps world text).points deps.embedder) },
              ingesting.call deps.embedder (request.upload deps world text) message .saving) := by
        simp only [IngestCall.advance, IngestCall.upsertPoints, List.filter_true]
        rfl
      dsimp only
      exact .head (.inl advanced) (saveReady_attempts known row)
  | some failure =>
      exact .single (.inr ⟨failure.2, ⟨true, fun _ => true, failure.1⟩, rfl⟩)

theorem insertChunks_attempts (known : ingesting.dims = some deps.embedder.dims)
    (row : ∃ row ∈ ingesting.documents, row.id = ingesting.document.id) :
    Attempts deps.embedder (request.upload deps world text)
      (ingesting.toStores,
        ingesting.call deps.embedder (request.upload deps world text) message .inserting)
      (insertChunks deps request world deps.embedder.dims (deps.splitter.splitText text)
        ((deps.splitter.splitText text).map deps.embedder.embed) ingesting) := by
  rw [insertChunks]
  cases world.inserting with
  | none =>
      have advanced : IngestCall.advance ingesting.toStores
          (ingesting.call deps.embedder (request.upload deps world text) message .inserting) =
            some ({ ingesting.toStores with
                chunks := ingesting.chunks ++
                  newChunks deps request world (deps.splitter.splitText text) },
              ingesting.call deps.embedder (request.upload deps world text) message
                .upserting) := by
        simp only [IngestCall.advance, IngestCall.insertChunks, List.filter_true]
        rfl
      dsimp only
      exact .head (.inl advanced) (upsertPoints_attempts known row)
  | some failure =>
      exact .single (.inr ⟨failure.2, ⟨true, failure.1, fun _ => true⟩, rfl⟩)

theorem attempt_attempts (row : ∃ row ∈ ingesting.documents, row.id = ingesting.document.id) :
    Attempts deps.embedder (request.upload deps world text)
      (ingesting.toStores,
        ingesting.call deps.embedder (request.upload deps world text) message .embedding)
      (attempt deps request world text ingesting) := by
  have fails : ∀ thrown, Attempts deps.embedder (request.upload deps world text)
      (ingesting.toStores,
        ingesting.call deps.embedder (request.upload deps world text) message .embedding)
      (.error thrown, ingesting) := fun thrown =>
    .single (.inr ⟨thrown, ⟨true, fun _ => true, fun _ => true⟩, rfl⟩)
  rw [attempt]
  cases world.chunking with
  | some thrown => exact fails thrown
  | none =>
      dsimp only
      cases embedded : embedAll deps.embedder world.embedding 0 (deps.splitter.splitText text) with
      | error thrown => exact fails thrown
      | ok vectors =>
          have isEmbedded := embedAll_eq_ok embedded
          cases vectors with
          | nil => exact fails _
          | cons first others =>
              have pieces : deps.splitter.splitText text ≠ [] := by
                intro none
                rw [none] at isEmbedded
                cases isEmbedded
              dsimp only
              rw [length_of_embedAll embedded List.mem_cons_self, isEmbedded]
              exact .head (.inl (if_neg pieces)) (insertChunks_attempts rfl row)

/-- How a call has ended. -/
def IngestCall.Answers (call : IngestCall Scalar) :
    Except IngestError KnowledgeDocument → Prop
  | .ok document => call.stage = .returned ∧ call.document = document
  | .error (.step message) => call.stage = .threw ∧ call.message = message
  | .error (.app _) => call.stage = .threw

/-- `ingest` does what a call of the knowledge base does that nothing interrupts. -/
theorem ingest_leads
    (long : ¬ (cleanText deps.normalizer request.content).length < 20)
    (begun : base.calls id = some (.ingest (.start deps.embedder
      (request.upload deps world (cleanText deps.normalizer request.content))))) :
    ∃ ended : IngestCall Scalar,
      (knowledgeSystem retriever).Leads base
        (base.after id ((ingest deps request world base.toStores).2, .ingest ended)) ∧
      ended.Answers (ingest deps request world base.toStores).1 := by
  rw [ingest, if_neg long]
  split
  · next duplicate =>
    exact ⟨_, IngestCall.Runs.leads begun (.single (.inl (if_pos duplicate))), rfl⟩
  · next created =>
    let text := cleanText deps.normalizer request.content
    let ingesting := createDocument (newDocument deps request world text) base.toStores
    have row : ∃ row ∈ ingesting.documents, row.id = ingesting.document.id :=
      ⟨_, List.mem_append_right _ List.mem_cons_self, rfl⟩
    have attempts : Attempts deps.embedder (request.upload deps world text)
        (base.toStores, .start deps.embedder (request.upload deps world text))
        (attempt deps request world text ingesting) :=
      .head (.inl (if_neg created)) (attempt_attempts row)
    split
    · next saved after returned =>
      rw [returned] at attempts
      rcases attempts with ⟨same, message, runs⟩
      exact ⟨_, IngestCall.Runs.leads begun runs, rfl, same.symm⟩
    · next message after threw =>
      rw [threw] at attempts
      have ends := Relation.ReflTransGen.trans attempts (cleanUp_runs _ message after)
      exact ⟨_, IngestCall.Runs.leads begun ends, rfl, rfl⟩

end Ingest

end WorkflowEngine.Rag
