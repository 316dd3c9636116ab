import WorkflowEngine.Rag.Calls

/-!
# A call that ingests and one that deletes

Every interleaving of the two calls on one document is a run of the knowledge base.
-/

open Text

namespace WorkflowEngine.Rag

variable {Scalar : Type} {retriever : Retriever Scalar} {base : KnowledgeBase Scalar}

/-- Where the call is, among the places that `ingestStep` tells apart. -/
def IngestCall.place (call : IngestCall Scalar) : Ingest :=
  match call.stage with
  | .creating => .creating
  | .embedding | .inserting => .embedding
  | .upserting => .upserting
  | .saving => .saving
  | .cleaningChunks => .cleaningChunks call.dims
  | .cleaningVectors => .cleaningVectors (call.dims.getD 0)
  | .savingFailed => .savingFailed
  | .returned => .returned
  | .threw => .threw

def DeleteStage.place : DeleteStage → Delete
  | .reading => .reading
  | .deletingVectors document => .deletingVectors document
  | .deletingChunks document => .deletingChunks document
  | .deletingRow document => .deletingRow document
  | .returned _ => .returned
  | .notFound | .threw _ => .threw

section Interleaving

variable (embedder : Embedder Scalar) (upload : Upload)

/-- The row of the upload, if it is there, is as it was created. -/
def Untouched (stores : Stores Scalar) : Prop :=
  ∀ row ∈ stores.documents, row.id = upload.id → row = upload.document embedder.model

/-- The call has found that its row is gone. -/
structure IngestCall.Lost (stores : Stores Scalar) (call : IngestCall Scalar) : Prop where
  dims : call.dims = some embedder.dims
  embedder : call.embedder = embedder
  document : call.document.id = upload.id
  absent : ∀ row ∈ stores.documents, row.id ≠ upload.id

/-- The call of the knowledge base when `ingest` is at a place. -/
inductive IngestCall.At (stores : Stores Scalar) : Ingest → IngestCall Scalar → Prop where
  | creating : (∀ row ∈ stores.documents, row.id ≠ upload.id) →
      At stores .creating (start embedder upload)
  | embedding : Untouched embedder upload stores →
      At stores .embedding { start embedder upload with stage := .embedding }
  | upserting : Untouched embedder upload stores →
      At stores .upserting
        { start embedder upload with dims := some embedder.dims, stage := .upserting }
  | saving : Untouched embedder upload stores →
      At stores .saving { start embedder upload with dims := some embedder.dims, stage := .saving }
  | uncut : Untouched embedder upload stores →
      At stores (.cleaningChunks none)
        ((start embedder upload).caught "Cannot read properties of undefined (reading 'length')")
  | uncutRow : Untouched embedder upload stores →
      At stores .savingFailed
        ((start embedder upload).caught
          "Cannot read properties of undefined (reading 'length')").cleanVectors
  | lostChunks {call : IngestCall Scalar} : call.Lost embedder upload stores →
      call.stage = .cleaningChunks → At stores (.cleaningChunks (some embedder.dims)) call
  | lostVectors {call : IngestCall Scalar} : call.Lost embedder upload stores →
      call.stage = .cleaningVectors → At stores (.cleaningVectors embedder.dims) call
  | lostRow {call : IngestCall Scalar} : call.Lost embedder upload stores →
      call.stage = .savingFailed → At stores .savingFailed call
  | returned {call : IngestCall Scalar} : call.stage = .returned → At stores .returned call
  | threw {call : IngestCall Scalar} : call.stage = .threw → At stores .threw call

variable {embedder upload} {stores fewer : Stores Scalar} {ingest : Ingest}
  {call : IngestCall Scalar}

theorem IngestCall.At.place (here : call.At embedder upload stores ingest) :
    call.place = ingest := by
  cases here with
  | lostChunks lost stage => rw [IngestCall.place, stage, lost.dims]
  | lostVectors lost stage => rw [IngestCall.place, stage, lost.dims, Option.getD_some]
  | lostRow _ stage => rw [IngestCall.place, stage]
  | returned stage => rw [IngestCall.place, stage]
  | threw stage => rw [IngestCall.place, stage]
  | _ => rfl

theorem Untouched.mono (untouched : Untouched embedder upload stores)
    (rows : fewer.documents ⊆ stores.documents) : Untouched embedder upload fewer :=
  fun row membership => untouched row (rows membership)

theorem IngestCall.Lost.mono (lost : call.Lost embedder upload stores)
    (rows : fewer.documents ⊆ stores.documents) : call.Lost embedder upload fewer :=
  { lost with absent := fun row membership => lost.absent row (rows membership) }

/-- Rows that are deleted change nothing. -/
theorem IngestCall.At.mono (here : call.At embedder upload stores ingest)
    (rows : fewer.documents ⊆ stores.documents) : call.At embedder upload fewer ingest := by
  cases here with
  | creating absent => exact .creating fun row membership => absent row (rows membership)
  | embedding untouched => exact .embedding (untouched.mono rows)
  | upserting untouched => exact .upserting (untouched.mono rows)
  | saving untouched => exact .saving (untouched.mono rows)
  | uncut untouched => exact .uncut (untouched.mono rows)
  | uncutRow untouched => exact .uncutRow (untouched.mono rows)
  | lostChunks lost stage => exact .lostChunks (lost.mono rows) stage
  | lostVectors lost stage => exact .lostVectors (lost.mono rows) stage
  | lostRow lost stage => exact .lostRow (lost.mono rows) stage
  | returned stage => exact .returned stage
  | threw stage => exact .threw stage

/-- Two ways to change the row agree if they agree on the row as it was created. -/
theorem updateRow_congr {documents : List KnowledgeDocument} {id : ObjectId}
    {set other : KnowledgeDocument → KnowledgeDocument}
    (same : ∀ row ∈ documents, row.id = id → set row = other row) :
    updateRow documents id set = updateRow documents id other := by
  refine List.map_congr_left fun row membership => ?_
  by_cases isRow : row.id = id
  · rw [if_pos isRow, if_pos isRow, same row membership isRow]
  · rw [if_neg isRow, if_neg isRow]

theorem updateRow_eq_self {documents : List KnowledgeDocument} {id : ObjectId}
    (set : KnowledgeDocument → KnowledgeDocument)
    (absent : ∀ row ∈ documents, row.id ≠ id) : updateRow documents id set = documents := by
  refine (List.map_congr_left fun row membership => ?_).trans (List.map_id documents)
  exact if_neg (absent row membership)

/-- An operation of `ingest` is one of the call, or two. -/
theorem IngestCall.At.step {knowledge next : Knowledge Scalar}
    (here : call.At embedder upload knowledge.toStores knowledge.ingest)
    (taken : knowledge.ingestStep embedder upload = some next) :
    next.delete = knowledge.delete ∧ ∃ after : IngestCall Scalar,
      IngestCall.Runs (knowledge.toStores, call) (next.toStores, after) ∧
        after.At embedder upload next.toStores next.ingest := by
  rcases knowledge with ⟨stores, ingest, delete⟩
  cases here with
  | creating absent =>
      simp only [Knowledge.ingestStep] at taken
      split at taken
      · next duplicate =>
        cases taken
        exact ⟨rfl, _, .single (.inl (if_pos duplicate)), .threw rfl⟩
      · next created =>
        cases taken
        refine ⟨rfl, _, .single (.inl (if_neg created)), .embedding ?_⟩
        intro row membership isRow
        rcases List.mem_append.mp membership with before | new
        · exact absurd isRow (absent row before)
        · exact List.mem_singleton.mp new
  | embedding untouched =>
      simp only [Knowledge.ingestStep] at taken
      split at taken
      · next uncut =>
        cases taken
        exact ⟨rfl, _, .single (.inl (if_pos uncut)), .uncut untouched⟩
      · next cut =>
        cases taken
        refine ⟨rfl, _, .head (.inl (if_neg cut)) (.single (.inl ?_)), .upserting untouched⟩
        simp only [IngestCall.advance, IngestCall.insertChunks, List.filter_true]
        rfl
  | upserting untouched =>
      cases taken
      refine ⟨rfl, _, .single (.inl ?_), .saving untouched⟩
      simp only [IngestCall.advance, IngestCall.upsertPoints, List.filter_true]
      rfl
  | saving untouched =>
      simp only [Knowledge.ingestStep] at taken
      split at taken
      · next present =>
        cases taken
        have rows := updateRow_congr fun row membership isRow =>
          congrArg (fun row : KnowledgeDocument => { row with
            status := .ready
            chunkCount := upload.pieces.length
            vectorDims := some embedder.dims }) (untouched row membership isRow)
        refine ⟨rfl, { IngestCall.start embedder upload with
          document := IngestCall.ready
            { IngestCall.start embedder upload with dims := some embedder.dims }
          dims := some embedder.dims
          stage := .returned }, .single (.inl ?_), .returned rfl⟩
        rw [rows]
        exact if_pos present
      · next gone =>
        cases taken
        have absent : ∀ row ∈ stores.documents, row.id ≠ upload.id := by
          intro row membership isRow
          exact gone (List.any_eq_true.mpr ⟨row, membership, beq_iff_eq.mpr isRow⟩)
        exact ⟨rfl, _, .single (.inl (if_neg gone)), .lostChunks ⟨rfl, rfl, rfl, absent⟩ rfl⟩
  | uncut untouched =>
      cases taken
      exact ⟨rfl, _, .single (.inl rfl), .uncutRow untouched⟩
  | uncutRow untouched =>
      cases taken
      -- The call keeps the first 500 characters of the message.
      have short : (encode "Cannot read properties of undefined (reading 'length')").take 500 =
          encode "Cannot read properties of undefined (reading 'length')" :=
        List.take_of_length_le (by decide)
      have rows := updateRow_congr fun row membership isRow =>
        congrArg (fun row : KnowledgeDocument => { row with
          status := .failed
          error := some "Cannot read properties of undefined (reading 'length')" })
          (untouched row membership isRow)
      refine ⟨rfl, _, .single (.inl (congrArg some (Prod.ext ?_ rfl))), .threw rfl⟩
      rw [rows]
      simp only [IngestCall.save, IngestCall.failed, IngestCall.cleanVectors, IngestCall.caught,
        IngestCall.start, short, decode_encode]
      rfl
  | lostChunks lost stage =>
      cases taken
      have deleted : call.advance stores = some ({ stores with
          chunks := stores.chunks.filter fun chunk => chunk.documentId != upload.id },
          { call with stage := .cleaningVectors }) := by
        rw [IngestCall.advance, stage]
        simp [IngestCall.cleanVectors, deleteChunks, lost.document, lost.dims,
          Nat.ne_of_gt embedder.positive]
      exact ⟨rfl, _, .single (.inl deleted), .lostVectors { lost with } rfl⟩
  | lostVectors lost stage =>
      cases taken
      have deleted : call.advance stores = some ({ stores with
          points := deleteByDocument stores.points embedder.model embedder.dims upload.id },
          { call with stage := .savingFailed }) := by
        rw [IngestCall.advance, stage]
        simp [lost.embedder, lost.document, lost.dims]
      exact ⟨rfl, _, .single (.inl deleted), .lostRow { lost with } rfl⟩
  | lostRow lost stage =>
      cases taken
      -- Without a row neither update changes anything.
      have saved : call.advance stores = some (stores,
          { call with document := call.failed, stage := .threw }) := by
        have kept := updateRow_eq_self (fun _ => call.failed) lost.absent
        rw [← lost.document] at kept
        rw [IngestCall.advance, stage]
        exact congrArg (fun documents => some ({ stores with documents }, _)) kept
      refine ⟨rfl, { call with document := call.failed, stage := .threw }, .single (.inl ?_),
        .threw rfl⟩
      rw [updateRow_eq_self _ lost.absent]
      exact saved
  | returned => cases taken
  | threw => cases taken

/-- An operation of `deleteDocument` is one of the call. -/
theorem DeleteCall.step_of_deleteStep {user : User} {knowledge next : Knowledge Scalar}
    {stage : DeleteStage} (here : stage.place = knowledge.delete)
    (taken : knowledge.deleteStep upload (ownerScope user) = some next) :
    next.ingest = knowledge.ingest ∧ next.documents ⊆ knowledge.documents ∧
      ∃ after : DeleteStage, after.place = next.delete ∧
        (DeleteCall.mk user upload.id stage).advance knowledge.toStores =
          some (next.toStores, ⟨user, upload.id, after⟩) := by
  rcases knowledge with ⟨stores, ingest, delete⟩
  cases here
  cases stage with
  | reading =>
      simp only [Knowledge.deleteStep] at taken
      split at taken
      · next missing =>
        cases taken
        refine ⟨rfl, List.Subset.refl _, .notFound, rfl, ?_⟩
        have search : (DeleteCall.mk user upload.id .reading).find stores.documents = none :=
          missing
        rw [DeleteCall.advance, search]
      · next document found =>
        cases taken
        refine ⟨rfl, List.Subset.refl _,
          if hasVectors document then .deletingVectors document else .deletingChunks document,
          ?_, ?_⟩
        · split <;> rfl
        · have search : (DeleteCall.mk user upload.id .reading).find stores.documents =
              some document := found
          rw [DeleteCall.advance, search]
  | deletingVectors document =>
      cases taken
      exact ⟨rfl, List.Subset.refl _, _, rfl, rfl⟩
  | deletingChunks document =>
      cases taken
      exact ⟨rfl, List.Subset.refl _, _, rfl, rfl⟩
  | deletingRow document =>
      cases taken
      exact ⟨rfl, fun _ membership => (List.mem_filter.mp membership).1, .returned document, rfl,
        rfl⟩
  | returned document => cases taken
  | notFound => cases taken
  | threw document => cases taken

/-- Every interleaving of the two calls is a run of the knowledge base. -/
theorem knowledgeBase_leads {ingesting deleting : ℕ} {user : User}
    (apart : ingesting ≠ deleting)
    (absent : ∀ row ∈ base.documents, row.id ≠ upload.id)
    (ingestBegun : base.calls ingesting = some (.ingest (.start embedder upload)))
    (deleteBegun : base.calls deleting = some (.delete ⟨user, upload.id, .reading⟩))
    {knowledge : Knowledge Scalar}
    (reachable : (knowledgeBase embedder upload (ownerScope user) base.toStores).Reachable
      knowledge) :
    ∃ (later : KnowledgeBase Scalar) (call : IngestCall Scalar) (stage : DeleteStage),
      (knowledgeSystem retriever).Leads base later ∧ later.toStores = knowledge.toStores ∧
        later.calls ingesting = some (.ingest call) ∧ call.place = knowledge.ingest ∧
        later.calls deleting = some (.delete ⟨user, upload.id, stage⟩) ∧
        stage.place = knowledge.delete := by
  have follows : ∃ (later : KnowledgeBase Scalar) (call : IngestCall Scalar) (stage : DeleteStage),
      (knowledgeSystem retriever).Leads base later ∧ later.toStores = knowledge.toStores ∧
        later.calls ingesting = some (.ingest call) ∧
        call.At embedder upload knowledge.toStores knowledge.ingest ∧
        later.calls deleting = some (.delete ⟨user, upload.id, stage⟩) ∧
        stage.place = knowledge.delete := by
    induction reachable with
    | init => exact ⟨base, _, _, .refl, rfl, ingestBegun, .creating absent, deleteBegun, rfl⟩
    | @step before next party _ _ taken ih =>
        rcases ih with ⟨later, call, stage, leads, stores, isIngest, here, isDelete, place⟩
        cases party with
        | ingest =>
            rcases here.step taken with ⟨same, after, runs, there⟩
            rw [← stores] at runs
            refine ⟨later.after ingesting (next.toStores, .ingest after), after, stage,
              leads.trans (runs.leads isIngest), rfl, later.calls_after .., there, ?_, ?_⟩
            · rw [later.calls_after_of_ne apart.symm, isDelete]
            · rw [place, same]
        | delete =>
            rcases DeleteCall.step_of_deleteStep place taken with
              ⟨same, rows, after, afterPlace, advanced⟩
            refine ⟨later.after deleting (next.toStores, .delete ⟨user, upload.id, after⟩), call,
              after, leads.tail ⟨.advance deleting, ?_⟩, rfl, ?_, ?_, later.calls_after ..,
              afterPlace⟩
            · rw [KnowledgeBase.step_advance isDelete, KnowledgeCall.advance, stores, advanced]
              rfl
            · rw [later.calls_after_of_ne apart, isIngest]
            · rw [same]
              exact here.mono rows
  rcases follows with ⟨later, call, stage, leads, stores, isIngest, here, isDelete, place⟩
  exact ⟨later, call, stage, leads, stores, isIngest, here.place, isDelete, place⟩

end Interleaving

end WorkflowEngine.Rag
