import WorkflowEngine.Rag.Held

/-!
# Acknowledged uploads

What a call of `ingest` has returned stays in all three stores, complete, until somebody
who may delete the document asks for it.
-/

namespace WorkflowEngine.Rag

variable {Scalar : Type}

/-- What belongs to one document. -/
def Stores.of (stores : Stores Scalar) (id : ObjectId) : Stores Scalar :=
  stores.only fun documentId _ => documentId == id

/-- Someone who may delete the document has read its row to do so. -/
def KnowledgeBase.Removed (base : KnowledgeBase Scalar) (upload : Upload) : Prop :=
  ∃ id call document, base.calls id = some (.delete call) ∧
    call.stage.document? = some document ∧ document.id = upload.id ∧
      inScope (ownerScope call.user) upload.ownerId = true

/-- What is stored of the document at every stage of its ingestion. -/
def IngestCall.Holds (call : IngestCall Scalar) (stored : Stores Scalar) : Prop :=
  let chunks := call.upload.chunks call.embedder.model
  let points := call.upload.points call.embedder
  match call.stage with
  | .creating => stored = ⟨[], [], []⟩
  | .embedding => stored = ⟨[call.document], [], []⟩
  | .inserting => call.dims = some call.embedder.dims ∧ stored = ⟨[call.document], [], []⟩
  | .upserting => call.dims = some call.embedder.dims ∧ stored = ⟨[call.document], chunks, []⟩
  | .saving => call.dims = some call.embedder.dims ∧ stored = ⟨[call.document], chunks, points⟩
  | .returned =>
      call.document.status = .ready ∧ call.document.chunkCount = call.upload.pieces.length ∧
        call.document.vectorDims = some call.embedder.dims ∧
          stored = ⟨[call.document], chunks, points⟩
  | _ => True

/-! ## One step of the ingestion -/

section Of

variable {stores : Stores Scalar} {id : ObjectId}

theorem Stores.of_rows {documents : List KnowledgeDocument} (same : ∀ row ∈ documents, row.id = id) :
    ({ stores with documents := stores.documents ++ documents } : Stores Scalar).of id =
      { stores.of id with documents := (stores.of id).documents ++ documents } := by
  have all : documents.filter (fun row => row.id == id) = documents := by
    apply List.filter_eq_self.mpr
    exact fun row membership => beq_iff_eq.mpr (same row membership)
  rw [of, only, List.filter_append, all]
  rfl

theorem Stores.of_chunks {chunks : List KnowledgeChunk}
    (same : ∀ chunk ∈ chunks, chunk.documentId = id) :
    ({ stores with chunks := stores.chunks ++ chunks } : Stores Scalar).of id =
      { stores.of id with chunks := (stores.of id).chunks ++ chunks } := by
  have all : chunks.filter (fun chunk => chunk.documentId == id) = chunks := by
    apply List.filter_eq_self.mpr
    exact fun chunk membership => beq_iff_eq.mpr (same chunk membership)
  rw [of, only, List.filter_append, all]
  rfl

/-- The first points of a document. -/
theorem Stores.of_points {points : List (Point Scalar)}
    (same : ∀ point ∈ points, point.documentId = id) (none : (stores.of id).points = []) :
    ({ stores with points := upsert stores.points points } : Stores Scalar).of id =
      { stores.of id with points } := by
  have all : points.filter (fun point => point.documentId == id) = points := by
    apply List.filter_eq_self.mpr
    exact fun point membership => beq_iff_eq.mpr (same point membership)
  have before : ∀ kept : Point Scalar → Bool,
      (stores.points.filter kept).filter (fun point => point.documentId == id) = [] := by
    intro kept
    apply List.filter_eq_nil_iff.mpr
    intro point membership
    exact List.filter_eq_nil_iff.mp none point (List.mem_filter.mp membership).1
  rw [of, only, upsert, List.filter_append, before, all]
  rfl

theorem Stores.of_save {document : KnowledgeDocument} (isId : document.id = id) :
    (IngestCall.save stores document).of id =
      { stores.of id with documents := (stores.of id).documents.map fun _ => document } := by
  have rows : (updateRow stores.documents document.id fun _ => document).filter
      (fun row => row.id == id) =
        (stores.documents.filter fun row => row.id == id).map fun _ => document := by
    rw [updateRow]
    induction stores.documents with
    | nil => rfl
    | cons row rest ih =>
        rw [List.map_cons, List.filter_cons, List.filter_cons, ih]
        by_cases same : row.id = id
        · rw [if_pos (same.trans isId.symm), if_pos (beq_iff_eq.mpr isId),
            if_pos (beq_iff_eq.mpr same), List.map_cons]
        · have other : ¬ row.id = document.id := fun isSame => same (isSame.trans isId)
          rw [if_neg other, if_neg (fun isSame => same (beq_iff_eq.mp isSame)),
            if_neg (fun isSame => same (beq_iff_eq.mp isSame))]
  rw [of, only, IngestCall.save, rows]
  rfl

theorem Stores.mem_of {document : KnowledgeDocument} {more : List KnowledgeDocument}
    (isRows : (stores.of id).documents = document :: more) :
    document ∈ stores.documents ∧ document.id = id := by
  have membership : document ∈ (stores.of id).documents := isRows ▸ List.mem_cons_self
  rcases List.mem_filter.mp membership with ⟨isRow, same⟩
  exact ⟨isRow, beq_iff_eq.mp same⟩

end Of

namespace IngestCall

variable {call next : IngestCall Scalar} {stores after : Stores Scalar}

theorem cleanVectors_holds (call : IngestCall Scalar) (view : Stores Scalar) :
    call.cleanVectors.Holds view := by
  rw [cleanVectors]
  cases call.dims.any (· ≠ 0) with
  | true => trivial
  | false => trivial

theorem Holds.advance (ok : call.Ok) (holds : call.Holds (stores.of call.upload.id))
    (taken : call.advance stores = some (after, next)) : next.Holds (after.of call.upload.id) := by
  rcases call with ⟨embedder, upload, document, dims, message, stage⟩
  have isId : document.id = upload.id := ok.document.id
  cases stage with
  | creating =>
      simp only [IngestCall.advance] at taken
      split at taken <;> cases taken
      · trivial
      · have rows : ∀ row ∈ [document], row.id = upload.id := by
          intro row membership
          rw [List.mem_singleton.mp membership]
          exact isId
        have before : stores.of upload.id = ⟨[], [], []⟩ := holds
        refine (Stores.of_rows rows).trans ?_
        rw [before]
        rfl
  | embedding =>
      simp only [IngestCall.advance] at taken
      split at taken <;> cases taken
      · trivial
      · exact ⟨rfl, holds⟩
  | inserting =>
      cases taken
      rcases holds with ⟨isDims, before⟩
      refine ⟨isDims, ?_⟩
      have all : ((upload.chunks embedder.model).filter fun _ => true) =
          upload.chunks embedder.model := List.filter_true _
      rw [insertChunks, all, Stores.of_chunks, before]
      · rfl
      · exact fun chunk membership => (Upload.documentId_of_mem_chunks membership).1
  | upserting =>
      cases taken
      rcases holds with ⟨isDims, before⟩
      refine ⟨isDims, ?_⟩
      have all : ((upload.points embedder).filter fun _ => true) = upload.points embedder :=
        List.filter_true _
      rw [upsertPoints, all, Stores.of_points, before]
      · exact fun point membership => (Upload.of_mem_points membership).1
      · exact congrArg Stores.points before
  | saving =>
      rcases holds with ⟨isDims, before⟩
      have row := Stores.mem_of (congrArg Stores.documents before)
      have present : (stores.documents.any fun row => row.id == document.id) = true :=
        List.any_eq_true.mpr ⟨document, row.1, beq_self_eq_true _⟩
      simp only [IngestCall.advance, ready, present, if_true] at taken
      cases taken
      refine ⟨rfl, rfl, isDims, ?_⟩
      rw [Stores.of_save, before]
      · rfl
      · exact isId
  | cleaningChunks =>
      cases taken
      exact cleanVectors_holds _ _
  | cleaningVectors | savingFailed =>
      cases taken
      trivial
  | returned | threw => cases taken

/-- After a failure nothing is promised any more. -/
theorem Holds.fail {message : String} {part : Part Scalar} {view : Stores Scalar}
    (taken : call.fail stores message part = some (after, next)) : next.Holds view := by
  rcases call with ⟨embedder, upload, document, dims, _, stage⟩
  cases stage with
  | cleaningChunks =>
      cases taken
      exact cleanVectors_holds _ _
  | creating | embedding | inserting | upserting | saving | cleaningVectors | savingFailed =>
      cases taken
      trivial
  | returned | threw => cases taken

end IngestCall

/-! ## All calls -/

namespace KnowledgeBase

variable {base next : KnowledgeBase Scalar}

/-- Every ingestion has stored what it should have by now, unless its document is being
deleted. -/
def Kept (base : KnowledgeBase Scalar) : Prop :=
  ∀ id call, base.calls id = some (.ingest call) →
    base.Removed call.upload ∨ call.Holds (base.toStores.of call.upload.id)

/-- A call of `deleteDocument` that has read its row stays. -/
theorem Removed.later {upload : Upload} (removed : base.Removed upload)
    (later : ∀ id call, base.calls id = some (.delete call) → ∃ call', next.calls id =
      some (.delete call') ∧ call.Continues call') : next.Removed upload := by
  rcases removed with ⟨id, call, document, isCall, isRead, isId, scope⟩
  rcases later id call isCall with ⟨call', isLater, continues⟩
  exact ⟨id, call', document, isLater, continues.document document isRead, isId,
    continues.user ▸ scope⟩

theorem Removed.begun {upload : Upload} (removed : base.Removed upload) {call : ℕ}
    (idle : base.calls call = none) {begun : KnowledgeCall Scalar}
    (isNext : next.calls = Function.update base.calls call (some begun)) :
    next.Removed upload := by
  apply removed.later
  intro other delete isDelete
  have different : other ≠ call := by
    rintro rfl
    rw [idle] at isDelete
    cases isDelete
  refine ⟨delete, ?_, .refl delete⟩
  rw [isNext, Function.update_of_ne different]
  exact isDelete

theorem DeleteCall.Steps.continues {uploads : List Upload} {stores after : Stores Scalar}
    {call next : DeleteCall} (steps : call.Steps uploads stores after next) :
    call.Continues next := by
  cases steps with
  | missed continues | read continues | writes continues => exact continues

theorem continues_after (call : ℕ) {running later : KnowledgeCall Scalar} {stores : Stores Scalar}
    (isCall : base.calls call = some running) (steps : base.Steps running stores later) :
    ∀ id delete, base.calls id = some (.delete delete) → ∃ delete',
      (base.after call (stores, later)).calls id = some (.delete delete') ∧
        delete.Continues delete' := by
  intro id delete found
  by_cases same : id = call
  · subst same
    cases isCall.symm.trans found
    cases steps with
    | @delete _ next _ steps =>
        exact ⟨next, Function.update_self _ _ _, DeleteCall.Steps.continues steps⟩
  · exact ⟨delete, (Function.update_of_ne same _ _).trans found, .refl delete⟩

/-- A call leaves the documents of other uploads alone. -/
theorem Inv.of_eq (inv : base.Inv) {upload other : Upload} {after : Stores Scalar}
    (writes : base.toStores.Writes upload after) (known : upload ∈ base.uploads)
    (different : other.id ≠ upload.id) : after.of other.id = base.toStores.of other.id :=
  writes.only_eq inv.held inv.drawn known (beq_eq_false_iff_ne.mpr different.symm)

theorem Kept.after (kept : base.Kept) (inv : base.Inv) {call : ℕ}
    {running later : KnowledgeCall Scalar} {stores : Stores Scalar}
    (isCall : base.calls call = some running) (steps : base.Steps running stores later)
    (mine : ∀ ingest ingest', running = .ingest ingest → later = .ingest ingest' →
      ingest.Holds (base.toStores.of ingest.upload.id) →
        ingest'.Holds (stores.of ingest.upload.id)) :
    (base.after call (stores, later)).Kept := by
  have removed : ∀ {upload : Upload}, base.Removed upload →
      (base.after call (stores, later)).Removed upload :=
    fun was => was.later (continues_after call isCall steps)
  intro id ingest found
  rcases update_eq_some found with ⟨rfl, isLater⟩ | ⟨different, was⟩
  · cases steps with
    | @ingest before _ _ writes continues =>
        cases isLater
        rw [continues.upload]
        rcases kept id before isCall with gone | holds
        · exact .inl (removed gone)
        · exact .inr (mine before _ rfl rfl holds)
    | delete => cases isLater
  · rcases kept id ingest was with gone | holds
    · exact .inl (removed gone)
    · cases steps with
      | @ingest before _ _ writes continues =>
          have apart : ingest.upload.id ≠ before.upload.id :=
            fun same => different (inv.one id call ingest before was isCall same)
          right
          rw [← inv.of_eq writes (inv.ingests call before isCall).2 apart] at holds
          exact holds
      | @delete before after _ steps =>
          cases steps with
          | missed | read => exact .inr holds
          | @writes _ document upload _ continues isRead read known isOf writes =>
              by_cases same : ingest.upload.id = upload.id
              · left
                have isUpload := Upload.eq_of_id_eq inv.drawn (inv.ingests id ingest was).2 known
                  same
                rcases inv.deletes call _ isCall document isRead with ⟨_, scope, _⟩
                rw [isUpload]
                refine ⟨call, after, document, Function.update_self _ _ _, read, isOf.id, ?_⟩
                rw [continues.user, ← isOf.ownerId]
                exact scope
              · right
                rw [← inv.of_eq writes known same] at holds
                exact holds

theorem Kept.moved {retriever : Retriever Scalar} {action : Action Scalar} (kept : base.Kept)
    (inv : base.Inv) (moved : Moved retriever base action next) : next.Kept := by
  cases moved with
  | @ingest call embedder upload idle fresh =>
      have apart := (Upload.drawsFresh_iff.mp fresh).2
      intro id ingest found
      rcases update_eq_some found with ⟨rfl, isStart⟩ | ⟨different, was⟩
      · cases isStart
        right
        have rows : (base.documents.filter fun row => row.id == upload.id) = [] := by
          apply List.filter_eq_nil_iff.mpr
          intro row membership same
          rcases inv.held.rows row membership with ⟨other, known, isOf⟩
          exact (apart other known).id ((beq_iff_eq.mp same).symm.trans isOf.id)
        have chunks : (base.chunks.filter fun chunk => chunk.documentId == upload.id) = [] := by
          apply List.filter_eq_nil_iff.mpr
          intro chunk membership same
          rcases inv.held.chunks chunk membership with ⟨other, known, _, isOf⟩
          exact (apart other known).id ((beq_iff_eq.mp same).symm.trans
            (Upload.documentId_of_mem_chunks isOf).1)
        have points : (base.points.filter fun point => point.documentId == upload.id) = [] := by
          apply List.filter_eq_nil_iff.mpr
          intro point membership same
          rcases inv.held.points point membership with ⟨other, known, _, isOf⟩
          exact (apart other known).id ((beq_iff_eq.mp same).symm.trans
            (Upload.of_mem_points isOf).1)
        show base.toStores.of upload.id = _
        rw [Stores.of, Stores.only, rows, chunks, points]
      · rcases kept id ingest was with gone | holds
        · exact .inl (gone.begun idle rfl)
        · exact .inr holds
  | @delete call user documentId idle =>
      intro id ingest found
      rcases update_eq_some found with ⟨_, absurdity⟩ | ⟨_, was⟩
      · cases absurdity
      · rcases kept id ingest was with gone | holds
        · exact .inl (gone.begun idle rfl)
        · exact .inr holds
  | @advanced call running later stores isCall taken =>
      apply kept.after inv isCall (inv.steps_of_advance isCall taken)
      intro ingest ingest' isIngest isLater holds
      subst isIngest isLater
      rcases Option.map_eq_some_iff.mp taken with ⟨⟨after, next⟩, advanced, isPair⟩
      cases isPair
      exact holds.advance (inv.ingests call ingest isCall).1 advanced
  | @failed call running later stores message part isCall taken =>
      apply kept.after inv isCall (inv.steps_of_fail isCall taken)
      intro ingest ingest' isIngest isLater _
      subst isIngest isLater
      rcases Option.map_eq_some_iff.mp taken with ⟨⟨after, next⟩, failed, isPair⟩
      cases isPair
      exact IngestCall.Holds.fail failed
  | asked =>
      intro id ingest found
      exact kept id ingest found

theorem kept_of_reachableBy {retriever : Retriever Scalar}
    {allowed : KnowledgeBase Scalar → Action Scalar → Prop}
    (reachable : (knowledgeSystem retriever).ReachableBy allowed base) : base.Kept := by
  induction reachable with
  | init =>
      intro id call absurdity
      cases absurdity
  | step before _ taken ih => exact ih.moved (inv_of_reachableBy before) (moved_of_step taken)

end KnowledgeBase

/-- An ingestion that has returned: its row is READY and everything that belongs to it is
stored, unless somebody who may delete the document has gone about it. -/
theorem acknowledged_upload_kept {retriever : Retriever Scalar} {base : KnowledgeBase Scalar}
    (reachable : (knowledgeSystem retriever).Reachable base) {id : ℕ} {call : IngestCall Scalar}
    (isCall : base.calls id = some (.ingest call)) (returned : call.stage = .returned) :
    base.Removed call.upload ∨
      call.document.status = .ready ∧ call.document.chunkCount = call.upload.pieces.length ∧
        call.document.vectorDims = some call.embedder.dims ∧
          base.toStores.of call.upload.id =
            ⟨[call.document], call.upload.chunks call.embedder.model,
              call.upload.points call.embedder⟩ := by
  rcases KnowledgeBase.kept_of_reachableBy reachable id call isCall with gone | holds
  · exact .inl gone
  · right
    rw [IngestCall.Holds, returned] at holds
    exact holds

namespace Schedule

/-- Another user asks for the deletion of the page meanwhile. -/
def strangerDeletes : List (KnowledgeBase.Action Int) :=
  [.ingest 0 constant onePage, .advance 0, .advance 0, .delete 1 ⟨2, .operator⟩ 7, .advance 1,
    .advance 0, .advance 0, .advance 0]

end Schedule

theorem acknowledged_upload_kept_strangerDeletes :
    ∃ base : KnowledgeBase Int, ∃ call : IngestCall Int, base.calls 0 = some (.ingest call) ∧
      call.document.status = .ready ∧ base.toStores.of 7 =
        ⟨[call.document], Schedule.onePage.chunks "m", Schedule.onePage.points Schedule.constant⟩ := by
  let base := Schedule.baseAfter Schedule.strangerDeletes (by decide)
  have reachable := Schedule.baseAfter_reachable Schedule.strangerDeletes (by decide)
  have isCall : base.calls 0 = some (.ingest
      { IngestCall.start Schedule.constant Schedule.onePage with
        document :=
          { Schedule.onePage.document "m" with
            status := .ready, chunkCount := 1, vectorDims := some 2 }
        dims := some 2
        stage := .returned }) := rfl
  have isOther : base.calls 1 = some (.delete ⟨⟨2, .operator⟩, 7, .notFound⟩) := rfl
  refine ⟨base, _, isCall, ?_⟩
  rcases acknowledged_upload_kept reachable isCall rfl with gone | ⟨ready, _, _, stored⟩
  · rcases gone with ⟨id, call, document, isDelete, isRead, _⟩
    cases id with
    | zero => cases isCall.symm.trans isDelete
    | succ id =>
        cases id with
        | zero =>
            cases isOther.symm.trans isDelete
            cases isRead
        | succ id =>
            have idle : base.calls (id + 1 + 1) = none := rfl
            cases idle.symm.trans isDelete
  · exact ⟨ready, stored⟩

end WorkflowEngine.Rag
