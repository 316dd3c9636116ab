import WorkflowEngine.Rag.Service

/-!
# What the stores hold

Every row, chunk and point belongs to one upload, and a call changes only what belongs to
the upload that it works on.
-/

namespace WorkflowEngine.Rag

variable {Scalar : Type}

/-- The row of an upload. -/
structure KnowledgeDocument.Of (upload : Upload) (document : KnowledgeDocument) : Prop where
  id : document.id = upload.id
  ownerId : document.ownerId = upload.ownerId

/-- Two uploads share no generated id. -/
structure Upload.Apart (left right : Upload) : Prop where
  id : left.id ≠ right.id
  pointIds : ∀ id ∈ left.pointIds, id ∉ right.pointIds

theorem Upload.Apart.symm {left right : Upload} (apart : left.Apart right) : right.Apart left :=
  ⟨apart.id.symm, fun id isRight isLeft => apart.pointIds id isLeft isRight⟩

instance : Std.Symm Upload.Apart := ⟨fun _ _ apart => apart.symm⟩

theorem Upload.drawsFresh_iff {upload : Upload} {uploads : List Upload} :
    upload.drawsFresh uploads = true ↔
      upload.pointIds.Nodup ∧ ∀ other ∈ uploads, upload.Apart other := by
  simp only [drawsFresh, Bool.and_eq_true, Bool.not_eq_true', List.any_eq_false, beq_iff_eq,
    decide_eq_true_eq, List.all_eq_true, List.contains_iff_mem]
  constructor
  · intro fresh
    refine ⟨fresh.1.2, ?_⟩
    intro other membership
    exact ⟨fun same => fresh.1.1 other membership same.symm,
      fun id isMine => fresh.2 id isMine other membership⟩
  · intro fresh
    exact ⟨⟨fun other membership same => (fresh.2 other membership).id same.symm, fresh.1⟩,
      fun id isMine other membership => (fresh.2 other membership).pointIds id isMine⟩

/-! ## What belongs to an upload -/

theorem Upload.documentId_of_mem_chunks {upload : Upload} {model : String} {chunk : KnowledgeChunk}
    (membership : chunk ∈ upload.chunks model) :
    chunk.documentId = upload.id ∧ chunk.ownerId = upload.ownerId ∧
      upload.pieces[chunk.index]? = some chunk.text ∧ chunk.pointId ∈ upload.pointIds := by
  rcases List.mem_mapIdx.mp membership with ⟨index, inside, rfl⟩
  refine ⟨rfl, rfl, List.getElem?_eq_getElem inside, ?_⟩
  exact List.mem_map_of_mem (List.mem_range.mpr inside)

theorem Upload.of_mem_points {upload : Upload} {embedder : Embedder Scalar} {point : Point Scalar}
    (membership : point ∈ upload.points embedder) :
    point.documentId = upload.id ∧ point.ownerId = upload.ownerId ∧ point.title = upload.title ∧
      upload.pieces[point.chunkIndex]? = some point.text ∧ point.id ∈ upload.pointIds := by
  rcases List.mem_map.mp membership with ⟨chunk, chunkMem, rfl⟩
  rcases documentId_of_mem_chunks chunkMem with ⟨_, _, text, pointId⟩
  exact ⟨rfl, rfl, rfl, text, pointId⟩

/-! ## What a step writes -/

/-- A step on behalf of an upload has changed the stores. -/
inductive Stores.Writes (upload : Upload) (before : Stores Scalar) : Stores Scalar → Prop where
  | nothing : Writes upload before before
  | row {document : KnowledgeDocument} : document.Of upload →
      Writes upload before { before with documents := before.documents ++ [document] }
  | saved {document : KnowledgeDocument} : document.Of upload →
      Writes upload before (IngestCall.save before document)
  | chunks {model : String} {more : List KnowledgeChunk} :
      (∀ chunk ∈ more, chunk ∈ upload.chunks model) →
      Writes upload before { before with chunks := before.chunks ++ more }
  | points {embedder : Embedder Scalar} {more : List (Point Scalar)} :
      (∀ point ∈ more, point ∈ upload.points embedder) →
      Writes upload before { before with points := upsert before.points more }
  | fewerRows {gone : KnowledgeDocument → Bool} :
      Writes upload before
        { before with
          documents := before.documents.filter fun row => !(row.id == upload.id && gone row) }
  | fewerChunks {gone : KnowledgeChunk → Bool} :
      Writes upload before
        { before with
          chunks := before.chunks.filter fun chunk =>
            !(chunk.documentId == upload.id && gone chunk) }
  | fewerPoints {gone : Point Scalar → Bool} :
      Writes upload before
        { before with
          points := before.points.filter fun point =>
            !(point.documentId == upload.id && gone point) }

theorem Stores.Writes.insertChunks {upload : Upload} {before : Stores Scalar} (model : String)
    (inserted : KnowledgeChunk → Bool) :
    before.Writes upload
      { before with chunks := before.chunks ++ (upload.chunks model).filter inserted } := by
  have subset : ∀ chunk ∈ (upload.chunks model).filter inserted, chunk ∈ upload.chunks model :=
    fun chunk membership => (List.mem_filter.mp membership).1
  exact .chunks subset

theorem Stores.Writes.upsertPoints {upload : Upload} {before : Stores Scalar}
    (embedder : Embedder Scalar) (written : Point Scalar → Bool) :
    before.Writes upload
      { before with points := upsert before.points ((upload.points embedder).filter written) } := by
  have subset : ∀ point ∈ (upload.points embedder).filter written,
      point ∈ upload.points embedder :=
    fun point membership => (List.mem_filter.mp membership).1
  exact .points subset

section Drops

variable {upload : Upload} {before : Stores Scalar} {id : ObjectId} (isId : id = upload.id)
include isId

theorem Stores.Writes.deleteChunks :
    before.Writes upload { before with chunks := Rag.deleteChunks before.chunks id } := by
  have drops : Rag.deleteChunks before.chunks id = before.chunks.filter fun chunk =>
      !(chunk.documentId == upload.id && true) := by
    apply List.filter_congr
    intro chunk _
    rw [isId, Bool.and_true]
    rfl
  rw [drops]
  exact .fewerChunks

theorem Stores.Writes.deleteSomeChunks (gone : KnowledgeChunk → Bool) :
    before.Writes upload
      { before with
        chunks := before.chunks.filter fun chunk =>
          !(chunk.documentId == id && gone chunk) } := by
  rw [isId]
  exact .fewerChunks

theorem Stores.Writes.deleteSomePoints (collection : String) (gone : Point Scalar → Bool) :
    before.Writes upload
      { before with
        points := before.points.filter fun point =>
          !(point.collection == collection && point.documentId == id && gone point) } := by
  have drops : (before.points.filter fun point =>
        !(point.collection == collection && point.documentId == id && gone point)) =
      before.points.filter fun point =>
        !(point.documentId == upload.id && (point.collection == collection && gone point)) := by
    apply List.filter_congr
    intro point _
    rw [isId, Bool.and_comm (point.collection == collection), Bool.and_assoc]
  rw [drops]
  exact .fewerPoints

theorem Stores.Writes.deleteByDocument (model : String) (dims : ℕ) :
    before.Writes upload
      { before with points := Rag.deleteByDocument before.points model dims id } := by
  have drops : Rag.deleteByDocument before.points model dims id = before.points.filter fun point =>
      !(point.collection == collectionName model dims && point.documentId == id && true) := by
    apply List.filter_congr
    intro point _
    rw [Bool.and_true]
  rw [drops]
  exact .deleteSomePoints isId _ _

theorem Stores.Writes.deleteRow (gone : KnowledgeDocument → Bool) :
    before.Writes upload
      { before with
        documents := before.documents.filter fun row => !(row.id == id && gone row) } := by
  rw [isId]
  exact .fewerRows

end Drops

/-! ## Calls of `ingest` -/

namespace IngestCall

/-- The call works on its upload. -/
structure Ok (call : IngestCall Scalar) : Prop where
  document : call.document.Of call.upload
  dims : call.dims = none ∨ call.dims = some call.embedder.dims

/-- What a step of the call leaves alone. -/
structure Continues (call next : IngestCall Scalar) : Prop where
  ok : next.Ok
  upload : next.upload = call.upload
  embedder : next.embedder = call.embedder

variable {call next : IngestCall Scalar} {stores after : Stores Scalar}

theorem start_ok (embedder : Embedder Scalar) (upload : Upload) : (start embedder upload).Ok :=
  ⟨⟨rfl, rfl⟩, .inl rfl⟩

theorem Ok.ready (ok : call.Ok) : call.ready.Of call.upload := ⟨ok.document.id, ok.document.ownerId⟩

theorem Ok.failed (ok : call.Ok) : call.failed.Of call.upload :=
  ⟨ok.document.id, ok.document.ownerId⟩

theorem Ok.staged (ok : call.Ok) (stage : IngestStage) : call.Continues { call with stage } :=
  ⟨⟨ok.document, ok.dims⟩, rfl, rfl⟩

theorem Ok.caught (ok : call.Ok) (message : String) : call.Continues (call.caught message) :=
  ⟨⟨ok.document, ok.dims⟩, rfl, rfl⟩

theorem Ok.cleanVectors (ok : call.Ok) : call.Continues call.cleanVectors :=
  ⟨⟨ok.document, ok.dims⟩, rfl, rfl⟩

theorem Ok.saved (ok : call.Ok) {document : KnowledgeDocument} (isOf : document.Of call.upload)
    (stage : IngestStage) (message : String) :
    call.Continues { call with document, stage, message } :=
  ⟨⟨isOf, ok.dims⟩, rfl, rfl⟩

theorem advance_writes (ok : call.Ok) (taken : call.advance stores = some (after, next)) :
    stores.Writes call.upload after ∧ call.Continues next := by
  rw [advance] at taken
  split at taken
  · split at taken <;> cases taken
    · exact ⟨.nothing, ok.staged _⟩
    · exact ⟨.row ok.document, ok.staged _⟩
  · split at taken <;> cases taken
    · exact ⟨.nothing, ok.caught _⟩
    · exact ⟨.nothing, ⟨ok.document, .inr rfl⟩, rfl, rfl⟩
  · cases taken
    exact ⟨.insertChunks _ _, ok.staged _⟩
  · cases taken
    exact ⟨.upsertPoints _ _, ok.staged _⟩
  · simp only at taken
    split at taken <;> cases taken
    · exact ⟨.saved ok.ready, ok.saved ok.ready _ _⟩
    · exact ⟨.nothing, ok.saved ok.ready _ _⟩
  · cases taken
    exact ⟨.deleteChunks ok.document.id, ok.cleanVectors⟩
  · cases taken
    exact ⟨.deleteByDocument ok.document.id _ _, ok.staged _⟩
  · cases taken
    exact ⟨.saved ok.failed, ok.saved ok.failed _ _⟩
  · cases taken
  · cases taken

theorem fail_writes (ok : call.Ok) {message : String} {part : Part Scalar}
    (taken : call.fail stores message part = some (after, next)) :
    stores.Writes call.upload after ∧ call.Continues next := by
  rw [fail] at taken
  split at taken <;> cases taken
  · split
    · exact ⟨.row ok.document, ok.staged _⟩
    · exact ⟨.nothing, ok.staged _⟩
  · exact ⟨.nothing, ok.caught _⟩
  · exact ⟨.insertChunks _ _, ok.caught _⟩
  · exact ⟨.upsertPoints _ _, ok.caught _⟩
  · split
    · exact ⟨.saved ok.ready, ok.saved ok.ready _ _⟩
    · exact ⟨.nothing, ok.saved ok.ready _ _⟩
  · exact ⟨.deleteSomeChunks ok.document.id _, ok.cleanVectors⟩
  · exact ⟨.deleteSomePoints ok.document.id _ _, ok.staged _⟩
  · split
    · exact ⟨.saved ok.failed, ok.saved ok.failed _ _⟩
    · exact ⟨.nothing, ok.saved ok.failed _ _⟩

end IngestCall

/-! ## Calls of `deleteDocument` -/

namespace DeleteCall

/-- The row that the call has read was in its scope. -/
def Ok (uploads : List Upload) (call : DeleteCall) : Prop :=
  ∀ document, call.stage.document? = some document →
    document.id = call.documentId ∧ inScope (ownerScope call.user) document.ownerId = true ∧
      ∃ upload ∈ uploads, document.Of upload

/-- The call goes on with the row that it has read. -/
structure Continues (call next : DeleteCall) : Prop where
  user : next.user = call.user
  documentId : next.documentId = call.documentId
  document : ∀ document, call.stage.document? = some document →
    next.stage.document? = some document

theorem Continues.refl (call : DeleteCall) : call.Continues call := ⟨rfl, rfl, fun _ => id⟩

variable {call next : DeleteCall} {stores after : Stores Scalar} {uploads : List Upload}

theorem find_eq_some {document : KnowledgeDocument}
    (found : call.find stores.documents = some document) :
    document ∈ stores.documents ∧ document.id = call.documentId ∧
      inScope (ownerScope call.user) document.ownerId = true := by
  have matched := List.find?_some found
  rw [Bool.and_eq_true, beq_iff_eq] at matched
  exact ⟨List.mem_of_find?_eq_some found, matched.1, matched.2⟩

/-- A step reads a row, or it changes what belongs to the row that was read. -/
inductive Steps (uploads : List Upload) (stores : Stores Scalar) (call : DeleteCall) :
    Stores Scalar → DeleteCall → Prop where
  | missed {next : DeleteCall} : call.Continues next → next.stage.document? = none →
      Steps uploads stores call stores next
  | read {next : DeleteCall} {document : KnowledgeDocument} : call.Continues next →
      call.find stores.documents = some document → next.stage.document? = some document →
      Steps uploads stores call stores next
  | writes {next : DeleteCall} {document : KnowledgeDocument} {upload : Upload}
      {after : Stores Scalar} : call.Continues next → call.stage.document? = some document →
      next.stage.document? = some document → upload ∈ uploads → document.Of upload →
      stores.Writes upload after →
      Steps uploads stores call after next

theorem Ok.writes (ok : call.Ok uploads) {document : KnowledgeDocument}
    (isRead : call.stage.document? = some document) {stage : DeleteStage}
    (same : stage.document? = some document)
    (writes : ∀ upload, document.id = upload.id → stores.Writes upload after) :
    call.Steps uploads stores after { call with stage } := by
  rcases ok document isRead with ⟨_, _, upload, uploadMem, isOf⟩
  refine .writes ⟨rfl, rfl, ?_⟩ isRead same uploadMem isOf (writes upload isOf.id)
  intro other isOther
  rw [← Option.some.inj (isRead.symm.trans isOther)]
  exact same

theorem advance_steps (ok : call.Ok uploads) (taken : call.advance stores = some (after, next)) :
    call.Steps uploads stores after next := by
  rw [advance] at taken
  split at taken
  · next isReading =>
    have unread : ∀ document, call.stage.document? = some document →
        next.stage.document? = some document := by
      intro document isRead
      rw [isReading] at isRead
      cases isRead
    split at taken <;> cases taken
    · exact .missed ⟨rfl, rfl, unread⟩ rfl
    · next document found =>
      refine .read ⟨rfl, rfl, unread⟩ found ?_
      simp only
      split <;> rfl
  · next document isStage =>
    cases taken
    refine ok.writes (congrArg DeleteStage.document? isStage) rfl ?_
    exact fun upload isId => .deleteByDocument isId _ _
  · next document isStage =>
    cases taken
    refine ok.writes (congrArg DeleteStage.document? isStage) rfl ?_
    exact fun upload isId => .deleteChunks isId
  · next document isStage =>
    cases taken
    refine ok.writes (congrArg DeleteStage.document? isStage) rfl ?_
    intro upload isId
    have drops : (stores.documents.filter fun other => other.id != document.id) =
        stores.documents.filter fun row => !(row.id == document.id && true) := by
      apply List.filter_congr
      intro row _
      rw [Bool.and_true]
      rfl
    rw [drops]
    exact .deleteRow isId fun _ => true
  all_goals cases taken

theorem fail_steps (ok : call.Ok uploads) {part : Part Scalar}
    (taken : call.fail stores part = some (after, next)) : call.Steps uploads stores after next := by
  rw [fail] at taken
  split at taken <;> cases taken
  · next isReading =>
    refine .missed ⟨rfl, rfl, ?_⟩ rfl
    intro document isRead
    rw [isReading] at isRead
    cases isRead
  · next document isStage =>
    refine ok.writes (congrArg DeleteStage.document? isStage) rfl ?_
    exact fun upload isId => .deleteSomePoints isId _ _
  · next document isStage =>
    refine ok.writes (congrArg DeleteStage.document? isStage) rfl ?_
    exact fun upload isId => .deleteSomeChunks isId _
  · next document isStage =>
    refine ok.writes (congrArg DeleteStage.document? isStage) rfl ?_
    exact fun upload isId => .deleteRow isId _

end DeleteCall

/-! ## What every state keeps -/

theorem Upload.eq_of_id_eq {uploads : List Upload} (drawn : uploads.Pairwise Upload.Apart)
    {left right : Upload} (isLeft : left ∈ uploads) (isRight : right ∈ uploads)
    (same : left.id = right.id) : left = right := by
  by_contra different
  exact (drawn.forall isLeft isRight different).id same

/-- Everything that is stored belongs to an upload. -/
structure Stores.Held (uploads : List Upload) (stores : Stores Scalar) : Prop where
  rows : ∀ document ∈ stores.documents, ∃ upload ∈ uploads, document.Of upload
  chunks : ∀ chunk ∈ stores.chunks, ∃ upload ∈ uploads, ∃ model, chunk ∈ upload.chunks model
  points : ∀ point ∈ stores.points, ∃ upload ∈ uploads, ∃ embedder : Embedder Scalar,
    point ∈ upload.points embedder

theorem Stores.Writes.held {uploads : List Upload} {upload : Upload} (known : upload ∈ uploads)
    {before after : Stores Scalar} (writes : before.Writes upload after)
    (held : before.Held uploads) : after.Held uploads := by
  cases writes with
  | nothing => exact held
  | row isOf =>
      refine ⟨?_, held.chunks, held.points⟩
      intro document membership
      rcases List.mem_append.mp membership with old | new
      · exact held.rows document old
      · rw [List.mem_singleton.mp new]
        exact ⟨upload, known, isOf⟩
  | saved isOf =>
      refine ⟨?_, held.chunks, held.points⟩
      intro document membership
      rcases mem_updateRow membership with ⟨_, _, ⟨_, rfl⟩ | ⟨old, _⟩⟩
      · exact ⟨upload, known, isOf⟩
      · exact held.rows document old
  | chunks isMore =>
      refine ⟨held.rows, ?_, held.points⟩
      intro chunk membership
      rcases List.mem_append.mp membership with old | new
      · exact held.chunks chunk old
      · exact ⟨upload, known, _, isMore chunk new⟩
  | points isMore =>
      refine ⟨held.rows, held.chunks, ?_⟩
      intro point membership
      rcases mem_upsert membership with old | new
      · exact held.points point old
      · exact ⟨upload, known, _, isMore point new⟩
  | fewerRows =>
      exact ⟨fun row membership => held.rows row (List.mem_filter.mp membership).1, held.chunks,
        held.points⟩
  | fewerChunks =>
      exact ⟨held.rows, fun chunk membership => held.chunks chunk (List.mem_filter.mp membership).1,
        held.points⟩
  | fewerPoints =>
      exact ⟨held.rows, held.chunks,
        fun point membership => held.points point (List.mem_filter.mp membership).1⟩

theorem DeleteCall.Steps.ok {uploads : List Upload} {stores after : Stores Scalar}
    {call next : DeleteCall} (held : stores.Held uploads) (ok : call.Ok uploads)
    (steps : call.Steps uploads stores after next) : next.Ok uploads := by
  intro document isRead
  cases steps with
  | missed _ unread =>
      rw [unread] at isRead
      cases isRead
  | read continues found read =>
      cases read.symm.trans isRead
      rcases DeleteCall.find_eq_some found with ⟨membership, isId, scope⟩
      rw [continues.user, continues.documentId]
      exact ⟨isId, scope, held.rows _ membership⟩
  | writes continues was read =>
      cases read.symm.trans isRead
      rw [continues.user, continues.documentId]
      exact ok _ was

theorem DeleteCall.Ok.mono {uploads more : List Upload} {call : DeleteCall} (ok : call.Ok uploads)
    (subset : uploads ⊆ more) : call.Ok more := by
  intro document isRead
  rcases ok document isRead with ⟨isId, scope, upload, membership, isOf⟩
  exact ⟨isId, scope, upload, subset membership, isOf⟩

theorem Stores.Held.mono {uploads more : List Upload} {stores : Stores Scalar}
    (held : stores.Held uploads) (subset : uploads ⊆ more) : stores.Held more where
  rows document membership := by
    rcases held.rows document membership with ⟨upload, known, isOf⟩
    exact ⟨upload, subset known, isOf⟩
  chunks chunk membership := by
    rcases held.chunks chunk membership with ⟨upload, known, isOf⟩
    exact ⟨upload, subset known, isOf⟩
  points point membership := by
    rcases held.points point membership with ⟨upload, known, isOf⟩
    exact ⟨upload, subset known, isOf⟩

/-! ## A part of the stores -/

/-- What belongs to some of the documents. -/
def Stores.only (keep : ObjectId → UserId → Bool) (stores : Stores Scalar) : Stores Scalar where
  documents := stores.documents.filter fun document => keep document.id document.ownerId
  chunks := stores.chunks.filter fun chunk => keep chunk.documentId chunk.ownerId
  points := stores.points.filter fun point => keep point.documentId point.ownerId

section Owners

variable {uploads : List Upload} {upload : Upload} {stores : Stores Scalar}
  (held : stores.Held uploads) (drawn : uploads.Pairwise Upload.Apart) (known : upload ∈ uploads)
include held drawn known

theorem Stores.Held.row_owner {document : KnowledgeDocument} (membership : document ∈ stores.documents)
    (isId : document.id = upload.id) : document.ownerId = upload.ownerId := by
  rcases held.rows document membership with ⟨other, otherMem, isOf⟩
  cases Upload.eq_of_id_eq drawn otherMem known (isOf.id.symm.trans isId)
  exact isOf.ownerId

theorem Stores.Held.chunk_owner {chunk : KnowledgeChunk} (membership : chunk ∈ stores.chunks)
    (isId : chunk.documentId = upload.id) : chunk.ownerId = upload.ownerId := by
  rcases held.chunks chunk membership with ⟨other, otherMem, model, chunkMem⟩
  rcases Upload.documentId_of_mem_chunks chunkMem with ⟨documentId, ownerId, _⟩
  cases Upload.eq_of_id_eq drawn otherMem known (documentId.symm.trans isId)
  exact ownerId

theorem Stores.Held.point_owner {point : Point Scalar} (membership : point ∈ stores.points)
    (isId : point.documentId = upload.id) : point.ownerId = upload.ownerId := by
  rcases held.points point membership with ⟨other, otherMem, embedder, pointMem⟩
  rcases Upload.of_mem_points pointMem with ⟨documentId, ownerId, _⟩
  cases Upload.eq_of_id_eq drawn otherMem known (documentId.symm.trans isId)
  exact ownerId

/-- The points of other uploads have other ids. -/
theorem Stores.Held.point_id_ne {point new : Point Scalar} (membership : point ∈ stores.points)
    (foreign : point.documentId ≠ upload.id) {embedder : Embedder Scalar}
    (isNew : new ∈ upload.points embedder) : new.id ≠ point.id := by
  rcases held.points point membership with ⟨other, otherMem, _, pointMem⟩
  rcases Upload.of_mem_points pointMem with ⟨documentId, _, _, _, isDrawn⟩
  rcases Upload.of_mem_points isNew with ⟨_, _, _, _, isDrawn'⟩
  have different : upload ≠ other := by
    rintro rfl
    exact foreign documentId
  intro same
  rw [← same] at isDrawn
  exact (drawn.forall known otherMem different).pointIds _ isDrawn' isDrawn

end Owners

theorem filter_map_of_fixed {α : Type} {list : List α} {change : α → α} {keep : α → Bool}
    (fixed : ∀ element ∈ list, keep (change element) = keep element ∧
      (keep element = true → change element = element)) :
    (list.map change).filter keep = list.filter keep := by
  induction list with
  | nil => rfl
  | cons head rest ih =>
      rcases fixed head List.mem_cons_self with ⟨same, fixedHead⟩
      have later := ih fun element membership => fixed element (List.mem_cons_of_mem _ membership)
      rw [List.map_cons, List.filter_cons, List.filter_cons, later, same]
      split
      · next kept => rw [fixedHead kept]
      · rfl

/-- Dropping what is not kept anyway. -/
theorem filter_drop {α : Type} {list : List α} {keep drop : α → Bool}
    (apart : ∀ element ∈ list, keep element = true → drop element = false) :
    (list.filter fun element => !drop element).filter keep = list.filter keep := by
  rw [List.filter_filter]
  apply List.filter_congr
  intro element membership
  cases kept : keep element with
  | false => rfl
  | true => rw [apart element membership kept]; rfl

theorem filter_append_nil {α : Type} {list more : List α} {keep : α → Bool}
    (foreign : ∀ element ∈ more, keep element = false) :
    (list ++ more).filter keep = list.filter keep := by
  have nothing : more.filter keep = [] := by
    apply List.filter_eq_nil_iff.mpr
    intro element membership
    rw [foreign element membership]
    exact Bool.false_ne_true
  rw [List.filter_append, nothing, List.append_nil]

/-- A step changes nothing of what belongs to other documents. -/
theorem Stores.Writes.only_eq {uploads : List Upload} {upload : Upload} {before after : Stores Scalar}
    (writes : before.Writes upload after) (held : before.Held uploads)
    (drawn : uploads.Pairwise Upload.Apart) (known : upload ∈ uploads)
    {keep : ObjectId → UserId → Bool} (foreign : keep upload.id upload.ownerId = false) :
    after.only keep = before.only keep := by
  have foreignRow : ∀ {document : KnowledgeDocument}, document.Of upload →
      keep document.id document.ownerId = false := by
    intro document isOf
    rw [isOf.id, isOf.ownerId, foreign]
  have apart : ∀ {id : ObjectId} {ownerId : UserId} {gone : Bool},
      (id = upload.id → ownerId = upload.ownerId) → keep id ownerId = true →
        (id == upload.id && gone) = false := by
    intro id ownerId gone isOwner kept
    cases same : id == upload.id with
    | false => rfl
    | true =>
        have isId := beq_iff_eq.mp same
        rw [isId, isOwner isId, foreign] at kept
        cases kept
  cases writes with
  | nothing => rfl
  | @row document isOf =>
      have rows : (before.documents ++ [document]).filter (fun row => keep row.id row.ownerId) =
          before.documents.filter fun row => keep row.id row.ownerId := by
        apply filter_append_nil
        intro row membership
        rw [List.mem_singleton.mp membership]
        exact foreignRow isOf
      rw [only, only, rows]
  | @saved document isOf =>
      have rows : (updateRow before.documents document.id fun _ => document).filter
            (fun row => keep row.id row.ownerId) =
          before.documents.filter fun row => keep row.id row.ownerId := by
        apply filter_map_of_fixed
        intro row membership
        split
        · next isId =>
          have owner := held.row_owner drawn known membership (isId.trans isOf.id)
          rw [foreignRow isOf, isId, isOf.id, owner, foreign]
          exact ⟨rfl, fun absurdity => by cases absurdity⟩
        · exact ⟨rfl, fun _ => rfl⟩
      rw [only, only, IngestCall.save, rows]
  | @chunks model more isMore =>
      have rows : (before.chunks ++ more).filter
            (fun chunk => keep chunk.documentId chunk.ownerId) =
          before.chunks.filter fun chunk => keep chunk.documentId chunk.ownerId := by
        apply filter_append_nil
        intro chunk membership
        rcases Upload.documentId_of_mem_chunks (isMore chunk membership) with ⟨isId, owner, _⟩
        rw [isId, owner, foreign]
      rw [only, only, rows]
  | @points embedder more isMore =>
      have rows : (upsert before.points more).filter
            (fun point => keep point.documentId point.ownerId) =
          before.points.filter fun point => keep point.documentId point.ownerId := by
        rw [upsert, filter_append_nil]
        · apply filter_drop
          intro point membership kept
          apply List.any_eq_false.mpr
          intro new newMem same
          rw [Bool.and_eq_true, beq_iff_eq, beq_iff_eq] at same
          refine held.point_id_ne drawn known membership ?_ (isMore new newMem) same.2
          intro isId
          rw [isId, held.point_owner drawn known membership isId, foreign] at kept
          cases kept
        · intro point membership
          rcases Upload.of_mem_points (isMore point membership) with ⟨isId, owner, _⟩
          rw [isId, owner, foreign]
      rw [only, only, rows]
  | @fewerRows gone =>
      have rows : (before.documents.filter fun row => !(row.id == upload.id && gone row)).filter
            (fun row => keep row.id row.ownerId) =
          before.documents.filter fun row => keep row.id row.ownerId := by
        apply filter_drop
        exact fun row membership => apart (held.row_owner drawn known membership)
      rw [only, only, rows]
  | @fewerChunks gone =>
      have rows : (before.chunks.filter fun chunk =>
            !(chunk.documentId == upload.id && gone chunk)).filter
            (fun chunk => keep chunk.documentId chunk.ownerId) =
          before.chunks.filter fun chunk => keep chunk.documentId chunk.ownerId := by
        apply filter_drop
        exact fun chunk membership => apart (held.chunk_owner drawn known membership)
      rw [only, only, rows]
  | @fewerPoints gone =>
      have rows : (before.points.filter fun point =>
            !(point.documentId == upload.id && gone point)).filter
            (fun point => keep point.documentId point.ownerId) =
          before.points.filter fun point => keep point.documentId point.ownerId := by
        apply filter_drop
        exact fun point membership => apart (held.point_owner drawn known membership)
      rw [only, only, rows]

namespace KnowledgeBase

structure Inv (base : KnowledgeBase Scalar) : Prop where
  drawn : base.uploads.Pairwise Upload.Apart
  held : base.toStores.Held base.uploads
  ingests : ∀ id call, base.calls id = some (.ingest call) → call.Ok ∧ call.upload ∈ base.uploads
  deletes : ∀ id call, base.calls id = some (.delete call) → call.Ok base.uploads
  /-- no two calls work on one upload -/
  one : ∀ left right call call', base.calls left = some (.ingest call) →
    base.calls right = some (.ingest call') → call.upload.id = call'.upload.id → left = right

/-- What a step of a call does. -/
inductive Steps (base : KnowledgeBase Scalar) :
    KnowledgeCall Scalar → Stores Scalar → KnowledgeCall Scalar → Prop where
  | ingest {call next : IngestCall Scalar} {after : Stores Scalar} :
      base.toStores.Writes call.upload after → call.Continues next →
      Steps base (.ingest call) after (.ingest next)
  | delete {call next : DeleteCall} {after : Stores Scalar} :
      call.Steps base.uploads base.toStores after next →
      Steps base (.delete call) after (.delete next)

variable {base next : KnowledgeBase Scalar}

/-- A step of the knowledge base. -/
inductive Moved (retriever : Retriever Scalar) (base : KnowledgeBase Scalar) :
    Action Scalar → KnowledgeBase Scalar → Prop where
  | ingest {call : ℕ} {embedder : Embedder Scalar} {upload : Upload} :
      base.calls call = none → upload.drawsFresh base.uploads = true →
      Moved retriever base (.ingest call embedder upload)
        { base with
          uploads := upload :: base.uploads
          calls := Function.update base.calls call (some (.ingest (.start embedder upload))) }
  | delete {call : ℕ} {user : User} {documentId : ObjectId} :
      base.calls call = none →
      Moved retriever base (.delete call user documentId)
        { base with
          calls := Function.update base.calls call (some (.delete ⟨user, documentId, .reading⟩)) }
  | advanced {call : ℕ} {running later : KnowledgeCall Scalar} {stores : Stores Scalar} :
      base.calls call = some running → running.advance base.toStores = some (stores, later) →
      Moved retriever base (.advance call) (base.after call (stores, later))
  | failed {call : ℕ} {running later : KnowledgeCall Scalar} {stores : Stores Scalar}
      {message : String} {part : Part Scalar} :
      base.calls call = some running →
      running.fail base.toStores message part = some (stores, later) →
      Moved retriever base (.fail call message part) (base.after call (stores, later))
  | asked {question : Question Scalar} {hits : List (Hit Scalar)} :
      hits = retrieve retriever question.embedder base.points question.ownerId question.question
        retriever.topK →
      Moved retriever base (.ask question)
        { base with
          asked := ⟨question, hits, (answer question hits).1, (answer question hits).2⟩ ::
            base.asked }

theorem moved_of_step {retriever : Retriever Scalar} {action : Action Scalar}
    (taken : step retriever base action = some next) : Moved retriever base action next := by
  cases action with
  | ingest call embedder upload =>
      simp only [step, begin] at taken
      split at taken
      · next fresh =>
        split at taken
        · next idle =>
          cases taken
          exact .ingest idle fresh
        · cases taken
      · cases taken
  | delete call user documentId =>
      simp only [step, begin] at taken
      split at taken
      · next idle =>
        cases taken
        exact .delete idle
      · cases taken
  | advance call =>
      rcases Option.bind_eq_some_iff.mp taken with ⟨running, isCall, ran⟩
      rcases Option.map_eq_some_iff.mp ran with ⟨⟨stores, later⟩, advanced, rfl⟩
      exact .advanced isCall advanced
  | fail call message part =>
      rcases Option.bind_eq_some_iff.mp taken with ⟨running, isCall, ran⟩
      rcases Option.map_eq_some_iff.mp ran with ⟨⟨stores, later⟩, failed, rfl⟩
      exact .failed isCall failed
  | ask question =>
      cases taken
      exact .asked rfl

theorem Inv.steps_of_advance (inv : base.Inv) {call : ℕ} {running later : KnowledgeCall Scalar}
    {stores : Stores Scalar} (isCall : base.calls call = some running)
    (taken : running.advance base.toStores = some (stores, later)) :
    base.Steps running stores later := by
  cases running with
  | ingest running =>
      rcases Option.map_eq_some_iff.mp taken with ⟨⟨after, next⟩, advanced, isPair⟩
      cases isPair
      rcases IngestCall.advance_writes (inv.ingests call running isCall).1 advanced with
        ⟨writes, continues⟩
      exact .ingest writes continues
  | delete running =>
      rcases Option.map_eq_some_iff.mp taken with ⟨⟨after, next⟩, advanced, isPair⟩
      cases isPair
      exact .delete (DeleteCall.advance_steps (inv.deletes call running isCall) advanced)

theorem Inv.steps_of_fail (inv : base.Inv) {call : ℕ} {running later : KnowledgeCall Scalar}
    {stores : Stores Scalar} {message : String} {part : Part Scalar}
    (isCall : base.calls call = some running)
    (taken : running.fail base.toStores message part = some (stores, later)) :
    base.Steps running stores later := by
  cases running with
  | ingest running =>
      rcases Option.map_eq_some_iff.mp taken with ⟨⟨after, next⟩, failed, isPair⟩
      cases isPair
      rcases IngestCall.fail_writes (inv.ingests call running isCall).1 failed with
        ⟨writes, continues⟩
      exact .ingest writes continues
  | delete running =>
      rcases Option.map_eq_some_iff.mp taken with ⟨⟨after, next⟩, failed, isPair⟩
      cases isPair
      exact .delete (DeleteCall.fail_steps (inv.deletes call running isCall) failed)

/-! ## Every step keeps the invariant -/

theorem Inv.held_after (inv : base.Inv) {call : ℕ} {running later : KnowledgeCall Scalar}
    {stores : Stores Scalar} (isCall : base.calls call = some running)
    (steps : base.Steps running stores later) : stores.Held base.uploads := by
  cases steps with
  | ingest writes _ => exact writes.held (inv.ingests call _ isCall).2 inv.held
  | delete steps =>
      cases steps with
      | missed | read => exact inv.held
      | writes _ _ _ known _ writes => exact writes.held known inv.held

/-- A call after a change of one of them. -/
theorem update_eq_some {calls : ℕ → Option (KnowledgeCall Scalar)} {call other : ℕ}
    {changed found : KnowledgeCall Scalar}
    (isCall : Function.update calls call (some changed) other = some found) :
    other = call ∧ found = changed ∨ other ≠ call ∧ calls other = some found := by
  by_cases same : other = call
  · subst same
    rw [Function.update_self] at isCall
    exact .inl ⟨rfl, (Option.some.inj isCall).symm⟩
  · rw [Function.update_of_ne same] at isCall
    exact .inr ⟨same, isCall⟩

theorem Inv.after (inv : base.Inv) {call : ℕ} {running later : KnowledgeCall Scalar}
    {stores : Stores Scalar} (isCall : base.calls call = some running)
    (steps : base.Steps running stores later) : (base.after call (stores, later)).Inv where
  drawn := inv.drawn
  held := inv.held_after isCall steps
  ingests := by
    intro id ingest found
    rcases update_eq_some found with ⟨rfl, rfl⟩ | ⟨_, was⟩
    · cases steps with
      | ingest writes continues =>
          refine ⟨continues.ok, ?_⟩
          rw [continues.upload]
          exact (inv.ingests _ _ isCall).2
    · exact inv.ingests id ingest was
  deletes := by
    intro id delete found
    rcases update_eq_some found with ⟨rfl, rfl⟩ | ⟨_, was⟩
    · cases steps with
      | delete steps => exact steps.ok inv.held (inv.deletes _ _ isCall)
    · exact inv.deletes id delete was
  one := by
    -- the upload of a call stays the same
    have before : ∀ id ingest, (base.after call (stores, later)).calls id = some (.ingest ingest) →
        ∃ earlier, base.calls id = some (.ingest earlier) ∧ ingest.upload = earlier.upload := by
      intro id ingest found
      rcases update_eq_some found with ⟨rfl, rfl⟩ | ⟨_, was⟩
      · cases steps with
        | ingest writes continues => exact ⟨_, isCall, continues.upload⟩
      · exact ⟨ingest, was, rfl⟩
    intro left right ingest ingest' isLeft isRight same
    rcases before left ingest isLeft with ⟨earlier, wasLeft, upload⟩
    rcases before right ingest' isRight with ⟨earlier', wasRight, upload'⟩
    rw [upload, upload'] at same
    exact inv.one left right earlier earlier' wasLeft wasRight same

theorem Inv.moved {retriever : Retriever Scalar} {action : Action Scalar} (inv : base.Inv)
    (moved : Moved retriever base action next) : next.Inv := by
  cases moved with
  | @ingest call embedder upload idle fresh =>
      rcases Upload.drawsFresh_iff.mp fresh with ⟨_, apart⟩
      have subset : base.uploads ⊆ upload :: base.uploads := List.subset_cons_self _ _
      refine ⟨List.pairwise_cons.mpr ⟨apart, inv.drawn⟩, inv.held.mono subset, ?_, ?_, ?_⟩
      · intro id ingest found
        rcases update_eq_some found with ⟨rfl, isStart⟩ | ⟨_, was⟩
        · cases isStart
          exact ⟨IngestCall.start_ok embedder upload, List.mem_cons_self⟩
        · exact (inv.ingests id ingest was).imp_right fun known => subset known
      · intro id delete found
        rcases update_eq_some found with ⟨_, absurdity⟩ | ⟨_, was⟩
        · cases absurdity
        · exact (inv.deletes id delete was).mono subset
      · intro left right ingest ingest' isLeft isRight same
        rcases update_eq_some isLeft with ⟨rfl, isStart⟩ | ⟨_, wasLeft⟩
        · rcases update_eq_some isRight with ⟨rfl, _⟩ | ⟨_, wasRight⟩
          · rfl
          · cases isStart
            exact absurd same (apart _ (inv.ingests right ingest' wasRight).2).id
        · rcases update_eq_some isRight with ⟨rfl, isStart⟩ | ⟨_, wasRight⟩
          · cases isStart
            exact absurd same.symm (apart _ (inv.ingests left ingest wasLeft).2).id
          · exact inv.one left right ingest ingest' wasLeft wasRight same
  | @delete call user documentId idle =>
      refine ⟨inv.drawn, inv.held, ?_, ?_, ?_⟩
      · intro id ingest found
        rcases update_eq_some found with ⟨_, absurdity⟩ | ⟨_, was⟩
        · cases absurdity
        · exact inv.ingests id ingest was
      · intro id delete found
        rcases update_eq_some found with ⟨_, isNew⟩ | ⟨_, was⟩
        · cases isNew
          intro document absurdity
          cases absurdity
        · exact inv.deletes id delete was
      · intro left right ingest ingest' isLeft isRight same
        rcases update_eq_some isLeft with ⟨_, absurdity⟩ | ⟨_, wasLeft⟩
        · cases absurdity
        · rcases update_eq_some isRight with ⟨_, absurdity⟩ | ⟨_, wasRight⟩
          · cases absurdity
          · exact inv.one left right ingest ingest' wasLeft wasRight same
  | advanced isCall taken => exact inv.after isCall (inv.steps_of_advance isCall taken)
  | failed isCall taken => exact inv.after isCall (inv.steps_of_fail isCall taken)
  | asked => exact ⟨inv.drawn, inv.held, inv.ingests, inv.deletes, inv.one⟩

/-- The invariant holds in every state of every schedule. -/
theorem inv_of_reachableBy {retriever : Retriever Scalar}
    {allowed : KnowledgeBase Scalar → Action Scalar → Prop}
    (reachable : (knowledgeSystem retriever).ReachableBy allowed base) : base.Inv := by
  apply reachable.invariant
  · refine ⟨.nil, ⟨?_, ?_, ?_⟩, ?_, ?_, ?_⟩
    · exact List.forall_mem_nil _
    · exact List.forall_mem_nil _
    · exact List.forall_mem_nil _
    · intro id call absurdity
      cases absurdity
    · intro id call absurdity
      cases absurdity
    · intro left right call call' absurdity
      cases absurdity
  · intro state action next inv _ taken
    exact inv.moved (moved_of_step taken)

end KnowledgeBase

end WorkflowEngine.Rag
