import WorkflowEngine.Rag.Pipeline

/-!
# What two calls on one document do

How far the two calls are decides what the stores hold of the document.
-/

namespace WorkflowEngine.Rag

variable {Scalar : Type}

namespace Ingest

def ended : Ingest → Bool
  | .returned | .threw => true
  | _ => false

/-- No chunk has been inserted, or all have been deleted again. -/
def chunkless : Ingest → Bool
  | .creating | .embedding | .cleaningChunks none | .cleaningVectors _ | .savingFailed
  | .threw => true
  | _ => false

/-- No point has been upserted, or all have been deleted again. -/
def pointless : Ingest → Bool
  | .creating | .embedding | .upserting | .cleaningChunks none | .savingFailed | .threw => true
  | _ => false

/-- The dimension of the vectors that are about to be deleted. -/
def dims? : Ingest → Option Nat
  | .cleaningChunks dims => dims
  | .cleaningVectors dims => some dims
  | _ => none

end Ingest

namespace Delete

def ended : Delete → Bool
  | .returned | .threw => true
  | _ => false

/-- The row that the call has read and is about to delete. -/
def document? : Delete → Option KnowledgeDocument
  | .deletingVectors document | .deletingChunks document | .deletingRow document => some document
  | _ => none

end Delete

namespace Knowledge

/-- The row is saved READY while a call that read it before is about to delete it. -/
def outdates (knowledge : Knowledge Scalar) : Party → Bool
  | .ingest => decide (knowledge.ingest = .saving) && knowledge.delete.document?.isSome
  | .delete => false

/-- What the two calls have done so far. -/
structure Inv (embedder : Embedder Scalar) (id : ObjectId) (knowledge : Knowledge Scalar) :
    Prop where
  collected : ∀ point ∈ knowledge.points, point.documentId = id →
    point.collection = collectionName embedder.model embedder.dims
  models : ∀ document ∈ knowledge.documents, document.id = id →
    document.embeddingModel = embedder.model
  saved : ∀ document ∈ knowledge.documents, document.id = id → knowledge.ingest = .returned →
    document.status = .ready ∧ document.vectorDims = some embedder.dims
  unsaved : ∀ document ∈ knowledge.documents, document.id = id → knowledge.ingest ≠ .returned →
    document.vectorDims = none
  chunkless : knowledge.ingest.chunkless = true → knowledge.Chunkless id
  pointless : knowledge.ingest.pointless = true → knowledge.Pointless id
  dims : ∀ dims, knowledge.ingest.dims? = some dims → dims = embedder.dims
  early : knowledge.ingest = .creating → knowledge.delete = .reading ∨ knowledge.delete = .threw
  absent : knowledge.ingest = .creating → ∀ document ∈ knowledge.documents, document.id ≠ id
  named : ∀ document, knowledge.delete.document? = some document → document.id = id
  read : ∀ document, knowledge.delete = .deletingVectors document →
    document.embeddingModel = embedder.model ∧ document.vectorDims = some embedder.dims
  kept : knowledge.ingest = .returned →
    knowledge.delete = .reading ∨ knowledge.delete = .threw →
      ∃ document ∈ knowledge.documents, document.id = id ∧ document.status = .ready
  unpointed : knowledge.ingest = .returned →
    (∃ document, knowledge.delete = .deletingChunks document ∨
      knowledge.delete = .deletingRow document) ∨ knowledge.delete = .returned →
        knowledge.Pointless id
  unchunked : knowledge.ingest = .returned →
    (∃ document, knowledge.delete = .deletingRow document) ∨ knowledge.delete = .returned →
      knowledge.Chunkless id
  gone : knowledge.delete = .returned → ∀ document ∈ knowledge.documents, document.id ≠ id

theorem inv_init {embedder : Embedder Scalar} {upload : Upload} {scope : Option UserId}
    {stores : Stores Scalar} (fresh : stores.Fresh upload.id) :
    Inv embedder upload.id (knowledgeBase embedder upload scope stores).init where
  collected point membership same := absurd same (fresh.points point membership)
  models document membership same := absurd same (fresh.documents document membership)
  saved _ _ _ := nofun
  unsaved document membership same := absurd same (fresh.documents document membership)
  chunkless _ := fresh.chunks
  pointless _ := fresh.points
  dims _ := nofun
  early _ := .inl rfl
  absent _ := fresh.documents
  named _ := nofun
  read _ := nofun
  kept := nofun
  unpointed := nofun
  unchunked := nofun
  gone := nofun

/-- When both calls have ended, what is left of the document is searchable. -/
theorem Inv.searchable {embedder : Embedder Scalar} {id : ObjectId}
    {knowledge : Knowledge Scalar} (inv : knowledge.Inv embedder id)
    (ingested : knowledge.ingest.ended = true) (deleted : knowledge.delete.ended = true) :
    knowledge.Searchable id := by
  cases ingest : knowledge.ingest with
  | returned =>
      cases delete : knowledge.delete with
      | returned => exact .inl ⟨inv.unpointed ingest (.inr delete), inv.unchunked ingest (.inr delete)⟩
      | threw => exact .inr (inv.kept ingest (.inr delete))
      | _ => rw [delete] at deleted; cases deleted
  | threw => exact .inl ⟨inv.pointless (by rw [ingest]; rfl), inv.chunkless (by rw [ingest]; rfl)⟩
  | _ => rw [ingest] at ingested; cases ingested

end Knowledge

namespace Upload

theorem mem_points {upload : Upload} {embedder : Embedder Scalar} {point : Point Scalar}
    (membership : point ∈ upload.points embedder) :
    point.collection = collectionName embedder.model embedder.dims := by
  rcases List.mem_map.mp membership with ⟨chunk, _, rfl⟩
  rfl

end Upload

namespace Knowledge

namespace Inv

variable {embedder : Embedder Scalar} {upload : Upload} {scope : Option UserId}
  {knowledge next : Knowledge Scalar} (inv : knowledge.Inv embedder upload.id)
include inv

/-- A step of `ingest` that does not save the row READY. -/
theorem pending {stores : Stores Scalar} {ingest : Ingest} (unsaved : ingest ≠ .returned)
    (created : ingest ≠ .creating)
    (collected : ∀ point ∈ stores.points, point.documentId = upload.id →
      point.collection = collectionName embedder.model embedder.dims)
    (rows : ∀ document ∈ stores.documents, document.id = upload.id →
      document.embeddingModel = embedder.model ∧ document.vectorDims = none)
    (gone : knowledge.delete = .returned → ∀ document ∈ stores.documents, document.id ≠ upload.id)
    (chunkless : ingest.chunkless = true → stores.Chunkless upload.id)
    (pointless : ingest.pointless = true → stores.Pointless upload.id)
    (dims : ∀ dims, ingest.dims? = some dims → dims = embedder.dims) :
    Inv embedder upload.id { stores with ingest, delete := knowledge.delete } where
  collected := collected
  models document membership same := (rows document membership same).1
  saved _ _ _ ended := absurd ended unsaved
  unsaved document membership same _ := (rows document membership same).2
  chunkless := chunkless
  pointless := pointless
  dims := dims
  early begun := absurd begun created
  absent begun := absurd begun created
  named := inv.named
  read := inv.read
  kept ended := absurd ended unsaved
  unpointed ended := absurd ended unsaved
  unchunked ended := absurd ended unsaved
  gone := gone

/-- The row of the document before it is saved. -/
theorem rows (unsaved : knowledge.ingest ≠ .returned) :
    ∀ document ∈ knowledge.documents, document.id = upload.id →
      document.embeddingModel = embedder.model ∧ document.vectorDims = none :=
  fun document membership same =>
    ⟨inv.models document membership same, inv.unsaved document membership same unsaved⟩

/-- The row is saved READY, and no other call is about to delete it. -/
theorem save {set : KnowledgeDocument → KnowledgeDocument}
    (waiting : knowledge.delete.document? = none)
    (present : ∃ row ∈ knowledge.documents, row.id = upload.id)
    (sets : ∀ document, (set document).id = document.id ∧
      (set document).embeddingModel = document.embeddingModel ∧
        (set document).status = .ready ∧ (set document).vectorDims = some embedder.dims) :
    Inv embedder upload.id { knowledge with
      documents := updateRow knowledge.documents upload.id set, ingest := .returned } := by
  rcases present with ⟨row, rowMem, rowId⟩
  have source : ∀ document ∈ updateRow knowledge.documents upload.id set,
      document.id = upload.id → ∃ source ∈ knowledge.documents, source.id = upload.id ∧
        document = set source := by
    intro document membership same
    rcases mem_updateRow membership with ⟨source, sourceMem, moved | ⟨_, other⟩⟩
    · exact ⟨source, sourceMem, moved⟩
    · exact absurd same other
  have notDeleted : knowledge.delete ≠ .returned :=
    fun deleted => inv.gone deleted row rowMem rowId
  have notDeleting : ∀ document, knowledge.delete.document? ≠ some document := by
    intro document deleting
    cases waiting.symm.trans deleting
  exact {
    collected := inv.collected
    models := fun document membership same => by
      rcases source document membership same with ⟨before, beforeMem, isId, rfl⟩
      rw [(sets before).2.1]
      exact inv.models before beforeMem isId
    saved := fun document membership same _ => by
      rcases source document membership same with ⟨before, _, _, rfl⟩
      exact (sets before).2.2
    unsaved := fun _ _ _ pending => absurd rfl pending
    chunkless := nofun
    pointless := nofun
    dims := fun _ => nofun
    early := nofun
    absent := nofun
    named := inv.named
    read := fun document deleting => absurd (by rw [deleting]; rfl) (notDeleting document)
    kept := fun _ _ => by
      refine ⟨set row, List.mem_map.mpr ⟨row, rowMem, if_pos rowId⟩, ?_, (sets row).2.2.1⟩
      exact (sets row).1.trans rowId
    unpointed := fun _ late => by
      rcases late with ⟨document, deleting | deleting⟩ | deleted
      · exact absurd (by rw [deleting]; rfl) (notDeleting document)
      · exact absurd (by rw [deleting]; rfl) (notDeleting document)
      · exact absurd deleted notDeleted
    unchunked := fun _ late => by
      rcases late with ⟨document, deleting⟩ | deleted
      · exact absurd (by rw [deleting]; rfl) (notDeleting document)
      · exact absurd deleted notDeleted
    gone := fun deleted => absurd deleted notDeleted }

theorem ingestStep (kept : knowledge.outdates .ingest = false)
    (taken : knowledge.ingestStep embedder upload = some next) : next.Inv embedder upload.id := by
  rcases knowledge with ⟨stores, ingest, delete⟩
  cases ingest with
  | creating =>
      simp only [Knowledge.ingestStep] at taken
      split at taken
      · cases taken
        exact inv.pending nofun nofun inv.collected (inv.rows nofun) inv.gone
          (fun _ => inv.chunkless rfl) (fun _ => inv.pointless rfl) fun _ => nofun
      · cases taken
        have created : ∀ document ∈ stores.documents ++ [upload.document embedder.model],
            document.id = upload.id → document = upload.document embedder.model := by
          intro document membership same
          rcases List.mem_append.mp membership with before | new
          · exact absurd same (inv.absent rfl document before)
          · exact List.mem_singleton.mp new
        have notDeleted : delete ≠ .returned := by
          rcases inv.early rfl with reading | threw
          · exact fun deleted => by cases reading.symm.trans deleted
          · exact fun deleted => by cases threw.symm.trans deleted
        refine inv.pending (by nofun) (by nofun) inv.collected ?_
          (fun deleted => absurd deleted notDeleted) (fun _ => inv.chunkless rfl)
          (fun _ => inv.pointless rfl) (by nofun)
        intro document membership same
        rw [created document membership same]
        exact ⟨rfl, rfl⟩
  | embedding =>
      simp only [Knowledge.ingestStep] at taken
      split at taken
      · cases taken
        exact inv.pending nofun nofun inv.collected (inv.rows nofun) inv.gone
          (fun _ => inv.chunkless rfl) (fun _ => inv.pointless rfl) fun _ => nofun
      · cases taken
        exact inv.pending nofun nofun inv.collected (inv.rows nofun) inv.gone nofun
          (fun _ => inv.pointless rfl) fun _ => nofun
  | upserting =>
      cases taken
      refine inv.pending (by nofun) (by nofun) ?_ (inv.rows nofun) inv.gone (by nofun) (by nofun)
        (by nofun)
      intro point membership same
      rcases mem_upsert membership with before | new
      · exact inv.collected point before same
      · exact Upload.mem_points new
  | saving =>
      have waiting : delete.document? = none := by
        simpa [outdates] using kept
      simp only [Knowledge.ingestStep] at taken
      split at taken
      · next present =>
        cases taken
        rcases List.any_eq_true.mp present with ⟨row, rowMem, isRow⟩
        exact inv.save waiting ⟨row, rowMem, beq_iff_eq.mp isRow⟩ fun _ => ⟨rfl, rfl, rfl, rfl⟩
      · cases taken
        exact inv.pending nofun nofun inv.collected (inv.rows nofun) inv.gone nofun nofun
          fun _ isDims => (Option.some.inj isDims).symm
  | cleaningChunks dims =>
      cases taken
      have deleted : Stores.Chunkless { stores with
          chunks := stores.chunks.filter fun chunk => chunk.documentId != upload.id } upload.id :=
        fun chunk membership => bne_iff_ne.mp (List.mem_filter.mp membership).2
      cases dims with
      | none =>
          exact inv.pending nofun nofun inv.collected (inv.rows nofun) inv.gone
            (fun _ => deleted) (fun _ => inv.pointless rfl) fun _ => nofun
      | some dims =>
          exact inv.pending nofun nofun inv.collected (inv.rows nofun) inv.gone
            (fun _ => deleted) nofun fun _ isDims => inv.dims _ isDims
  | cleaningVectors dims =>
      cases taken
      cases inv.dims dims rfl
      refine inv.pending (by nofun) (by nofun) ?_ (inv.rows nofun) inv.gone
        (fun _ => inv.chunkless rfl) ?_ (by nofun)
      · intro point membership same
        exact inv.collected point (mem_deleteByDocument membership).1 same
      · intro _ point membership same
        have before := mem_deleteByDocument membership
        exact before.2 (inv.collected point before.1 same) same
  | savingFailed =>
      cases taken
      refine inv.pending (by nofun) (by nofun) inv.collected ?_ ?_ (fun _ => inv.chunkless rfl)
        (fun _ => inv.pointless rfl) (by nofun)
      · intro document membership same
        rcases mem_updateRow membership with ⟨source, sourceMem, ⟨isId, rfl⟩ | ⟨_, other⟩⟩
        · exact inv.rows nofun source sourceMem isId
        · exact absurd same other
      · intro deleted document membership same
        rcases mem_updateRow membership with ⟨source, sourceMem, ⟨isId, rfl⟩ | ⟨_, other⟩⟩
        · exact inv.gone deleted source sourceMem isId
        · exact absurd same other
  | returned => cases taken
  | threw => cases taken

/-- A step of `deleteDocument` removes rows, chunks and points, and adds none. -/
theorem removed {stores : Stores Scalar} {delete : Delete}
    (documents : stores.documents ⊆ knowledge.documents)
    (chunks : stores.chunks ⊆ knowledge.chunks) (points : stores.points ⊆ knowledge.points)
    (early : knowledge.ingest = .creating → delete = .threw)
    (named : ∀ document, delete.document? = some document → document.id = upload.id)
    (read : ∀ document, delete = .deletingVectors document →
      document.embeddingModel = embedder.model ∧ document.vectorDims = some embedder.dims)
    (kept : knowledge.ingest = .returned → delete = .reading ∨ delete = .threw →
      ∃ document ∈ stores.documents, document.id = upload.id ∧ document.status = .ready)
    (unpointed : knowledge.ingest = .returned →
      (∃ document, delete = .deletingChunks document ∨ delete = .deletingRow document) ∨
        delete = .returned → stores.Pointless upload.id)
    (unchunked : knowledge.ingest = .returned →
      (∃ document, delete = .deletingRow document) ∨ delete = .returned →
        stores.Chunkless upload.id)
    (gone : delete = .returned → ∀ document ∈ stores.documents, document.id ≠ upload.id) :
    Inv embedder upload.id { stores with ingest := knowledge.ingest, delete } where
  collected point membership := inv.collected point (points membership)
  models document membership := inv.models document (documents membership)
  saved document membership := inv.saved document (documents membership)
  unsaved document membership := inv.unsaved document (documents membership)
  chunkless none chunk membership := inv.chunkless none chunk (chunks membership)
  pointless none point membership := inv.pointless none point (points membership)
  dims := inv.dims
  early creating := .inr (early creating)
  absent creating document membership := inv.absent creating document (documents membership)
  named := named
  read := read
  kept := kept
  unpointed := unpointed
  unchunked := unchunked
  gone := gone

/-- Past its first read the call of `deleteDocument` has seen the row. -/
theorem created (deleting : knowledge.delete ≠ .reading) (found : knowledge.delete ≠ .threw) :
    knowledge.ingest ≠ .creating := by
  intro creating
  cases inv.early creating with
  | inl reading => exact deleting reading
  | inr threw => exact found threw

theorem deleteStep (taken : knowledge.deleteStep upload scope = some next) :
    next.Inv embedder upload.id := by
  rcases knowledge with ⟨stores, ingest, delete⟩
  cases delete with
  | reading =>
      simp only [Knowledge.deleteStep] at taken
      split at taken
      · cases taken
        exact inv.removed (List.Subset.refl _) (List.Subset.refl _) (List.Subset.refl _)
          (fun _ => rfl) nofun nofun (fun ended _ => inv.kept ended (.inl rfl))
          (by rintro _ (⟨_, absurdity | absurdity⟩ | absurdity) <;> cases absurdity)
          (by rintro _ (⟨_, absurdity⟩ | absurdity) <;> cases absurdity) nofun
      · next document found =>
        cases taken
        have membership : document ∈ stores.documents := List.mem_of_find?_eq_some found
        have isId : document.id = upload.id := by
          have matched := List.find?_some found
          exact beq_iff_eq.mp (Bool.and_eq_true_iff.mp matched).1
        have present : ingest ≠ .creating :=
          fun creating => inv.absent creating document membership isId
        by_cases vectors : hasVectors document
        · -- A row with a dimension has been saved READY.
          have ended : ingest = .returned := by
            by_contra unsaved
            rw [hasVectors, inv.unsaved document membership isId unsaved] at vectors
            cases vectors
          rw [if_pos vectors]
          refine inv.removed (List.Subset.refl _) (List.Subset.refl _) (List.Subset.refl _)
            (fun creating => absurd creating present) ?_ ?_ ?_ ?_ ?_ nofun
          · intro _ same
            cases same
            exact isId
          · intro _ same
            cases same
            exact ⟨inv.models document membership isId,
              (inv.saved document membership isId ended).2⟩
          · rintro _ (absurdity | absurdity) <;> cases absurdity
          · rintro _ (⟨_, absurdity | absurdity⟩ | absurdity) <;> cases absurdity
          · rintro _ (⟨_, absurdity⟩ | absurdity) <;> cases absurdity
        · have pending : ingest ≠ .returned := by
            intro ended
            rw [hasVectors, (inv.saved document membership isId ended).2] at vectors
            exact vectors (decide_eq_true (Nat.ne_of_gt embedder.positive))
          rw [if_neg vectors]
          refine inv.removed (List.Subset.refl _) (List.Subset.refl _) (List.Subset.refl _)
            (fun creating => absurd creating present) ?_ nofun
            (fun ended => absurd ended pending) (fun ended => absurd ended pending)
            (fun ended => absurd ended pending) nofun
          intro _ same
          cases same
          exact isId
  | deletingVectors document =>
      cases taken
      have row := inv.read document rfl
      have isId : document.id = upload.id := inv.named document rfl
      refine inv.removed (List.Subset.refl _) (List.Subset.refl _)
        (fun _ membership => (mem_deleteByDocument membership).1)
        (fun creating => absurd creating (inv.created nofun nofun)) ?_ nofun ?_ ?_ ?_ nofun
      · intro _ same
        cases same
        exact isId
      · rintro _ (absurdity | absurdity) <;> cases absurdity
      · intro _ _ point membership same
        have before := mem_deleteByDocument membership
        refine before.2 ?_ (same.trans isId.symm)
        rw [row.1, row.2]
        exact inv.collected point before.1 same
      · rintro _ (⟨_, absurdity⟩ | absurdity) <;> cases absurdity
  | deletingChunks document =>
      cases taken
      have isId : document.id = upload.id := inv.named document rfl
      refine inv.removed (List.Subset.refl _)
        (fun _ membership => (List.mem_filter.mp membership).1) (List.Subset.refl _)
        (fun creating => absurd creating (inv.created nofun nofun)) ?_ nofun ?_
        (fun ended _ => inv.unpointed ended (.inl ⟨document, .inl rfl⟩)) ?_ nofun
      · intro _ same
        cases same
        exact isId
      · rintro _ (absurdity | absurdity) <;> cases absurdity
      · intro _ _ chunk membership same
        exact bne_iff_ne.mp (List.mem_filter.mp membership).2 (same.trans isId.symm)
  | deletingRow document =>
      cases taken
      have isId : document.id = upload.id := inv.named document rfl
      refine inv.removed (fun _ membership => (List.mem_filter.mp membership).1)
        (List.Subset.refl _) (List.Subset.refl _)
        (fun creating => absurd creating (inv.created nofun nofun)) nofun nofun ?_
        (fun ended _ => inv.unpointed ended (.inl ⟨document, .inr rfl⟩))
        (fun ended _ => inv.unchunked ended (.inl ⟨document, rfl⟩)) ?_
      · rintro _ (absurdity | absurdity) <;> cases absurdity
      · intro _ other membership same
        exact bne_iff_ne.mp (List.mem_filter.mp membership).2 (same.trans isId.symm)
  | returned => cases taken
  | threw => cases taken

theorem step {stores : Stores Scalar} {party : Party} (kept : knowledge.outdates party = false)
    (taken : (knowledgeBase embedder upload scope stores).step knowledge party = some next) :
    next.Inv embedder upload.id := by
  cases party with
  | ingest => exact inv.ingestStep kept taken
  | delete => exact inv.deleteStep taken

end Inv

end Knowledge

end WorkflowEngine.Rag
