import WorkflowEngine.Foundations.Purge
import WorkflowEngine.Rag.Held

/-!
# Tenants of the knowledge base

What a user sees of the knowledge base is what they would see if they were alone: their
documents, chunks and vectors, the progress of their calls, and the answers to their
questions.
-/

namespace WorkflowEngine.Rag

variable {Scalar : Type}

/-! ## What belongs to a user -/

/-- The documents of one owner. -/
def Stores.ownedBy (stores : Stores Scalar) (owner : UserId) : Stores Scalar :=
  stores.only fun _ ownerId => ownerId == owner

def KnowledgeCall.madeBy (owner : UserId) : KnowledgeCall Scalar → Bool
  | .ingest call => call.upload.ownerId == owner
  | .delete call => call.user.id == owner

namespace KnowledgeBase

/-- The knowledge base of one user. -/
def ownedBy (owner : UserId) (base : KnowledgeBase Scalar) : KnowledgeBase Scalar where
  toStores := base.toStores.ownedBy owner
  calls id := (base.calls id).filter (KnowledgeCall.madeBy owner)
  uploads := base.uploads.filter fun upload => upload.ownerId == owner
  asked := base.asked.filter fun asked => asked.question.ownerId == owner

/-- The step is taken for this user. -/
def actsFor (owner : UserId) (base : KnowledgeBase Scalar) : Action Scalar → Bool
  | .ingest _ _ upload => upload.ownerId == owner
  | .delete _ user _ => user.id == owner
  | .advance call | .fail call _ _ => (base.calls call).any (KnowledgeCall.madeBy owner)
  | .ask question => question.ownerId == owner

/-- No admin deletes anything. -/
def tenantsOnly (_ : KnowledgeBase Scalar) : Action Scalar → Bool
  | .delete _ user _ => user.role != .admin
  | _ => true

end KnowledgeBase

/-! ## Operations on a user's part -/

section Commute

variable {owner : UserId} {stores : Stores Scalar}

theorem filter_comm {α : Type} (list : List α) (left right : α → Bool) :
    (list.filter left).filter right = (list.filter right).filter left := by
  rw [List.filter_filter, List.filter_filter]
  apply List.filter_congr
  intro element _
  exact Bool.and_comm _ _

theorem filter_append_self {α : Type} {list more : List α} {keep : α → Bool}
    (all : ∀ element ∈ more, keep element = true) :
    (list ++ more).filter keep = list.filter keep ++ more := by
  rw [List.filter_append, List.filter_eq_self.mpr all]

theorem Stores.ownedBy_filterRows (kept : KnowledgeDocument → Bool) :
    ({ stores with documents := stores.documents.filter kept } : Stores Scalar).ownedBy owner =
      { stores.ownedBy owner with documents := (stores.ownedBy owner).documents.filter kept } := by
  rw [ownedBy, only, filter_comm]
  rfl

theorem Stores.ownedBy_filterChunks (kept : KnowledgeChunk → Bool) :
    ({ stores with chunks := stores.chunks.filter kept } : Stores Scalar).ownedBy owner =
      { stores.ownedBy owner with chunks := (stores.ownedBy owner).chunks.filter kept } := by
  rw [ownedBy, only, filter_comm]
  rfl

theorem Stores.ownedBy_filterPoints (kept : Point Scalar → Bool) :
    ({ stores with points := stores.points.filter kept } : Stores Scalar).ownedBy owner =
      { stores.ownedBy owner with points := (stores.ownedBy owner).points.filter kept } := by
  rw [ownedBy, only, filter_comm]
  rfl

theorem Stores.ownedBy_deleteChunks (id : ObjectId) :
    ({ stores with chunks := deleteChunks stores.chunks id } : Stores Scalar).ownedBy owner =
      { stores.ownedBy owner with chunks := deleteChunks (stores.ownedBy owner).chunks id } :=
  ownedBy_filterChunks _

theorem Stores.ownedBy_deleteByDocument (model : String) (dims : ℕ) (id : ObjectId) :
    ({ stores with points := deleteByDocument stores.points model dims id } :
        Stores Scalar).ownedBy owner =
      { stores.ownedBy owner with
        points := deleteByDocument (stores.ownedBy owner).points model dims id } :=
  ownedBy_filterPoints _

end Commute

namespace IngestCall

variable {owner : UserId} {call next : IngestCall Scalar} {stores after : Stores Scalar}
  (ok : call.Ok) (mine : call.upload.ownerId = owner)
include ok mine

theorem duplicates_ownedBy :
    duplicates (stores.ownedBy owner) call.document = duplicates stores call.document := by
  rw [duplicates, duplicates, Stores.ownedBy, Stores.only, List.any_filter]
  congr 1
  funext other
  rw [ok.document.ownerId, mine]
  cases other.ownerId == owner <;> rfl

theorem create_ownedBy : (create stores call).ownedBy owner = create (stores.ownedBy owner) call := by
  have all : ∀ row ∈ [call.document], (row.ownerId == owner) = true := by
    intro row membership
    rw [List.mem_singleton.mp membership, ok.document.ownerId, mine]
    exact beq_self_eq_true owner
  rw [Stores.ownedBy, Stores.only, create, filter_append_self all]
  rfl

omit ok in
theorem insertChunks_ownedBy (inserted : KnowledgeChunk → Bool) :
    (insertChunks stores call inserted).ownedBy owner =
      insertChunks (stores.ownedBy owner) call inserted := by
  have all : ∀ chunk ∈ (call.upload.chunks call.embedder.model).filter inserted,
      (chunk.ownerId == owner) = true := by
    intro chunk membership
    have isMine := (Upload.documentId_of_mem_chunks (List.mem_filter.mp membership).1).2.1
    rw [isMine, mine]
    exact beq_self_eq_true owner
  rw [Stores.ownedBy, Stores.only, insertChunks, filter_append_self all]
  rfl

omit ok in
theorem upsertPoints_ownedBy (written : Point Scalar → Bool) :
    (upsertPoints stores call written).ownedBy owner =
      upsertPoints (stores.ownedBy owner) call written := by
  have all : ∀ point ∈ (call.upload.points call.embedder).filter written,
      (point.ownerId == owner) = true := by
    intro point membership
    have isMine := (Upload.of_mem_points (List.mem_filter.mp membership).1).2.1
    rw [isMine, mine]
    exact beq_self_eq_true owner
  rw [Stores.ownedBy, Stores.only, upsertPoints, upsert, filter_append_self all, filter_comm]
  rfl

omit ok mine in
/-- Saving a row of the user, where all rows of that id are the user's. -/
theorem save_ownedBy {document : KnowledgeDocument} (isMine : document.ownerId = owner)
    (rows : ∀ row ∈ stores.documents, row.id = document.id → row.ownerId = owner) :
    (save stores document).ownedBy owner = save (stores.ownedBy owner) document := by
  have saved : (updateRow stores.documents document.id fun _ => document).filter
        (fun row => row.ownerId == owner) =
      updateRow (stores.documents.filter fun row => row.ownerId == owner) document.id
        fun _ => document := by
    rw [updateRow, updateRow, List.filter_map]
    congr 1
    apply List.filter_congr
    intro row membership
    simp only [Function.comp_apply]
    split
    · next same => rw [isMine, rows row membership same]
    · rfl
  rw [Stores.ownedBy, Stores.only, save, saved]
  rfl

omit ok mine in
theorem present_ownedBy {id : ObjectId}
    (rows : ∀ row ∈ stores.documents, row.id = id → row.ownerId = owner) :
    ((stores.ownedBy owner).documents.any fun row => row.id == id) =
      stores.documents.any fun row => row.id == id := by
  rw [Bool.eq_iff_iff, List.any_eq_true, List.any_eq_true]
  constructor
  · intro present
    rcases present with ⟨row, membership, same⟩
    exact ⟨row, (List.mem_filter.mp membership).1, same⟩
  · intro present
    rcases present with ⟨row, membership, same⟩
    have isMine := rows row membership (beq_iff_eq.mp same)
    exact ⟨row, List.mem_filter.mpr ⟨membership, beq_iff_eq.mpr isMine⟩, same⟩

/-- The rows under the id of an upload are its owner's. -/
theorem rows_of_held {uploads : List Upload} (held : stores.Held uploads)
    (drawn : uploads.Pairwise Upload.Apart) (known : call.upload ∈ uploads) :
    ∀ row ∈ stores.documents, row.id = call.document.id → row.ownerId = owner := by
  intro row membership same
  rw [held.row_owner drawn known membership (same.trans ok.document.id), mine]

/-- A call of the user takes the same step on what is the user's. -/
theorem advance_ownedBy
    (rows : ∀ row ∈ stores.documents, row.id = call.document.id → row.ownerId = owner)
    (taken : call.advance stores = some (after, next)) :
    call.advance (stores.ownedBy owner) = some (after.ownedBy owner, next) := by
  have isMine : call.document.ownerId = owner := ok.document.ownerId.trans mine
  rw [advance] at taken ⊢
  split at taken
  · rw [duplicates_ownedBy ok mine, ← create_ownedBy ok mine]
    split at taken
    · next duplicate =>
      cases taken
      rw [if_pos duplicate]
    · next new =>
      cases taken
      rw [if_neg new]
  · split at taken
    · next empty =>
      cases taken
      rw [if_pos empty]
    · next pieces =>
      cases taken
      rw [if_neg pieces]
  · cases taken
    rw [insertChunks_ownedBy mine]
  · cases taken
    rw [upsertPoints_ownedBy mine]
  · have saved : (save stores call.ready).ownedBy owner = save (stores.ownedBy owner) call.ready :=
      save_ownedBy isMine rows
    have present : ((stores.ownedBy owner).documents.any fun row => row.id == call.ready.id) =
        stores.documents.any fun row => row.id == call.ready.id := present_ownedBy rows
    simp only at taken ⊢
    rw [present, ← saved]
    split at taken
    · next present =>
      cases taken
      rw [if_pos present]
    · next gone =>
      cases taken
      rw [if_neg gone]
  · cases taken
    rw [Stores.ownedBy_deleteChunks]
  · cases taken
    rw [Stores.ownedBy_deleteByDocument]
  · cases taken
    have saved : (save stores call.failed).ownedBy owner =
        save (stores.ownedBy owner) call.failed := save_ownedBy isMine rows
    rw [saved]
  · cases taken
  · cases taken

theorem fail_ownedBy {message : String} {part : Part Scalar}
    (rows : ∀ row ∈ stores.documents, row.id = call.document.id → row.ownerId = owner)
    (taken : call.fail stores message part = some (after, next)) :
    call.fail (stores.ownedBy owner) message part = some (after.ownedBy owner, next) := by
  have isMine : call.document.ownerId = owner := ok.document.ownerId.trans mine
  rw [fail] at taken ⊢
  split at taken <;> cases taken
  · rw [duplicates_ownedBy ok mine, ← create_ownedBy ok mine]
    split <;> rfl
  · rfl
  · rw [insertChunks_ownedBy mine]
  · rw [upsertPoints_ownedBy mine]
  · have saved : (save stores call.ready).ownedBy owner = save (stores.ownedBy owner) call.ready :=
      save_ownedBy isMine rows
    simp only
    rw [← saved]
    split <;> rfl
  · rw [Stores.ownedBy_filterChunks]
  · rw [Stores.ownedBy_filterPoints]
  · have saved : (save stores call.failed).ownedBy owner =
        save (stores.ownedBy owner) call.failed := save_ownedBy isMine rows
    rw [← saved]
    split <;> rfl

end IngestCall

namespace DeleteCall

variable {owner : UserId} {call next : DeleteCall} {stores after : Stores Scalar}
  (tenant : call.user.role ≠ .admin) (mine : call.user.id = owner)
include tenant mine

theorem find_ownedBy : call.find (stores.ownedBy owner).documents = call.find stores.documents := by
  rw [find, find, Stores.ownedBy, Stores.only, List.find?_filter]
  congr 1
  funext document
  have scope : inScope (ownerScope call.user) document.ownerId = (document.ownerId == owner) := by
    rw [Bool.eq_iff_iff, inScope_ownerScope tenant, mine, beq_iff_eq]
  rw [scope]
  cases document.ownerId == owner <;> cases document.id == call.documentId <;> rfl

theorem advance_ownedBy (taken : call.advance stores = some (after, next)) :
    call.advance (stores.ownedBy owner) = some (after.ownedBy owner, next) := by
  rw [advance] at taken ⊢
  split at taken
  · rw [find_ownedBy tenant mine]
    split at taken <;> cases taken <;> rfl
  · cases taken
    rw [Stores.ownedBy_deleteByDocument]
  · cases taken
    rw [Stores.ownedBy_deleteChunks]
  · cases taken
    rw [Stores.ownedBy_filterRows]
  all_goals cases taken

omit tenant mine in
theorem fail_ownedBy {part : Part Scalar} (taken : call.fail stores part = some (after, next)) :
    call.fail (stores.ownedBy owner) part = some (after.ownedBy owner, next) := by
  rw [fail] at taken ⊢
  split at taken <;> cases taken
  · rfl
  · rw [Stores.ownedBy_filterPoints]
  · rw [Stores.ownedBy_filterChunks]
  · rw [Stores.ownedBy_filterRows]

end DeleteCall

/-! ## Steps of the knowledge base -/

namespace KnowledgeBase

variable {owner : UserId} {base next : KnowledgeBase Scalar} {retriever : Retriever Scalar}

/-- Every deletion was asked for by a tenant. -/
def Tenants (base : KnowledgeBase Scalar) : Prop :=
  base.Inv ∧ ∀ id call, base.calls id = some (.delete call) → call.user.role ≠ .admin

theorem ownedBy_calls_none {call : ℕ} (idle : base.calls call = none) :
    (base.ownedBy owner).calls call = none := by
  show (base.calls call).filter _ = none
  rw [idle]
  rfl

theorem ownedBy_calls_some {call : ℕ} {running : KnowledgeCall Scalar}
    (isCall : base.calls call = some running) (mine : running.madeBy owner = true) :
    (base.ownedBy owner).calls call = some running := by
  show (base.calls call).filter _ = some running
  rw [isCall, Option.filter_some, if_pos mine]

/-- The calls of a user after a change of one call. -/
theorem filter_update {calls : ℕ → Option (KnowledgeCall Scalar)} {call : ℕ}
    {changed : KnowledgeCall Scalar} (mine : changed.madeBy owner = true) :
    (fun id => (Function.update calls call (some changed) id).filter (KnowledgeCall.madeBy owner)) =
      Function.update (fun id => (calls id).filter (KnowledgeCall.madeBy owner)) call
        (some changed) := by
  funext id
  by_cases same : id = call
  · subst same
    rw [Function.update_self, Function.update_self, Option.filter_some, if_pos mine]
  · rw [Function.update_of_ne same, Function.update_of_ne same]

theorem filter_update_foreign {calls : ℕ → Option (KnowledgeCall Scalar)} {call : ℕ}
    {changed : KnowledgeCall Scalar} (foreign : changed.madeBy owner = false)
    (was : (calls call).filter (KnowledgeCall.madeBy owner) = none) :
    (fun id => (Function.update calls call (some changed) id).filter (KnowledgeCall.madeBy owner)) =
      fun id => (calls id).filter (KnowledgeCall.madeBy owner) := by
  funext id
  by_cases same : id = call
  · subst same
    rw [Function.update_self, Option.filter_some, foreign, was]
    rfl
  · rw [Function.update_of_ne same]

/-- A call goes on for the same user. -/
theorem Steps.madeBy_eq {running later : KnowledgeCall Scalar} {stores : Stores Scalar}
    (steps : base.Steps running stores later) : later.madeBy owner = running.madeBy owner := by
  cases steps with
  | ingest writes continues =>
      show (_ == owner) = _
      rw [continues.upload]
      rfl
  | delete steps =>
      cases steps with
      | missed continues | read continues | writes continues =>
          show (_ == owner) = _
          rw [continues.user]
          rfl

/-- The same step on what is the user's. -/
theorem advance_own (tenants : base.Tenants) {call : ℕ} {running later : KnowledgeCall Scalar}
    {stores : Stores Scalar} (isCall : base.calls call = some running)
    (mine : running.madeBy owner = true)
    (taken : running.advance base.toStores = some (stores, later)) :
    running.advance (base.toStores.ownedBy owner) = some (stores.ownedBy owner, later) := by
  rcases tenants with ⟨inv, tenants⟩
  cases running with
  | ingest running =>
      rcases Option.map_eq_some_iff.mp taken with ⟨⟨after, next⟩, advanced, isPair⟩
      cases isPair
      rcases inv.ingests call running isCall with ⟨ok, known⟩
      have isOwner : running.upload.ownerId = owner := beq_iff_eq.mp mine
      have rows := IngestCall.rows_of_held ok isOwner inv.held inv.drawn known
      rw [KnowledgeCall.advance, IngestCall.advance_ownedBy ok isOwner rows advanced]
      rfl
  | delete running =>
      rcases Option.map_eq_some_iff.mp taken with ⟨⟨after, next⟩, advanced, isPair⟩
      cases isPair
      rw [KnowledgeCall.advance, DeleteCall.advance_ownedBy (tenants call running isCall)
        (beq_iff_eq.mp mine) advanced]
      rfl

theorem fail_own (tenants : base.Tenants) {call : ℕ} {running later : KnowledgeCall Scalar}
    {stores : Stores Scalar} {message : String} {part : Part Scalar}
    (isCall : base.calls call = some running) (mine : running.madeBy owner = true)
    (taken : running.fail base.toStores message part = some (stores, later)) :
    running.fail (base.toStores.ownedBy owner) message part =
      some (stores.ownedBy owner, later) := by
  cases running with
  | ingest running =>
      rcases Option.map_eq_some_iff.mp taken with ⟨⟨after, next⟩, failed, isPair⟩
      cases isPair
      rcases tenants.1.ingests call running isCall with ⟨ok, known⟩
      have isOwner : running.upload.ownerId = owner := beq_iff_eq.mp mine
      have rows := IngestCall.rows_of_held ok isOwner tenants.1.held tenants.1.drawn known
      rw [KnowledgeCall.fail, IngestCall.fail_ownedBy ok isOwner rows failed]
      rfl
  | delete running =>
      rcases Option.map_eq_some_iff.mp taken with ⟨⟨after, next⟩, failed, isPair⟩
      cases isPair
      rw [KnowledgeCall.fail, DeleteCall.fail_ownedBy failed]
      rfl

/-- The calls of others leave alone what is the user's. -/
theorem stores_other (tenants : base.Tenants) {call : ℕ} {running later : KnowledgeCall Scalar}
    {stores : Stores Scalar} (isCall : base.calls call = some running)
    (foreign : running.madeBy owner = false) (steps : base.Steps running stores later) :
    stores.ownedBy owner = base.toStores.ownedBy owner := by
  rcases tenants with ⟨inv, tenants⟩
  cases steps with
  | ingest writes _ =>
      exact writes.only_eq inv.held inv.drawn (inv.ingests call _ isCall).2 foreign
  | @delete running next after steps =>
      cases steps with
      | missed | read => rfl
      | writes _ isRead _ known isOf writes =>
          rcases inv.deletes call running isCall _ isRead with ⟨_, scope, _⟩
          have isUser := (inScope_ownerScope (tenants call running isCall)).mp scope
          apply writes.only_eq inv.held inv.drawn known
          rw [← isOf.ownerId, isUser]
          exact foreign

theorem Tenants.moved {action : Action Scalar} (tenants : base.Tenants)
    (permitted : base.tenantsOnly action = true) (moved : Moved retriever base action next) :
    next.Tenants := by
  refine ⟨tenants.1.moved moved, ?_⟩
  intro id delete found
  have after : ∀ {call running later stores}, base.calls call = some running →
      base.Steps running stores later →
      (base.after call (stores, later)).calls id = some (.delete delete) →
        delete.user.role ≠ .admin := by
    intro call running later stores isCall steps found
    rcases update_eq_some found with ⟨rfl, rfl⟩ | ⟨_, was⟩
    · cases steps with
      | @delete before _ _ steps =>
          have role := tenants.2 id before isCall
          cases steps with
          | missed continues | read continues | writes continues =>
              rw [continues.user]
              exact role
    · exact tenants.2 id delete was
  cases moved with
  | ingest =>
      rcases update_eq_some found with ⟨_, absurdity⟩ | ⟨_, was⟩
      · cases absurdity
      · exact tenants.2 id delete was
  | delete =>
      rcases update_eq_some found with ⟨_, isNew⟩ | ⟨_, was⟩
      · cases isNew
        exact bne_iff_ne.mp permitted
      · exact tenants.2 id delete was
  | advanced isCall taken => exact after isCall (tenants.1.steps_of_advance isCall taken) found
  | failed isCall taken => exact after isCall (tenants.1.steps_of_fail isCall taken) found
  | asked => exact tenants.2 id delete found

theorem retrieve_ownedBy {stores : Stores Scalar} (embedder : Embedder Scalar) (query : String)
    (topK : ℕ) :
    retrieve retriever embedder (stores.ownedBy owner).points owner query topK =
      retrieve retriever embedder stores.points owner query topK := by
  have owned : ((stores.ownedBy owner).points.filter fun point =>
        point.collection == collectionName embedder.model (embedder.embed query).length &&
          point.ownerId == owner) =
      stores.points.filter fun point =>
        point.collection == collectionName embedder.model (embedder.embed query).length &&
          point.ownerId == owner := by
    rw [Stores.ownedBy, Stores.only, List.filter_filter]
    apply List.filter_congr
    intro point _
    cases point.ownerId == owner <;> simp
  simp only [retrieve, owned]

theorem ownedBy_after {call : ℕ} {stores : Stores Scalar} {later : KnowledgeCall Scalar}
    (mine : later.madeBy owner = true) :
    (base.after call (stores, later)).ownedBy owner =
      (base.ownedBy owner).after call (stores.ownedBy owner, later) := by
  rw [ownedBy, after, filter_update mine]
  rfl

theorem ownedBy_after_foreign {call : ℕ} {stores : Stores Scalar}
    {running later : KnowledgeCall Scalar} (isCall : base.calls call = some running)
    (was : running.madeBy owner = false) (foreign : later.madeBy owner = false)
    (same : stores.ownedBy owner = base.toStores.ownedBy owner) :
    (base.after call (stores, later)).ownedBy owner = base.ownedBy owner := by
  have hidden : (base.calls call).filter (KnowledgeCall.madeBy owner) = none := by
    rw [isCall, Option.filter_some, was]
    rfl
  rw [ownedBy, after, filter_update_foreign foreign hidden, same]
  rfl

theorem begin_own {call : ℕ} {begun : KnowledgeCall Scalar} (mine : begun.madeBy owner = true)
    (idle : base.calls call = none) :
    (base.ownedBy owner).begin call begun =
      some (ownedBy owner
        { base with calls := Function.update base.calls call (some begun) }) := by
  rw [begin, ownedBy_calls_none idle]
  show some _ = some _
  rw [ownedBy, ownedBy, filter_update mine]

/-- A step for the user can be taken on what is the user's. -/
theorem step_own (tenants : base.Tenants) {action : Action Scalar}
    (moved : Moved retriever base action next) (mine : base.actsFor owner action = true) :
    step retriever (base.ownedBy owner) action = some (next.ownedBy owner) := by
  cases moved with
  | @ingest call embedder upload idle fresh =>
      rcases Upload.drawsFresh_iff.mp fresh with ⟨nodup, apart⟩
      have isFresh : upload.drawsFresh (base.ownedBy owner).uploads = true := by
        apply Upload.drawsFresh_iff.mpr
        exact ⟨nodup, fun other membership => apart other (List.mem_filter.mp membership).1⟩
      have uploads : ({ base with uploads := upload :: base.uploads } :
            KnowledgeBase Scalar).ownedBy owner =
          { base.ownedBy owner with uploads := upload :: (base.ownedBy owner).uploads } :=
        congrArg (fun uploads => ({ base.ownedBy owner with uploads } : KnowledgeBase Scalar))
          (List.filter_cons_of_pos mine)
      have isBegun : KnowledgeCall.madeBy owner (.ingest (.start embedder upload)) = true := mine
      rw [step, if_pos isFresh, ← uploads]
      exact begin_own isBegun idle
  | @delete call user documentId idle =>
      have isBegun : KnowledgeCall.madeBy owner
          (.delete ⟨user, documentId, .reading⟩ : KnowledgeCall Scalar) = true := mine
      exact begin_own isBegun idle
  | @advanced call running later stores isCall taken =>
      simp only [actsFor, isCall, Option.any_some] at mine
      have steps := tenants.1.steps_of_advance isCall taken
      simp only [step, ownedBy_calls_some isCall mine, Option.bind_some]
      rw [ownedBy_after (steps.madeBy_eq.trans mine)]
      exact congrArg (Option.map _) (advance_own tenants isCall mine taken)
  | @failed call running later stores message part isCall taken =>
      simp only [actsFor, isCall, Option.any_some] at mine
      have steps := tenants.1.steps_of_fail isCall taken
      simp only [step, ownedBy_calls_some isCall mine, Option.bind_some]
      rw [ownedBy_after (steps.madeBy_eq.trans mine)]
      exact congrArg (Option.map _) (fail_own tenants isCall mine taken)
  | @asked question hits isHits =>
      have isOwner : question.ownerId = owner := beq_iff_eq.mp mine
      have same : retrieve retriever question.embedder (base.ownedBy owner).points
          question.ownerId question.question retriever.topK = hits := by
        rw [isHits, isOwner]
        exact retrieve_ownedBy question.embedder question.question retriever.topK
      have kept : (⟨question, hits, (answer question hits).1, (answer question hits).2⟩ ::
            base.asked).filter (fun asked => asked.question.ownerId == owner) =
          ⟨question, hits, (answer question hits).1, (answer question hits).2⟩ ::
            (base.ownedBy owner).asked := List.filter_cons_of_pos mine
      simp only [step, same]
      exact congrArg (fun asked => some ({ base.ownedBy owner with asked } : KnowledgeBase Scalar))
        kept.symm

/-- A step for somebody else changes nothing of it. -/
theorem step_other (tenants : base.Tenants) {action : Action Scalar}
    (moved : Moved retriever base action next) (foreign : base.actsFor owner action = false) :
    next.ownedBy owner = base.ownedBy owner := by
  have idleHidden : ∀ {call : ℕ}, base.calls call = none →
      (base.calls call).filter (KnowledgeCall.madeBy owner) = none := by
    intro call idle
    rw [idle]
    rfl
  have notMine : ∀ {answer : Bool}, answer = false → ¬ answer = true := by
    intro answer isFalse
    rw [isFalse]
    exact Bool.false_ne_true
  cases moved with
  | @ingest call embedder upload idle fresh =>
      have isBegun : KnowledgeCall.madeBy owner (.ingest (.start embedder upload)) = false := foreign
      have uploads : (upload :: base.uploads).filter (fun other => other.ownerId == owner) =
          base.uploads.filter fun other => other.ownerId == owner :=
        List.filter_cons_of_neg (notMine foreign)
      simp only [ownedBy, uploads, filter_update_foreign isBegun (idleHidden idle)]
  | @delete call user documentId idle =>
      have isBegun : KnowledgeCall.madeBy owner
          (.delete ⟨user, documentId, .reading⟩ : KnowledgeCall Scalar) = false := foreign
      rw [ownedBy, filter_update_foreign isBegun (idleHidden idle)]
      rfl
  | @advanced call running later stores isCall taken =>
      simp only [actsFor, isCall, Option.any_some] at foreign
      have steps := tenants.1.steps_of_advance isCall taken
      exact ownedBy_after_foreign isCall foreign (steps.madeBy_eq.trans foreign)
        (stores_other tenants isCall foreign steps)
  | @failed call running later stores message part isCall taken =>
      simp only [actsFor, isCall, Option.any_some] at foreign
      have steps := tenants.1.steps_of_fail isCall taken
      exact ownedBy_after_foreign isCall foreign (steps.madeBy_eq.trans foreign)
        (stores_other tenants isCall foreign steps)
  | asked =>
      exact congrArg (fun asked => ({ base.ownedBy owner with asked } : KnowledgeBase Scalar))
        (List.filter_cons_of_neg (notMine foreign))

theorem unwinds (retriever : Retriever Scalar) (owner : UserId) :
    (knowledgeSystem retriever).Unwinds (actsFor owner) tenantsOnly Tenants (ownedBy owner) where
  preserved _ _ _ tenants permitted taken := tenants.moved permitted (moved_of_step taken)
  kept _ _ _ tenants _ taken mine := step_own tenants (moved_of_step taken) mine
  hidden _ _ _ tenants _ taken foreign := step_other tenants (moved_of_step taken) foreign

end KnowledgeBase

open KnowledgeBase in
/-- Without the steps of everybody else a schedule leads to exactly what the whole one
leaves of the user's: rows, chunks and vectors, calls, and answers with their prompts. -/
theorem tenants_undisturbed {retriever : Retriever Scalar} (owner : UserId)
    {actions : List (Action Scalar)} {base : KnowledgeBase Scalar}
    (replay : (knowledgeSystem retriever).runBy tenantsOnly (knowledgeSystem retriever).init
      actions = some base) :
    (knowledgeSystem retriever).run ((knowledgeSystem retriever).purge (actsFor owner)
      (knowledgeSystem retriever).init actions) = some (base.ownedBy owner) := by
  have initial : Tenants (knowledgeSystem retriever).init := by
    have inv : (knowledgeSystem retriever).init.Inv :=
      inv_of_reachableBy (Transition.System.ReachableBy.init : (knowledgeSystem retriever).ReachableBy
        (fun _ _ => True) (knowledgeSystem retriever).init)
    refine ⟨inv, ?_⟩
    intro id call absurdity
    cases absurdity
  exact (unwinds retriever owner).runFrom_purge initial replay

namespace Schedule

/-- Two users upload the same page under two ids, and each of them asks about it. -/
def bothUpload : List (KnowledgeBase.Action Int) :=
  [.ingest 0 constant onePage,
    .ingest 1 constant { onePage with id := 8, ownerId := 2, randomUUID := fun index => index + 1 },
    .advance 0, .advance 1, .advance 1, .advance 0, .advance 0, .advance 0, .advance 1, .advance 1,
    .delete 2 ⟨2, .operator⟩ 7, .advance 2, .advance 0, .ask (unanswered 1), .ask (unanswered 2)]

end Schedule

theorem tenants_undisturbed_bothUpload :
    ∃ base : KnowledgeBase Int,
      ((knowledgeSystem Schedule.inOrder).purge (KnowledgeBase.actsFor 1)
        (knowledgeSystem Schedule.inOrder).init Schedule.bothUpload).length = 7 ∧
      base.points.length = 2 ∧
      (knowledgeSystem Schedule.inOrder).run ((knowledgeSystem Schedule.inOrder).purge
        (KnowledgeBase.actsFor 1) (knowledgeSystem Schedule.inOrder).init Schedule.bothUpload) =
          some (base.ownedBy 1) := by
  have succeeds : ((knowledgeSystem Schedule.inOrder).runBy KnowledgeBase.tenantsOnly
      (knowledgeSystem Schedule.inOrder).init Schedule.bothUpload).isSome = true := by decide
  refine ⟨((knowledgeSystem Schedule.inOrder).runBy KnowledgeBase.tenantsOnly
      (knowledgeSystem Schedule.inOrder).init Schedule.bothUpload).get succeeds, ?_, ?_, ?_⟩
  · decide
  · decide +revert
  · exact tenants_undisturbed 1 (Option.some_get succeeds).symm

end WorkflowEngine.Rag
