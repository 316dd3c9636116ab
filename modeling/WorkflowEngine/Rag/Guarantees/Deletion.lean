import WorkflowEngine.Rag.Deletion

/-!
# A deleted document is not searchable
-/

namespace WorkflowEngine.Rag

variable {Scalar : Type}

/-- Once both calls have ended the document is searchable only by a READY row, in every
schedule in which the row is not saved READY while it is being deleted. -/
theorem deleted_unsearchable {embedder : Embedder Scalar} {upload : Upload}
    {scope : Option UserId} {stores : Stores Scalar} (fresh : stores.Fresh upload.id)
    {knowledge : Knowledge Scalar}
    (reachable : (knowledgeBase embedder upload scope stores).ReachableBy
      (fun knowledge party => knowledge.outdates party = false) knowledge)
    (ingested : knowledge.ingest.ended = true) (deleted : knowledge.delete.ended = true) :
    knowledge.Searchable upload.id := by
  have inv : knowledge.Inv embedder upload.id := reachable.invariant (Knowledge.inv_init fresh)
    fun _ _ _ inv kept taken => inv.step kept taken
  exact inv.searchable ingested deleted

namespace Schedule

/-- The document is deleted after it has been ingested. -/
def deletedLate : List Party :=
  [.ingest, .ingest, .ingest, .ingest, .delete, .delete, .delete, .delete]

/-- The row is read before its vectors exist and deleted after they do. -/
def deletedEarly : List Party :=
  [.ingest, .delete, .ingest, .ingest, .ingest, .delete, .delete]

end Schedule

theorem deleted_unsearchable_deletedLate :
    (((knowledgeBase Schedule.constant Schedule.onePage none Schedule.noStores).runBy
      (fun knowledge party => !knowledge.outdates party)
      (knowledgeBase Schedule.constant Schedule.onePage none Schedule.noStores).init
      Schedule.deletedLate).get (by decide)).Searchable 7 :=
  @deleted_unsearchable _ Schedule.constant Schedule.onePage none Schedule.noStores
    ⟨List.forall_mem_nil _, List.forall_mem_nil _, List.forall_mem_nil _⟩ _
    ((Transition.System.get_runBy_reachableBy _ _ Schedule.deletedLate (by decide)).mono
      fun _ _ kept => Bool.not_eq_eq_eq_not.mp kept) (by decide) (by decide)

/-- The vector of the deleted document stays. -/
theorem not_deleted_unsearchable :
    ¬ ∀ knowledge : Knowledge Int,
      (knowledgeBase Schedule.constant Schedule.onePage none Schedule.noStores).Reachable
          knowledge →
        knowledge.ingest.ended = true → knowledge.delete.ended = true →
          knowledge.Searchable 7 := by
  intro always
  have searchable := always _ (Transition.System.get_run_reachable
    (knowledgeBase Schedule.constant Schedule.onePage none Schedule.noStores)
    Schedule.deletedEarly (by decide)) (by decide) (by decide)
  cases searchable with
  | inl gone =>
      exact gone.1 ⟨collectionName "m" 2, 0, [1, 0], 1, 7, 0, "t", "p"⟩ (by decide) rfl
  | inr kept =>
      rcases kept with ⟨document, membership, _⟩
      exact absurd membership (by decide +revert)

end WorkflowEngine.Rag
