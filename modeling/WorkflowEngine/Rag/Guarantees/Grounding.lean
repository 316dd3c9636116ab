import WorkflowEngine.Rag.Held

/-!
# Grounded answers

An answer cites only what was retrieved for its question, and only chunks of documents
that the asking user has uploaded are ever retrieved or shown to the model.
-/

open Text

namespace WorkflowEngine

/-! ## What the model is shown -/

/-- The replies that were complained about, as they are sent back. -/
def corrections (replies : List (Text × Text)) : List Message :=
  replies.flatMap fun reply => repairMessages reply.1 reply.2

/-- What the model has replied to these requests, each reply with the complaint about it. -/
structure SentBack {Data : Type} (world : World) (schema : Json → Except (List Issue) Data)
    (trace : Trace) (requests : List ChatRequest) (replies : List (Text × Text)) : Prop where
  length : replies.length = requests.length
  rejected : ∀ (index : ℕ) reply, replies[index]? = some reply →
    Rejected world schema (trace ++ (requests.take (index + 1)).map .chat) reply.1 reply.2

section Asks

variable {Data : Type} {world : World} {schema : Json → Except (List Issue) Data} {model : Text}
  {messages : List Message} {trace : Trace} {requests : List ChatRequest} {result : Option Data}

/-- Every request holds the first messages, and after them the model's replies to the
requests before with the complaints about them. -/
theorem Asks.messages_eq (asks : Asks world schema model messages trace requests result)
    {before after : List ChatRequest} {request : ChatRequest}
    (split : requests = before ++ request :: after) :
    request.model = model ∧ ∃ replies, SentBack world schema trace before replies ∧
      request.messages = messages ++ corrections replies := by
  -- the first request of the loop
  have first : ∀ {others : List ChatRequest}, ⟨model, messages, 0, true⟩ :: others =
      request :: after → request.model = model ∧ ∃ replies,
        SentBack world schema trace [] replies ∧ request.messages = messages ++ corrections replies := by
    intro others same
    cases same
    exact ⟨rfl, [], ⟨rfl, nofun⟩, (List.append_nil _).symm⟩
  induction asks generalizing before with
  | gaveUp => exact absurd split (by simp)
  | threw | accepted =>
      cases before with
      | nil => exact first split
      | cons => exact absurd split (by simp)
  | @rejected messages trace content problem others _ rejected _ ih =>
      cases before with
      | nil => exact first split
      | cons head before =>
          cases split
          have later := @ih before rfl (fun same => by
            cases same
            exact ⟨rfl, [], ⟨rfl, nofun⟩, (List.append_nil _).symm⟩)
          rcases later with ⟨isModel, replies, sentBack, isMessages⟩
          refine ⟨isModel, (content, problem) :: replies, ⟨?_, ?_⟩, ?_⟩
          · rw [List.length_cons, List.length_cons, sentBack.length]
          · intro index reply isReply
            rw [Asks.chats_succ]
            cases index with
            | zero =>
                cases isReply
                rwa [List.take_zero, List.map_nil, List.append_nil]
            | succ index => exact sentBack.rejected index reply isReply
          · rw [isMessages, List.append_assoc]
            rfl

end Asks

/-- The requests of a conversation, and the reply that it ends with. -/
theorem generateStructured_spec {Data : Type} {world : World}
    {schema : Json → Except (List Issue) Data} {jsonSchema model system user : Text} :
    ∃ requests : List ChatRequest,
      (generateStructured world schema jsonSchema model system user []).2 = requests.map .chat ∧
      Asks world schema model [systemMessage system jsonSchema, ⟨.user, user⟩] [] requests
        ((generateStructured world schema jsonSchema model system user []).1.toOption.map
          Prod.fst) := by
  rcases attempt_spec _ _ _ _ _ with ⟨requests, _, traced, asks⟩
  exact ⟨requests, traced, asks⟩

namespace Rag

variable {Scalar : Type}

/-! ## Citations -/

theorem nodup_eraseDups {α : Type} [BEq α] [LawfulBEq α] (list : List α) : list.eraseDups.Nodup := by
  match list with
  | [] => exact List.nodup_nil
  | head :: rest =>
      rw [List.eraseDups_cons]
      apply List.nodup_cons.mpr
      constructor
      · intro again
        have kept := (List.mem_filter.mp (List.mem_eraseDups.mp again)).2
        rw [beq_self_eq_true] at kept
        cases kept
      · have shorter : (rest.filter fun other => !other == head).length < rest.length + 1 :=
          Nat.lt_succ_of_le (List.length_filter_le _ _)
        exact nodup_eraseDups _
termination_by list.length

/-- The citation of a chunk that was retrieved. -/
def Hit.citation (index : ℕ) (hit : Hit Scalar) : Citation Scalar where
  id := sourceId index
  documentId := hit.documentId
  title := hit.title
  chunkIndex := hit.chunkIndex
  score := hit.score

theorem getElem_sourceIds {hits : List (Hit Scalar)} {index : ℕ}
    (inside : index < (sourceIds hits).length) : (sourceIds hits)[index] = sourceId index := by
  simp only [sourceIds, List.getElem_mapIdx]

theorem mem_cited {hits : List (Hit Scalar)} {citations : List Text} {citation : Citation Scalar}
    (membership : citation ∈ cited hits citations) :
    ∃ (index : ℕ) (hit : Hit Scalar), hits[index]? = some hit ∧ citation = hit.citation index := by
  rcases List.mem_filterMap.mp membership with ⟨id, _, found⟩
  rcases Option.map_eq_some_iff.mp found with ⟨hit, isHit, rfl⟩
  have inside : (sourceIds hits).idxOf id < (sourceIds hits).length := by
    rw [sourceIds, List.length_mapIdx]
    exact (List.getElem?_eq_some_iff.mp isHit).1
  have isId : sourceId ((sourceIds hits).idxOf id) = id := by
    rw [← getElem_sourceIds inside, List.getElem_idxOf inside]
  refine ⟨(sourceIds hits).idxOf id, hit, isHit, ?_⟩
  rw [Hit.citation, isId]

/-- No source is cited twice. -/
theorem nodup_cited (hits : List (Hit Scalar)) (citations : List Text) :
    ((cited hits citations).map Citation.id).Nodup := by
  apply List.Nodup.sublist _ (nodup_eraseDups citations)
  rw [cited]
  induction citations.eraseDups with
  | nil => exact List.nil_sublist []
  | cons id rest ih =>
      rw [List.filterMap_cons]
      split
      · exact ih.cons _
      · next citation found =>
        rcases Option.map_eq_some_iff.mp found with ⟨hit, _, rfl⟩
        exact ih.cons_cons _

/-! ## Answers -/

/-- The first messages of a question. -/
def Question.messages (asked : Question Scalar) (hits : List (Hit Scalar)) : List Message :=
  [systemMessage ragSystem (asked.replySchema (sourceIds hits)),
    ⟨.user, ragPrompt hits asked.question⟩]

/-- What an answer rests on. -/
structure Asked.Grounded (uploads : List Upload) (asked : Asked Scalar) : Prop where
  /-- all sources are the user's own -/
  own : ∀ hit ∈ asked.hits, ∃ upload ∈ uploads, upload.ownerId = asked.question.ownerId ∧
    upload.id = hit.documentId ∧ upload.title = hit.title ∧
      upload.pieces[hit.chunkIndex]? = some hit.text
  /-- the model sees them, the question and what it has replied to the requests before -/
  shown : ∃ requests : List ChatRequest, asked.trace = requests.map .chat ∧
    ∀ before request after, requests = before ++ request :: after → asked.hits ≠ [] ∧
      request.model = asked.question.model ∧ ∃ replies,
        SentBack asked.question.world (asked.question.schema (sourceIds asked.hits)) [] before
          replies ∧
        request.messages = asked.question.messages asked.hits ++ corrections replies
  cites : ∀ result, asked.result = .ok result → ∀ citation ∈ result.citations,
    ∃ (index : ℕ) (hit : Hit Scalar), asked.hits[index]? = some hit ∧ citation = hit.citation index
  once : ∀ result, asked.result = .ok result → (result.citations.map Citation.id).Nodup
  supported : ∀ result, asked.result = .ok result →
    (result.grounded = true ↔ result.citations ≠ []) ∧
      (result.grounded = false → result.answer = noAnswer)
  /-- an answer that cites something is what the model has replied to the last request -/
  told : ∀ result, asked.result = .ok result → result.grounded = true → ∃ reply,
    Accepted asked.question.world (asked.question.schema (sourceIds asked.hits)) asked.trace
      reply ∧ reply.grounded = true ∧ result.answer = reply.answer ∧
        result.citations = cited asked.hits reply.citations

variable {base next : KnowledgeBase Scalar} {retriever : Retriever Scalar}

theorem own_of_retrieve {uploads : List Upload} {stores : Stores Scalar}
    (held : stores.Held uploads) {embedder : Embedder Scalar} {ownerId : UserId} {query : String}
    {topK : ℕ} {hit : Hit Scalar}
    (found : hit ∈ retrieve retriever embedder stores.points ownerId query topK) :
    ∃ upload ∈ uploads, upload.ownerId = ownerId ∧ upload.id = hit.documentId ∧
      upload.title = hit.title ∧ upload.pieces[hit.chunkIndex]? = some hit.text := by
  rcases List.mem_map.mp found with ⟨point, isNearest, rfl⟩
  have isOwned := retriever.qdrant.subset_nearest _ _ _ _ isNearest
  rcases List.mem_filter.mp isOwned with ⟨membership, filtered⟩
  have isOwner := beq_iff_eq.mp (Bool.and_eq_true_iff.mp filtered).2
  rcases held.points point membership with ⟨upload, known, _, pointMem⟩
  rcases Upload.of_mem_points pointMem with ⟨documentId, owner, title, text, _⟩
  exact ⟨upload, known, owner.symm.trans isOwner, documentId.symm, title.symm, text⟩

/-- Either nothing is cited and the fixed answer given, or some of the sources are cited as
the model has replied. -/
theorem answer_result {question : Question Scalar} {hits : List (Hit Scalar)}
    {result : RagAnswer Scalar} (returned : (answer question hits).1 = .ok result) :
    result.grounded = false ∧ result.citations = [] ∧ result.answer = noAnswer ∨
      result.grounded = true ∧ result.citations ≠ [] ∧ ∃ reply,
        Accepted question.world (question.schema (sourceIds hits)) (answer question hits).2 reply ∧
          reply.grounded = true ∧ result.answer = reply.answer ∧
            result.citations = cited hits reply.citations := by
  simp only [answer] at returned ⊢
  split at returned
  · cases returned
    exact .inl ⟨rfl, rfl, rfl⟩
  · next found =>
    rw [if_neg found]
    split at returned
    · cases returned
    · next reply usage trace generated =>
      cases returned
      cases grounded : reply.grounded && !(cited hits reply.citations).isEmpty with
      | false => exact .inl ⟨rfl, rfl, rfl⟩
      | true =>
          rw [Bool.and_eq_true, Bool.not_eq_true', List.isEmpty_eq_false_iff] at grounded
          rcases generateStructured_spec with ⟨requests, traced, asks⟩
          rw [generated] at traced asks
          refine .inr ⟨rfl, grounded.2, reply, ?_, grounded.1, rfl, rfl⟩
          have accepted := asks.accepts
          rwa [List.nil_append, ← traced] at accepted

/-- The model is asked only when something was retrieved. -/
theorem answer_messages (question : Question Scalar) (hits : List (Hit Scalar)) :
    ∃ requests : List ChatRequest, (answer question hits).2 = requests.map .chat ∧
      ∀ before request after, requests = before ++ request :: after → hits ≠ [] ∧
        request.model = question.model ∧ ∃ replies,
          SentBack question.world (question.schema (sourceIds hits)) [] before replies ∧
            request.messages = question.messages hits ++ corrections replies := by
  simp only [answer]
  split
  · exact ⟨[], rfl, fun before request after absurdity => by simp at absurdity⟩
  · next found =>
    rcases @generateStructured_spec _ question.world (question.schema (sourceIds hits))
      (question.replySchema (sourceIds hits)) question.model ragSystem
        (ragPrompt hits question.question) with ⟨requests, traced, asks⟩
    refine ⟨requests, ?_, fun before request after split => ⟨found, asks.messages_eq split⟩⟩
    split
    · next generated => rw [← traced, generated]
    · next generated => rw [← traced, generated]

theorem grounded_of_answer {uploads : List Upload} {question : Question Scalar}
    {hits : List (Hit Scalar)}
    (own : ∀ hit ∈ hits, ∃ upload ∈ uploads, upload.ownerId = question.ownerId ∧
      upload.id = hit.documentId ∧ upload.title = hit.title ∧
        upload.pieces[hit.chunkIndex]? = some hit.text) :
    Asked.Grounded uploads
      ⟨question, hits, (answer question hits).1, (answer question hits).2⟩ where
  own := own
  shown := answer_messages question hits
  cites result returned citation membership := by
    rcases answer_result returned with ⟨_, none, _⟩ | ⟨_, _, reply, _, _, _, isCited⟩
    · rw [none] at membership
      cases membership
    · rw [isCited] at membership
      exact mem_cited membership
  once result returned := by
    rcases answer_result returned with ⟨_, none, _⟩ | ⟨_, _, reply, _, _, _, isCited⟩
    · rw [none]
      exact List.nodup_nil
    · rw [isCited]
      exact nodup_cited hits reply.citations
  supported result returned := by
    rcases answer_result returned with ⟨grounded, none, isAnswer⟩ | ⟨grounded, some, _⟩
    · rw [grounded, none]
      exact ⟨iff_of_false Bool.false_ne_true fun cites => cites rfl, fun _ => isAnswer⟩
    · rw [grounded]
      exact ⟨iff_of_true rfl some, fun absurdity => by cases absurdity⟩
  told result returned isGrounded := by
    rcases answer_result returned with ⟨ungrounded, _⟩ | ⟨_, _, reply⟩
    · cases ungrounded.symm.trans isGrounded
    · exact reply

/-! ## Over whole runs -/

theorem Asked.Grounded.mono {uploads more : List Upload} {asked : Asked Scalar}
    (grounded : asked.Grounded uploads) (subset : uploads ⊆ more) : asked.Grounded more where
  own hit membership := by
    rcases grounded.own hit membership with ⟨upload, known, rest⟩
    exact ⟨upload, subset known, rest⟩
  shown := grounded.shown
  cites := grounded.cites
  once := grounded.once
  supported := grounded.supported
  told := grounded.told

theorem KnowledgeBase.Moved.grounded {action : KnowledgeBase.Action Scalar} (inv : base.Inv)
    (moved : Moved retriever base action next)
    (before : ∀ asked ∈ base.asked, asked.Grounded base.uploads) :
    ∀ asked ∈ next.asked, asked.Grounded next.uploads := by
  cases moved with
  | ingest =>
      intro asked membership
      exact (before asked membership).mono (List.subset_cons_self _ _)
  | delete | advanced | failed => exact before
  | @asked question hits isHits =>
      intro asked membership
      rcases List.mem_cons.mp membership with new | old
      · rw [new]
        apply grounded_of_answer
        intro hit hitMem
        rw [isHits] at hitMem
        exact own_of_retrieve inv.held hitMem
      · exact before asked old

/-- In every reachable state, whatever is ingested and deleted meanwhile: every answer
rests on the asking user's own documents, and cites only what was retrieved for it. -/
theorem answers_grounded (reachable : (knowledgeSystem retriever).Reachable base) :
    ∀ asked ∈ base.asked, asked.Grounded base.uploads := by
  induction reachable with
  | init =>
      intro asked absurdity
      cases absurdity
  | step before _ taken ih =>
      exact (KnowledgeBase.moved_of_step taken).grounded (KnowledgeBase.inv_of_reachableBy before) ih

namespace Schedule

/-- The owner of the page asks, and then another user. -/
def bothAsk : List (KnowledgeBase.Action Int) :=
  ingested ++ [.ask (unanswered 1), .ask (unanswered 2)]

end Schedule

theorem answers_grounded_bothAsk :
    ∃ base : KnowledgeBase Int, base.asked.map (fun asked => asked.hits.length) = [0, 1] ∧
      ∀ asked ∈ base.asked, asked.Grounded base.uploads :=
  ⟨Schedule.baseAfter Schedule.bothAsk (by decide), by decide,
    answers_grounded (Schedule.baseAfter_reachable Schedule.bothAsk (by decide))⟩

end Rag

end WorkflowEngine
