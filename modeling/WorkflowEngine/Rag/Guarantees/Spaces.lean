import WorkflowEngine.Rag.VectorStore

/-!
# Embedding spaces that share a collection

The name of a collection forgets which marks stand between the words of a model's name.
Two spaces are kept apart unless their dimensions are equal and their models differ in
these marks only.
-/

namespace WorkflowEngine.Rag

variable {Scalar : Type}

namespace VectorStore

/-- The points of a call that upserts in a space. -/
def Call.upserts (space : Space) : Call Scalar → List (Point Scalar)
  | .upsert model (first :: rest) =>
      if space = ⟨model, first.vector.length⟩ then
        (first :: rest).map (Entry.place space.collection)
      else []
  | _ => []

/-- The points that these calls upsert in a space. -/
def upsertedIn (space : Space) (calls : List (Call Scalar)) : List (Point Scalar) :=
  calls.flatMap (Call.upserts space)

theorem collection_of_upsertedIn {space : Space} {calls : List (Call Scalar)}
    {point : Point Scalar} (upserted : point ∈ upsertedIn space calls) :
    point.collection = space.collection := by
  rcases List.mem_flatMap.mp upserted with ⟨next, -, membership⟩
  cases next with
  | search | deleteByDocument => cases membership
  | upsert model entries =>
      cases entries with
      | nil => cases membership
      | cons first rest =>
          rw [Call.upserts] at membership
          split at membership
          · rcases List.mem_map.mp membership with ⟨entry, -, rfl⟩
            rfl
          · cases membership

/-! ## The collections that exist -/

/-- Every collection was accepted for a space, and only existing ones are ready. -/
structure Kept (qdrant : Qdrant Scalar) (store : VectorStore Scalar) : Prop where
  created : ∀ name size, (name, size) ∈ store.collections →
    ∃ space : Space, space.collection = name ∧ space.dims = size ∧ qdrant.accepts name size = true
  ready : ∀ name ∈ store.ready, name ∈ store.collections.map Prod.fst

variable {qdrant : Qdrant Scalar} {store store' : VectorStore Scalar}

/-- A collection that exists under the name of a space is one for its dimension. -/
theorem Kept.mem_collections (kept : Kept qdrant store) {space : Space}
    (exists_ : space.collection ∈ store.collections.map Prod.fst) :
    (space.collection, space.dims) ∈ store.collections := by
  rcases List.mem_map.mp exists_ with ⟨⟨name, size⟩, membership, isName⟩
  rcases kept.created name size membership with ⟨creator, named, sized, -⟩
  have dims := (collection_eq_iff.mp (named.trans isName)).1
  rw [← sized, dims, show name = space.collection from isName] at membership
  exact membership

/-- What is ensured exists and was accepted; points stay as they are. -/
theorem Kept.ensureCollection (kept : Kept qdrant store) {space : Space}
    (ensured : store.ensureCollection qdrant space.collection space.dims = some store') :
    Kept qdrant store' ∧ store'.points = store.points ∧
      (space.collection, space.dims) ∈ store'.collections := by
  rw [VectorStore.ensureCollection] at ensured
  split at ensured
  · next isReady =>
      cases ensured
      exact ⟨kept, rfl, kept.mem_collections (kept.ready _ isReady)⟩
  · split at ensured
    · next exists_ =>
        cases ensured
        refine ⟨⟨kept.created, ?_⟩, rfl, kept.mem_collections exists_⟩
        rw [List.forall_mem_cons]
        exact ⟨exists_, kept.ready⟩
    · split at ensured
      · next accepted =>
          cases ensured
          refine ⟨⟨?_, ?_⟩, rfl, List.mem_cons_self⟩
          · intro name size membership
            cases membership with
            | head => exact ⟨space, rfl, rfl, accepted⟩
            | tail _ membership => exact kept.created name size membership
          · rw [List.forall_mem_cons]
            constructor
            · exact List.mem_cons_self
            · intro name isReady
              exact List.mem_cons_of_mem _ (kept.ready name isReady)
      · cases ensured

theorem Kept.accepted (kept : Kept qdrant store) {space : Space}
    (membership : (space.collection, space.dims) ∈ store.collections) :
    qdrant.accepts space.collection space.dims = true := by
  rcases kept.created _ _ membership with ⟨_, -, -, accepted⟩
  exact accepted

theorem Kept.call (kept : Kept qdrant store) (next : Call Scalar) :
    Kept qdrant (store.call qdrant next).1 := by
  cases next with
  | upsert model entries =>
      cases entries with
      | nil => exact kept
      | cons first rest =>
          rw [VectorStore.call]
          cases ensured : store.ensureCollection qdrant
              (collectionName model first.vector.length) first.vector.length with
          | none => exact kept
          | some store' =>
              have after : Kept qdrant store' :=
                (@Kept.ensureCollection _ _ _ _ kept ⟨model, first.vector.length⟩ ensured).1
              dsimp only
              split
              · exact ⟨after.created, after.ready⟩
              · exact after
  | search model vector ownerId topK minScore =>
      rw [VectorStore.call]
      cases ensured : store.ensureCollection qdrant
          (collectionName model vector.length) vector.length with
      | none => exact kept
      | some store' =>
          have after : Kept qdrant store' :=
            (@Kept.ensureCollection _ _ _ _ kept ⟨model, vector.length⟩ ensured).1
          dsimp only
          split
          · exact after
          · exact after
  | deleteByDocument model dims documentId =>
      rw [VectorStore.call]
      cases ensured : store.ensureCollection qdrant (collectionName model dims) dims with
      | none => exact kept
      | some store' =>
          have after : Kept qdrant store' :=
            (@Kept.ensureCollection _ _ _ _ kept ⟨model, dims⟩ ensured).1
          exact ⟨after.created, after.ready⟩

theorem kept_run (qdrant : Qdrant Scalar) (calls : List (Call Scalar)) :
    Kept qdrant (run qdrant calls) := by
  rw [run]
  induction calls using List.reverseRecOn with
  | nil => exact ⟨fun _ _ membership => absurd membership List.not_mem_nil, List.forall_mem_nil _⟩
  | append_singleton calls next ih =>
      rw [List.foldl_append]
      exact ih.call next

end VectorStore

open VectorStore

/-- Whatever calls come before, a search in the one space returns no point that was upserted
in the other, and a delete in the one removes none. -/
structure Isolated (qdrant : Qdrant Scalar) (called other : Space) : Prop where
  search : ∀ (calls : List (Call Scalar)) (vector : List Scalar) (ownerId : UserId) (topK : ℕ)
    (minScore : Scalar) (hits : List (Point Scalar)), vector.length = called.dims →
    ((run qdrant calls).call qdrant
      (.search called.model vector ownerId topK minScore)).2 = some hits →
    ∀ point ∈ hits, point ∉ upsertedIn other calls
  delete : ∀ (calls : List (Call Scalar)) (documentId : ObjectId),
    ∀ point ∈ upsertedIn other calls, point ∈ (run qdrant calls).points →
      point ∈ ((run qdrant calls).call qdrant
        (.deleteByDocument called.model called.dims documentId)).1.points

/-- The spaces have one collection, and the service keeps it. -/
def Shared (qdrant : Qdrant Scalar) (left right : Space) : Prop :=
  left.dims = right.dims ∧ SameWords left.model.toList right.model.toList ∧
    qdrant.accepts left.collection left.dims = true

theorem shared_of_kept {qdrant : Qdrant Scalar} {store : VectorStore Scalar} {called other : Space}
    (kept : Kept qdrant store) (same : called.collection = other.collection)
    (membership : (called.collection, called.dims) ∈ store.collections) :
    Shared qdrant called other := by
  rcases collection_eq_iff.mp same with ⟨dims, words⟩
  exact ⟨dims, words, kept.accepted membership⟩

theorem isolated_of_not_shared {qdrant : Qdrant Scalar} {called other : Space}
    (apart : ¬ Shared qdrant called other) : Isolated qdrant called other := by
  constructor
  · intro calls vector ownerId topK minScore hits sized returned point isHit upserted
    have kept := kept_run qdrant calls
    rw [VectorStore.call, sized] at returned
    cases ensured : (run qdrant calls).ensureCollection qdrant called.collection called.dims with
    | none =>
        rw [show collectionName called.model called.dims = called.collection from rfl,
          ensured] at returned
        cases returned
    | some store' =>
        rcases kept.ensureCollection ensured with ⟨kept', -, membership⟩
        rw [show collectionName called.model called.dims = called.collection from rfl,
          ensured] at returned
        dsimp only at returned
        rw [if_pos membership] at returned
        cases returned
        have found := List.mem_filter.mp (qdrant.subset_nearest _ _ _ _ isHit)
        rw [Bool.and_eq_true, beq_iff_eq] at found
        apply apart
        apply shared_of_kept kept' _ membership
        rw [← found.2.1, collection_of_upsertedIn upserted]
  · intro calls documentId point upserted membership
    have kept := kept_run qdrant calls
    rw [VectorStore.call, show collectionName called.model called.dims = called.collection from rfl]
    cases ensured : (run qdrant calls).ensureCollection qdrant called.collection called.dims with
    | none => exact membership
    | some store' =>
        rcases kept.ensureCollection ensured with ⟨kept', points, created⟩
        apply List.mem_filter.mpr
        constructor
        · rwa [points]
        · rw [Bool.not_eq_true', Bool.and_eq_false_iff]
          left
          rw [beq_eq_false_iff_ne]
          intro same
          apply apart
          apply shared_of_kept kept' _ created
          rw [← collection_of_upsertedIn upserted]
          exact same.symm

/-- A point with a vector of the space's dimension. -/
def Space.sample [Inhabited Scalar] (space : Space) : Entry Scalar :=
  { id := 0
    vector := List.replicate space.dims default
    ownerId := 0
    documentId := 0
    chunkIndex := 0
    title := ""
    text := "" }

theorem run_sample [Inhabited Scalar] {qdrant : Qdrant Scalar} {space : Space}
    (accepted : qdrant.accepts space.collection space.dims = true) :
    run qdrant [.upsert space.model [space.sample]] =
      { ready := [space.collection]
        collections := [(space.collection, space.dims)]
        points := [space.sample.place space.collection] } := by
  have sized : (space.sample : Entry Scalar).vector.length = space.dims := List.length_replicate
  have ensured : VectorStore.empty.ensureCollection qdrant space.collection space.dims =
      some ⟨[space.collection], [(space.collection, space.dims)], []⟩ := by
    rw [VectorStore.ensureCollection]
    exact (if_neg List.not_mem_nil).trans ((if_neg List.not_mem_nil).trans (if_pos accepted))
  rw [run, List.foldl_cons, List.foldl_nil, VectorStore.call, sized,
    show collectionName space.model space.dims = space.collection from rfl, ensured]
  dsimp only
  rw [if_pos]
  · rfl
  · rw [List.forall_mem_singleton, sized]
    exact List.mem_cons_self

/-- A delete in one of two spaces that share a collection reaches the points of both. -/
theorem not_isolated_of_shared [Inhabited Scalar] {qdrant : Qdrant Scalar} {called other : Space}
    (shared : Shared qdrant called other) : ¬ Isolated qdrant called other := by
  rcases shared with ⟨dims, words, accepted⟩
  intro isolated
  have same : called.collection = other.collection := collection_eq_iff.mpr ⟨dims, words⟩
  rw [same, dims] at accepted
  have stored := run_sample accepted
  have upserted : (other.sample : Entry Scalar).place other.collection ∈
      upsertedIn other [.upsert other.model [other.sample]] := by
    have own : other = ⟨other.model, (other.sample : Entry Scalar).vector.length⟩ := by
      rw [Space.sample, List.length_replicate]
    rw [upsertedIn, List.flatMap_singleton, Call.upserts, if_pos own]
    exact List.mem_cons_self
  have left := isolated.delete _ 0 _ upserted (by rw [stored]; exact List.mem_cons_self)
  rw [stored, VectorStore.call, show collectionName called.model called.dims = called.collection
    from rfl, VectorStore.ensureCollection, same, if_pos List.mem_cons_self] at left
  have kept := (List.mem_filter.mp left).2
  rw [Bool.not_eq_true', Bool.and_eq_false_iff, show collectionName called.model called.dims =
    other.collection from same] at kept
  cases kept with
  | inl differs => exact absurd rfl (beq_eq_false_iff_ne.mp differs)
  | inr differs => exact absurd rfl (beq_eq_false_iff_ne.mp differs)

/-- Searches and deletes in one space leave another space alone, unless the dimensions are
equal, the models differ in nothing but the marks between their words and the service
accepts the collection of both. -/
theorem isolated_iff [Inhabited Scalar] (qdrant : Qdrant Scalar) (called other : Space) :
    Isolated qdrant called other ↔
      ¬ (called.dims = other.dims ∧ SameWords called.model.toList other.model.toList ∧
        qdrant.accepts called.collection called.dims = true) := by
  constructor
  · intro isolated shared
    exact not_isolated_of_shared shared isolated
  · exact isolated_of_not_shared

/-- A service that accepts every collection and finds the first points. -/
def firstFound : Qdrant ℤ where
  accepts _ size := decide (0 < size)
  nearest points _ topK _ := points.take topK
  subset_nearest _ _ _ _ := List.take_subset _ _

/-- The points of the model `bge-m3` are found and deleted as those of `bge_m3`. -/
theorem spaces_mix :
    ((run firstFound [.upsert "bge-m3" [⟨1, [3, 4], 7, 2, 0, "title", "text"⟩]]).call firstFound
        (.search "bge_m3" [4, 3] 7 4 0)).2 =
      some [⟨"knowledge_bge_m3_2", 1, [3, 4], 7, 2, 0, "title", "text"⟩] ∧
    ¬ ∀ called other : Space, called.model ≠ "" → other.model ≠ "" → called ≠ other →
      Isolated firstFound called other := by
  constructor
  · decide +kernel
  · intro isolated
    have shared : Shared firstFound ⟨"bge_m3", 2⟩ ⟨"bge-m3", 2⟩ :=
      ⟨rfl, underscored_eq_iff.mp (by decide), by decide⟩
    exact not_isolated_of_shared shared (isolated _ _ (by decide) (by decide) (by decide))

end WorkflowEngine.Rag
