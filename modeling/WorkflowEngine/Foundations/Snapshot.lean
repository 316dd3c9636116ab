import WorkflowEngine.Foundations.Collection
import WorkflowEngine.Foundations.Counting

/-!
# Snapshot isolation

A transaction reads the snapshot taken when it started and works on a private
view of it.  `rebase` is its commit: the documents it wrote replace the committed
ones, and the commit is refused when another commit wrote one of them since the
snapshot.  Documents that were only read are not checked.

The main result, `rebase_rewrite`, describes a successful commit in terms of the
committed collection: it runs the transaction's script on exactly the documents
that are still as the snapshot showed them.
-/

namespace DocStore

namespace Collection

variable {V I : Type} [Document V I]

/-- The newer collection has every document of the older one, either unchanged
or with a higher revision. -/
def Extends (older newer : Collection V) : Prop :=
  ∀ doc ∈ older, ∃ next ∈ newer, idOf next = idOf doc ∧ (next = doc ∨ doc.rev < next.rev)

namespace Extends

theorem refl (collection : Collection V) : Extends collection collection :=
  fun doc membership => ⟨doc, membership, rfl, .inl rfl⟩

theorem trans {first second third : Collection V} (earlier : Extends first second)
    (later : Extends second third) : Extends first third := by
  intro doc membership
  obtain ⟨middle, middleMem, middleId, middleRev⟩ := earlier doc membership
  obtain ⟨last, lastMem, lastId, lastRev⟩ := later middle middleMem
  refine ⟨last, lastMem, lastId.trans middleId, ?_⟩
  rcases middleRev with rfl | middleLt
  · exact lastRev
  · rcases lastRev with rfl | lastLt
    · exact .inr middleLt
    · exact .inr (Nat.lt_trans middleLt lastLt)

/-- Rewriting documents in place and appending others extends a collection. -/
theorem map_append (collection appended : Collection V) (image : Stored V → Stored V)
    (same : ∀ doc ∈ collection, idOf (image doc) = idOf doc)
    (written : ∀ doc ∈ collection, image doc = doc ∨ doc.rev < (image doc).rev) :
    Extends collection (collection.map image ++ appended) := by
  intro doc membership
  exact ⟨image doc, List.mem_append_left _ (List.mem_map_of_mem membership),
    same doc membership, written doc membership⟩

theorem rewrite (collection : Collection V) (script : Script V) (inserted : List V) :
    Extends collection (Collection.rewrite collection script inserted) :=
  map_append _ _ _ (fun doc _ => by simp [idOf]) fun doc _ => script.onStored_eq_or_lt doc

theorem ids_subset {older newer : Collection V} (extension : Extends older newer) :
    ∀ i ∈ ids older, i ∈ ids newer := by
  intro i membership
  obtain ⟨doc, docMem, rfl⟩ := List.mem_map.mp membership
  obtain ⟨next, nextMem, same, _⟩ := extension doc docMem
  exact same ▸ idOf_mem_ids nextMem

/-- One revision, one document. -/
theorem eq_of_rev_eq {older newer : Collection V} (extension : Extends older newer)
    (nodup : (ids newer).Nodup) {doc next : Stored V} (docMem : doc ∈ older)
    (nextMem : next ∈ newer) (same : idOf next = idOf doc) (rev : next.rev = doc.rev) :
    next = doc := by
  obtain ⟨other, otherMem, otherId, relation⟩ := extension doc docMem
  have unique : other = next := eq_of_idOf_eq nodup otherMem nextMem (otherId.trans same.symm)
  subst unique
  rcases relation with equal | less
  · exact equal
  · omega

end Extends

open Classical in
/-- The script on the documents that are still as in the snapshot. -/
noncomputable def onSnapshot (snapshot : Collection V) (script : Script V) (doc : Stored V) :
    Stored V :=
  if doc ∈ snapshot then script.onStored doc else doc

theorem onSnapshot_of_mem {snapshot : Collection V} {script : Script V} {doc : Stored V}
    (membership : doc ∈ snapshot) : onSnapshot snapshot script doc = script.onStored doc :=
  if_pos membership

theorem onSnapshot_of_not_mem {snapshot : Collection V} {script : Script V} {doc : Stored V}
    (absent : doc ∉ snapshot) : onSnapshot snapshot script doc = doc :=
  if_neg absent

theorem onSnapshot_cases (snapshot : Collection V) (script : Script V) (doc : Stored V) :
    onSnapshot snapshot script doc = doc ∨
      doc ∈ snapshot ∧ onSnapshot snapshot script doc = script.onStored doc := by
  by_cases membership : doc ∈ snapshot
  · exact .inr ⟨membership, onSnapshot_of_mem membership⟩
  · exact .inl (onSnapshot_of_not_mem membership)

variable [DecidableEq I]

/-- A document of the view that the transaction wrote. -/
def wrote (snapshot : Collection V) (doc : Stored V) : Bool :=
  rev? snapshot (idOf doc) != some doc.rev

/-- Commit a transaction's view of `snapshot` into the committed collection;
`none` when the commit is refused. -/
def rebase (committed snapshot view : Collection V) : Option (Collection V) :=
  let written := view.filter (wrote snapshot)
  let inserted := written.filter fun doc => (rev? snapshot (idOf doc)).isNone
  if written.all (fun doc => rev? committed (idOf doc) == rev? snapshot (idOf doc)) &&
      inserted.all (fun doc => !duplicates committed doc.val) then
    some (committed.map (fun doc => (findStored written (idOf doc)).getD doc) ++ inserted)
  else
    none

/-- What a commit that was not refused did to the committed collection. -/
structure Rebased (committed snapshot : Collection V) (script : Script V)
    (inserted : List V) (result : Collection V) : Prop where
  /-- every document the transaction rewrote is committed as the snapshot showed it -/
  current : ∀ doc ∈ snapshot, doc.rev < (script.onStored doc).rev → doc ∈ committed
  /-- every document it inserted is new -/
  fresh : ∀ value ∈ inserted, duplicates committed value = false
  eq : result = committed.map (onSnapshot snapshot script) ++ inserted.map (Stored.mk 0)

section Rebase

variable {committed snapshot result : Collection V} {script : Script V} {inserted : List V}

omit [DecidableEq I] in
private theorem mem_rewrite {doc : Stored V} :
    doc ∈ rewrite snapshot script inserted ↔
      (∃ source ∈ snapshot, script.onStored source = doc) ∨
        ∃ value ∈ inserted, Stored.mk 0 value = doc := by
  simp [rewrite]

omit [DecidableEq I] in
private theorem idOf_onStored (doc : Stored V) :
    idOf (script.onStored doc) = idOf doc := by
  simp [idOf]

private theorem wrote_onStored (nodup : (ids snapshot).Nodup) {doc : Stored V}
    (membership : doc ∈ snapshot) :
    wrote snapshot (script.onStored doc) = true ↔ doc.rev < (script.onStored doc).rev := by
  rw [wrote, idOf_onStored, rev?_of_mem nodup membership]
  rcases script.onStored_eq_or_lt doc with same | written
  · simp [same]
  · simp [written, Nat.ne_of_lt written]

private theorem wrote_of_not_mem {doc : Stored V} (absent : idOf doc ∉ ids snapshot) :
    wrote snapshot doc = true := by
  simp [wrote, rev?_eq_none.mpr absent]

private theorem filter_inserted (nodup : (ids snapshot).Nodup)
    (new : ∀ value ∈ inserted, Document.id value ∉ ids snapshot) :
    ((rewrite snapshot script inserted).filter (wrote snapshot)).filter
        (fun doc => (rev? snapshot (idOf doc)).isNone) =
      inserted.map (Stored.mk 0) := by
  have old : (snapshot.map script.onStored).filter
      (fun doc => (rev? snapshot (idOf doc)).isNone && wrote snapshot doc) = [] := by
    rw [List.filter_eq_nil_iff]
    intro doc membership
    obtain ⟨source, sourceMem, rfl⟩ := List.mem_map.mp membership
    simp [idOf_onStored, rev?_of_mem nodup sourceMem]
  have fresh : (inserted.map (Stored.mk 0)).filter
      (fun doc => (rev? snapshot (idOf doc)).isNone && wrote snapshot doc) =
        inserted.map (Stored.mk 0) := by
    rw [List.filter_eq_self]
    intro doc membership
    obtain ⟨value, valueMem, rfl⟩ := List.mem_map.mp membership
    have absent : idOf (Stored.mk 0 value) ∉ ids snapshot := new value valueMem
    simp [rev?_eq_none.mpr absent, wrote_of_not_mem absent]
  rw [List.filter_filter, rewrite, List.filter_append, old, fresh, List.nil_append]

/-- A successful commit of a script and some insertions, described on the
committed collection. -/
theorem rebase_rewrite (nodupSnapshot : (ids snapshot).Nodup)
    (nodupCommitted : (ids committed).Nodup)
    (new : ∀ value ∈ inserted, Document.id value ∉ ids snapshot)
    (extension : Extends snapshot committed)
    (commits : rebase committed snapshot (rewrite snapshot script inserted) = some result) :
    Rebased committed snapshot script inserted result := by
  simp only [rebase, filter_inserted nodupSnapshot new] at commits
  split at commits
  case isFalse => cases commits
  case isTrue checks =>
  simp only [Bool.and_eq_true, List.all_eq_true, List.mem_filter, beq_iff_eq,
    Bool.not_eq_true', List.mem_map] at checks
  obtain ⟨unchanged, unique⟩ := checks
  have current : ∀ doc ∈ snapshot, doc.rev < (script.onStored doc).rev → doc ∈ committed := by
    intro doc membership written
    have check := unchanged (script.onStored doc)
      ⟨mem_rewrite.mpr (.inl ⟨doc, membership, rfl⟩),
        (wrote_onStored nodupSnapshot membership).mpr written⟩
    rw [idOf_onStored, rev?_of_mem nodupSnapshot membership] at check
    obtain ⟨next, found, rev⟩ := Option.map_eq_some_iff.mp check
    obtain ⟨nextMem, same⟩ := (findStored_eq_some nodupCommitted).mp found
    exact extension.eq_of_rev_eq nodupCommitted membership nextMem same rev ▸ nextMem
  refine ⟨current, fun value membership => unique _ ⟨value, membership, rfl⟩, ?_⟩
  rw [← Option.some.inj commits]
  congr 1
  apply List.map_congr_left
  intro doc docMem
  -- a written document with the identifier of `doc` is the script's image of `doc` itself
  have image : ∀ other ∈ (rewrite snapshot script inserted).filter (wrote snapshot),
      idOf other = idOf doc →
        doc ∈ snapshot ∧ doc.rev < (script.onStored doc).rev ∧ other = script.onStored doc := by
    intro other otherMem same
    have check := unchanged other (List.mem_filter.mp otherMem)
    obtain ⟨inView, written⟩ := List.mem_filter.mp otherMem
    rcases mem_rewrite.mp inView with ⟨source, sourceMem, rfl⟩ | ⟨value, valueMem, rfl⟩
    · have rewritten := (wrote_onStored nodupSnapshot sourceMem).mp written
      have sameSource : source = doc :=
        eq_of_idOf_eq nodupCommitted (current source sourceMem rewritten) docMem
          (by rw [← same, idOf_onStored])
      subst sameSource
      exact ⟨sourceMem, rewritten, rfl⟩
    · have absent : idOf (Stored.mk 0 value) ∉ ids snapshot := new value valueMem
      rw [rev?_eq_none.mpr absent, same, rev?_of_mem nodupCommitted docMem] at check
      cases check
  cases search : findStored ((rewrite snapshot script inserted).filter (wrote snapshot))
      (idOf doc) with
  | some other =>
      have same : idOf other = idOf doc := by simpa using List.find?_some search
      obtain ⟨inSnapshot, _, rfl⟩ := image other (List.mem_of_find?_eq_some search) same
      rw [Option.getD_some, onSnapshot_of_mem inSnapshot]
  | none =>
      rw [Option.getD_none]
      rcases onSnapshot_cases snapshot script doc with kept | ⟨inSnapshot, onScript⟩
      · exact kept.symm
      · rw [onScript]
        rcases script.onStored_eq_or_lt doc with kept | written
        · exact kept.symm
        · have absent := findStored_eq_none.mp search
          have present : idOf doc ∈
              ids ((rewrite snapshot script inserted).filter (wrote snapshot)) := by
            have image : script.onStored doc ∈
                (rewrite snapshot script inserted).filter (wrote snapshot) :=
              List.mem_filter.mpr ⟨mem_rewrite.mpr (.inl ⟨doc, inSnapshot, rfl⟩),
                (wrote_onStored nodupSnapshot inSnapshot).mpr written⟩
            exact idOf_onStored doc ▸ idOf_mem_ids image
          exact absurd present absent

namespace Rebased

/-- Running a script directly on the committed collection. -/
theorem self (script : Script V)
    (fresh : ∀ value ∈ inserted, duplicates committed value = false) :
    Rebased committed committed script inserted (rewrite committed script inserted) := by
  refine ⟨fun doc membership _ => membership, fresh, ?_⟩
  rw [rewrite]
  congr 1
  apply List.map_congr_left
  intro doc membership
  exact (onSnapshot_of_mem membership).symm

/-- Running a script without insertions directly on the committed collection. -/
theorem self_script (script : Script V) (none : inserted = []) :
    Rebased committed committed script inserted (rewrite committed script inserted) := by
  subst none
  exact self script fun _ membership => absurd membership List.not_mem_nil

omit [DecidableEq I] in
/-- At a document that is not written, or is still as in the snapshot, the commit
is the script. -/
theorem onSnapshot_eq {doc : Stored V}
    (stable : doc.rev < (script.onStored doc).rev → doc ∈ snapshot) :
    onSnapshot snapshot script doc = script.onStored doc := by
  by_cases inSnapshot : doc ∈ snapshot
  · exact onSnapshot_of_mem inSnapshot
  · rw [onSnapshot_of_not_mem inSnapshot]
    rcases script.onStored_eq_or_lt doc with same | written
    · exact same.symm
    · exact absurd (stable written) inSnapshot

/-- A successful commit as a map of values. -/
theorem values_result (rebased : Rebased committed snapshot script inserted result)
    {image : V → V}
    (rewritten : ∀ doc ∈ committed, (onSnapshot snapshot script doc).val = image doc.val) :
    values result = (values committed).map image ++ inserted := by
  rw [rebased.eq, values, values, List.map_append, List.map_map, List.map_map, List.map_map]
  congr 1
  · apply List.map_congr_left
    intro doc membership
    exact rewritten doc membership
  · exact List.map_id inserted

/-- A document that the first statement matched is committed as it was. -/
theorem current_of_filter {update : Update V} {rest : Script V}
    (rebased : Rebased committed snapshot (update :: rest) inserted result) {doc : Stored V}
    (membership : doc ∈ snapshot) (matched : update.filter doc.val = true) : doc ∈ committed :=
  rebased.current doc membership (Script.rev_lt_of_filter matched)

/-- A script that only matches documents of one class. -/
theorem values_of_class (rebased : Rebased committed snapshot script inserted result)
    (inClass : V → Bool) (image : V → V)
    (elsewhere : ∀ doc ∈ committed, inClass doc.val = false →
      ∀ update ∈ script, update.filter doc.val = false)
    (rewritten : ∀ doc ∈ committed, inClass doc.val = true →
      (onSnapshot snapshot script doc).val = image doc.val) :
    values result =
      (values committed).map (fun value => if inClass value = true then image value else value) ++
        inserted := by
  apply rebased.values_result
  intro doc membership
  split
  · next member => exact rewritten doc membership member
  · next other =>
    have unmatched := Script.onStored_of_unmatched
      (elsewhere doc membership (Bool.not_eq_true _ ▸ other))
    rw [onSnapshot_eq (by rw [unmatched]; exact fun less => absurd less (Nat.lt_irrefl _)),
      unmatched]

/-- The commit of insertions alone. -/
theorem eq_of_nil (rebased : Rebased committed snapshot [] inserted result) :
    result = committed ++ inserted.map (Stored.mk 0) := by
  rw [rebased.eq]
  congr 1
  have same : ∀ doc ∈ committed, onSnapshot snapshot [] doc = id doc := by
    intro doc _
    exact onSnapshot_eq fun less => absurd less (Nat.lt_irrefl _)
  rw [List.map_congr_left same, List.map_id]

theorem values_of_nil (rebased : Rebased committed snapshot [] inserted result) :
    values result = values committed ++ inserted := by
  rw [rebased.eq_of_nil, values, List.map_append, List.map_map]
  congr 1
  exact List.map_id inserted

/-- The transaction counted the documents that its script wrote. -/
theorem countP_eq (rebased : Rebased committed snapshot script inserted result)
    (nodupSnapshot : (ids snapshot).Nodup) (nodupCommitted : (ids committed).Nodup)
    (counted present : V → Bool)
    (written : ∀ doc ∈ snapshot, counted doc.val = true → doc.rev < (script.onStored doc).rev)
    (same : ∀ doc ∈ committed, present doc.val = true ↔
      doc ∈ snapshot ∧ counted doc.val = true) :
    snapshot.countP (fun doc => counted doc.val) =
      committed.countP (fun doc => present doc.val) := by
  apply Counting.countP_eq_of_same_members (List.Nodup.of_map _ nodupSnapshot)
    (List.Nodup.of_map _ nodupCommitted)
  intro doc
  constructor
  · rintro ⟨inSnapshot, counts⟩
    have inCommitted := rebased.current doc inSnapshot (written doc inSnapshot counts)
    exact ⟨inCommitted, (same doc inCommitted).mpr ⟨inSnapshot, counts⟩⟩
  · rintro ⟨inCommitted, counts⟩
    exact (same doc inCommitted).mp counts

theorem extends_result (rebased : Rebased committed snapshot script inserted result) :
    Extends committed result := by
  rw [rebased.eq]
  apply Extends.map_append
  · intro doc _
    rcases onSnapshot_cases snapshot script doc with same | ⟨_, same⟩ <;> rw [same]
    exact idOf_onStored doc
  · intro doc _
    rcases onSnapshot_cases snapshot script doc with same | ⟨_, same⟩ <;> rw [same]
    · exact .inl rfl
    · exact script.onStored_eq_or_lt doc

omit [DecidableEq I] in
private theorem idOf_onSnapshot (doc : Stored V) :
    idOf (onSnapshot snapshot script doc) = idOf doc := by
  rcases onSnapshot_cases snapshot script doc with same | ⟨_, same⟩ <;> rw [same]
  exact idOf_onStored doc

/-- What the transaction rewrote is committed as it wrote it. -/
theorem mem_result (rebased : Rebased committed snapshot script inserted result) {doc : Stored V}
    (membership : doc ∈ snapshot) (written : doc.rev < (script.onStored doc).rev) :
    script.onStored doc ∈ result := by
  rw [rebased.eq]
  apply List.mem_append_left
  apply List.mem_map.mpr
  exact ⟨doc, rebased.current doc membership written, onSnapshot_of_mem membership⟩

theorem ids_result (rebased : Rebased committed snapshot script inserted result) :
    ids result = ids committed ++ inserted.map Document.id := by
  rw [rebased.eq, ids, List.map_append, List.map_map, List.map_map]
  congr 1
  apply List.map_congr_left
  intro doc _
  exact idOf_onSnapshot doc

theorem fresh_id (rebased : Rebased committed snapshot script inserted result) {value : V}
    (membership : value ∈ inserted) : Document.id value ∉ ids committed := by
  intro present
  obtain ⟨doc, docMem, same⟩ := List.mem_map.mp present
  have clear := List.any_eq_false.mp (rebased.fresh value membership) doc docMem
  simp [same] at clear

theorem nodup_result (rebased : Rebased committed snapshot script inserted result)
    (nodup : (ids committed).Nodup) (nodupInserted : (inserted.map Document.id).Nodup) :
    (ids result).Nodup := by
  rw [rebased.ids_result]
  apply List.nodup_append'.mpr ⟨nodup, nodupInserted, ?_⟩
  intro i present fresh
  obtain ⟨value, membership, rfl⟩ := List.mem_map.mp fresh
  exact rebased.fresh_id membership present

end Rebased

/-- Without other commits since the snapshot, a commit is not refused and gives the view. -/
theorem rebase_self (nodup : (ids committed).Nodup)
    (fresh : ∀ value ∈ inserted, duplicates committed value = false) :
    rebase committed committed (rewrite committed script inserted) =
      some (rewrite committed script inserted) := by
  have rewritten := Rebased.self script fresh
  have new : ∀ value ∈ inserted, Document.id value ∉ ids committed :=
    fun value membership => rewritten.fresh_id membership
  have allowed : (rebase committed committed (rewrite committed script inserted)).isSome := by
    simp only [rebase, filter_inserted nodup new]
    rw [if_pos]
    · rfl
    · simp only [beq_self_eq_true, Bool.and_eq_true, List.all_eq_true, implies_true, true_and,
        List.mem_map]
      rintro doc ⟨value, membership, rfl⟩
      rw [fresh value membership]
      rfl
  rcases Option.isSome_iff_exists.mp allowed with ⟨result, commits⟩
  have rebased := rebase_rewrite nodup nodup new (.refl committed) commits
  rw [commits, rebased.eq, ← rewritten.eq]

end Rebase

end Collection

end DocStore
