import WorkflowEngine.Foundations.Session

/-!
# Two runs of a session

A session that runs on two databases.  When it decides on a part of their contents only,
and the databases agree on that part, both runs return the same result or throw the same
error.  The part of a collection is what a filter selects; another filter selects what
neither run may touch.
-/

namespace DocStore

/-! ## Selected documents -/

namespace Collection

variable {V I : Type} [Document V I] {collection : Collection V} {update : Update V}
  {selects : V → Bool}

theorem find_append {value : V} :
    find (collection ++ [⟨0, value⟩]) selects =
      collection.find selects ++ if selects value then [value] else [] := by
  rw [find, find, values, List.map_append, List.filter_append]
  congr 1
  simp only [List.map_cons, List.map_nil, List.filter_cons, List.filter_nil]

/-- An update that does not decide what is selected. -/
theorem find_updateMany
    (keeps : ∀ value ∈ values collection, selects (update.onValue value) = selects value) :
    (collection.updateMany update).find selects =
      (collection.find selects).map update.onValue := by
  rw [find, find, values_updateMany, List.filter_map]
  congr 1
  apply List.filter_congr
  intro value membership
  exact keeps value membership

/-- An update of documents that are not selected. -/
theorem find_updateMany_of_apart
    (apart : ∀ value ∈ values collection, update.filter value = true → selects value = false)
    (keeps : ∀ value ∈ values collection, selects (update.onValue value) = selects value) :
    (collection.updateMany update).find selects = collection.find selects := by
  rw [find_updateMany keeps]
  have same : ∀ value ∈ collection.find selects, update.onValue value = id value := by
    intro value membership
    rcases List.mem_filter.mp membership with ⟨valueMem, selected⟩
    unfold Update.onValue
    rw [if_neg]
    · rfl
    · intro matched
      rw [apart value valueMem matched] at selected
      cases selected
  rw [List.map_congr_left same, List.map_id]

/-- An update counts selected documents only. -/
theorem matched_of_within
    (within : ∀ value ∈ values collection, update.filter value = true → selects value = true) :
    collection.matched update = (collection.find selects).countP update.filter := by
  have counted : collection.matched update = (values collection).countP update.filter := by
    rw [matched, values, List.countP_map]
    rfl
  rw [counted, find, List.countP_filter]
  apply List.countP_congr
  intro value membership
  rw [Bool.and_eq_true]
  constructor
  · intro matched
    exact ⟨matched, within value membership matched⟩
  · exact And.left

theorem duplicates_of_within [DecidableEq I] {value : V}
    (within : ∀ other ∈ values collection,
      (decide (Document.id other = Document.id value) || Document.clash other value) = true →
        selects other = true) :
    collection.duplicates value = (collection.find selects).any fun other =>
      decide (Document.id other = Document.id value) || Document.clash other value := by
  apply Bool.eq_iff_iff.mpr
  rw [duplicates, List.any_eq_true, List.any_eq_true]
  constructor
  · rintro ⟨doc, docMem, violates⟩
    have valueMem := val_mem_values docMem
    exact ⟨doc.val, List.mem_filter.mpr ⟨valueMem, within _ valueMem violates⟩, violates⟩
  · rintro ⟨other, otherMem, violates⟩
    rcases mem_values.mp (List.mem_filter.mp otherMem).1 with ⟨doc, docMem, rfl⟩
    exact ⟨doc, docMem, violates⟩

variable [DecidableEq I]

/-- A document that is looked for and selected. -/
theorem findById_filter (nodup : (ids collection).Nodup) {i : I} :
    (collection.findById i).filter selects =
      (collection.find selects).find? fun value => decide (Document.id value = i) := by
  have found : collection.findById i =
      (values collection).find? fun value => decide (Document.id value = i) := by
    rw [findById, findStored, values, List.find?_map]
    rfl
  have unique : ∀ left ∈ values collection, ∀ right ∈ values collection,
      (Document.id left : I) = Document.id right → left = right :=
    fun left leftMem right rightMem => value_eq_of_id_eq nodup leftMem rightMem
  rw [found, find]
  generalize values collection = all at unique
  clear found
  cases search : (all.filter selects).find? fun value => decide (Document.id value = i) with
  | some value =>
      have isId : Document.id value = i := of_decide_eq_true
        (List.find?_some (p := fun value => decide (Document.id value = i)) search)
      rcases List.mem_filter.mp (List.mem_of_find?_eq_some search) with ⟨membership, selected⟩
      cases other : all.find? fun value => decide (Document.id value = i) with
      | none =>
          have absent := List.find?_eq_none.mp other value membership
          exact absurd (decide_eq_true isId) absent
      | some first =>
          have isFirst : Document.id first = i := of_decide_eq_true
            (List.find?_some (p := fun value => decide (Document.id value = i)) other)
          have same := unique first (List.mem_of_find?_eq_some other) value membership
            (isFirst.trans isId.symm)
          rw [same, Option.filter_some, if_pos selected]
  | none =>
      have none := List.find?_eq_none.mp search
      cases other : all.find? fun value => decide (Document.id value = i) with
      | none => rfl
      | some first =>
          rw [Option.filter_some, if_neg]
          intro selected
          exact none first (List.mem_filter.mpr ⟨List.mem_of_find?_eq_some other, selected⟩)
            (List.find?_some (p := fun value => decide (Document.id value = i)) other)

/-- A document that is looked for by an update of one document. -/
theorem findById_filter_only (nodup : (ids collection).Nodup) {i : I} :
    (collection.findById i).filter update.filter =
      (collection.find (update.only i).filter).find? fun value =>
        decide (Document.id value = i) := by
  rw [← findById_filter nodup]
  cases search : collection.findById i with
  | none => rfl
  | some value =>
      have isId := ((findById_eq_some nodup).mp search).2
      have same : (update.only i).filter value = update.filter value :=
        (congrArg (· && update.filter value) (decide_eq_true isId)).trans (Bool.true_and _)
      rw [Option.filter_some, Option.filter_some, same]

/-- A document that is selected if it exists. -/
theorem findById_of_within (nodup : (ids collection).Nodup) {i : I}
    (within : ∀ value ∈ values collection, Document.id value = i → selects value = true) :
    collection.findById i =
      (collection.find selects).find? fun value => decide (Document.id value = i) := by
  rw [← findById_filter nodup]
  cases search : collection.findById i with
  | none => rfl
  | some value =>
      rcases (findById_eq_some nodup).mp search with ⟨membership, isId⟩
      rw [Option.filter_some, if_pos (within value membership isId)]

/-- What is found among the documents that another filter selects. -/
theorem find_of_within {filter : V → Bool}
    (within : ∀ value ∈ values collection, filter value = true → selects value = true) :
    collection.find filter = (collection.find selects).filter filter := by
  rw [find, find, List.filter_filter]
  apply List.filter_congr
  intro value membership
  cases matched : filter value with
  | false => rfl
  | true => exact (within value membership matched).symm

/-! ## Two collections -/

/-- Two collections that show the same to a reader who sees these documents.  The spared
documents are as they were in older versions of the collections. -/
structure Alike (sees spared : V → Bool) (leftOld rightOld left right : Collection V) :
    Prop where
  leftNodup : (ids left).Nodup
  rightNodup : (ids right).Nodup
  agree : left.find sees = right.find sees
  leftSpares : left.find spared = leftOld.find spared
  rightSpares : right.find spared = rightOld.find spared

namespace Alike

variable {sees spared : V → Bool} {leftOld rightOld left right : Collection V}

omit [DecidableEq I] in
/-- An update of documents that are seen and not spared. -/
theorem updateMany (alike : Alike sees spared leftOld rightOld left right)
    (covers : ∀ value, spared value = false → sees value = true)
    (leftWithin : ∀ value ∈ values left, update.filter value = true → spared value = false)
    (rightWithin : ∀ value ∈ values right, update.filter value = true → spared value = false)
    (seesSame : ∀ value, sees (update.set value) = sees value)
    (sparedSame : ∀ value, spared (update.set value) = spared value) :
    left.matched update = right.matched update ∧
      Alike sees spared leftOld rightOld (left.updateMany update) (right.updateMany update) := by
  have onSeen : ∀ value, sees (update.onValue value) = sees value := by
    intro value
    unfold Update.onValue
    split
    · exact seesSame value
    · rfl
  have onSpared : ∀ value, spared (update.onValue value) = spared value := by
    intro value
    unfold Update.onValue
    split
    · exact sparedSame value
    · rfl
  constructor
  · rw [matched_of_within fun value valueMem matched => covers value
        (leftWithin value valueMem matched),
      matched_of_within fun value valueMem matched => covers value
        (rightWithin value valueMem matched), alike.agree]
  · constructor
    · rw [ids_updateMany]
      exact alike.leftNodup
    · rw [ids_updateMany]
      exact alike.rightNodup
    · rw [find_updateMany fun value _ => onSeen value, find_updateMany fun value _ => onSeen value,
        alike.agree]
    · rw [find_updateMany_of_apart leftWithin fun value _ => onSpared value]
      exact alike.leftSpares
    · rw [find_updateMany_of_apart rightWithin fun value _ => onSpared value]
      exact alike.rightSpares

/-- A document that is seen and not spared is inserted into both, or into neither. -/
theorem append (alike : Alike sees spared leftOld rightOld left right) {value : V}
    (notSpared : spared value = false)
    (leftWithin : ∀ other ∈ values left,
      (decide (Document.id other = Document.id value) || Document.clash other value) = true →
        sees other = true)
    (rightWithin : ∀ other ∈ values right,
      (decide (Document.id other = Document.id value) || Document.clash other value) = true →
        sees other = true) :
    left.duplicates value = right.duplicates value ∧
      (left.duplicates value = false →
        Alike sees spared leftOld rightOld (left ++ [⟨0, value⟩]) (right ++ [⟨0, value⟩])) := by
  have same : left.duplicates value = right.duplicates value := by
    rw [duplicates_of_within leftWithin, duplicates_of_within rightWithin, alike.agree]
  have nodup : ∀ {collection : Collection V}, (ids collection).Nodup →
      collection.duplicates value = false → (ids (collection ++ [⟨0, value⟩])).Nodup := by
    intro collection keyed unique
    have absent : Document.id value ∉ ids collection := by
      intro present
      rcases List.mem_map.mp present with ⟨doc, docMem, isId⟩
      have clear := List.any_eq_false.mp unique doc docMem
      simp [isId] at clear
    rw [ids, List.map_append]
    exact List.nodup_append_comm.mp (List.nodup_cons.mpr ⟨absent, keyed⟩)
  constructor
  · exact same
  · intro unique
    constructor
    · exact nodup alike.leftNodup unique
    · exact nodup alike.rightNodup (same ▸ unique)
    · rw [find_append, find_append, alike.agree]
    · rw [find_append, notSpared, if_neg Bool.false_ne_true, List.append_nil]
      exact alike.leftSpares
    · rw [find_append, notSpared, if_neg Bool.false_ne_true, List.append_nil]
      exact alike.rightSpares

theorem findById (alike : Alike sees spared leftOld rightOld left right) {i : I}
    (leftWithin : ∀ value ∈ values left, Document.id value = i → sees value = true)
    (rightWithin : ∀ value ∈ values right, Document.id value = i → sees value = true) :
    left.findById i = right.findById i := by
  rw [findById_of_within alike.leftNodup leftWithin, findById_of_within alike.rightNodup rightWithin,
    alike.agree]

omit [DecidableEq I] in
theorem find (alike : Alike sees spared leftOld rightOld left right) {filter : V → Bool}
    (leftWithin : ∀ value ∈ values left, filter value = true → sees value = true)
    (rightWithin : ∀ value ∈ values right, filter value = true → sees value = true) :
    left.find filter = right.find filter := by
  rw [find_of_within leftWithin, find_of_within rightWithin, alike.agree]

end Alike

omit [Document V I] [DecidableEq I] in
/-- Documents that were not spared in the older version are not spared. -/
theorem not_spared {spared : V → Bool} {older newer : Collection V} {kind : V → Prop}
    (spares : newer.find spared = older.find spared)
    (old : ∀ value ∈ values older, kind value → spared value = false) :
    ∀ value ∈ values newer, kind value → spared value = false := by
  intro value membership isKind
  by_contra isSpared
  have found : value ∈ newer.find spared :=
    List.mem_filter.mpr ⟨membership, eq_true_of_ne_false isSpared⟩
  rw [spares] at found
  exact isSpared (old value (List.mem_filter.mp found).1 isKind)

end Collection

/-! ## Sessions -/

namespace Session

variable {D E α β : Type}

/-- From related databases the session returns one result and leaves related databases, or
it throws one error. -/
def Lockstep (before : D → D → Prop) (after : α → D → D → Prop) (session : Session D E α) :
    Prop :=
  ∀ left right, before left right →
    (∃ result left' right', session.run left = .ok (result, left') ∧
      session.run right = .ok (result, right') ∧ after result left' right') ∨
    ∃ thrown, session.run left = .error thrown ∧ session.run right = .error thrown

namespace Lockstep

variable {before : D → D → Prop} {after : α → D → D → Prop}

theorem pure {value : α} (holds : ∀ left right, before left right → after value left right) :
    Lockstep before after (Pure.pure value : Session D E α) :=
  fun left right related => .inl ⟨value, left, right, rfl, rfl, holds left right related⟩

/-- Nothing happens. -/
theorem stay {value : α} :
    Lockstep before (fun _ => before) (Pure.pure value : Session D E α) :=
  pure fun _ _ holds => holds

theorem throw {thrown : E} :
    Lockstep before after (MonadExcept.throw thrown : Session D E α) :=
  fun _ _ _ => .inr ⟨thrown, rfl, rfl⟩

theorem bind {first : Session D E α} {next : α → Session D E β} {last : β → D → D → Prop}
    (isFirst : Lockstep before after first)
    (isNext : ∀ value, Lockstep (after value) last (next value)) :
    Lockstep before last (first >>= next) := by
  intro left right related
  rcases isFirst left right related with
    ⟨value, left', right', ranLeft, ranRight, holds⟩ | ⟨thrown, threwLeft, threwRight⟩
  · rcases isNext value left' right' holds with
      ⟨result, left'', right'', ranLeft', ranRight', holds'⟩ | ⟨thrown, threwLeft, threwRight⟩
    · exact .inl ⟨result, left'', right'', bind_eq_ok.mpr ⟨value, left', ranLeft, ranLeft'⟩,
        bind_eq_ok.mpr ⟨value, right', ranRight, ranRight'⟩, holds'⟩
    · exact .inr ⟨thrown, bind_eq_error.mpr (.inr ⟨value, left', ranLeft, threwLeft⟩),
        bind_eq_error.mpr (.inr ⟨value, right', ranRight, threwRight⟩)⟩
  · exact .inr ⟨thrown, bind_eq_error.mpr (.inl threwLeft), bind_eq_error.mpr (.inl threwRight)⟩

/-- Less is asked before, and less is promised after. -/
theorem weaken {session : Session D E α} {sooner : D → D → Prop} {later : α → D → D → Prop}
    (lockstep : Lockstep before after session)
    (first : ∀ left right, sooner left right → before left right)
    (last : ∀ result left right, after result left right → later result left right) :
    Lockstep sooner later session := by
  intro left right related
  rcases lockstep left right (first left right related) with
    ⟨result, left', right', ranLeft, ranRight, holds⟩ | threw
  · exact .inl ⟨result, left', right', ranLeft, ranRight, last result left' right' holds⟩
  · exact .inr threw

theorem ite {condition : Prop} [Decidable condition] {yes no : Session D E α}
    (whenTrue : condition → Lockstep before after yes)
    (whenFalse : ¬ condition → Lockstep before after no) :
    Lockstep before after (if condition then yes else no) := by
  split
  · next holds => exact whenTrue holds
  · next fails => exact whenFalse fails

/-- What may be assumed of the databases. -/
theorem assuming {session : Session D E α} {fact : Prop}
    (known : ∀ left right, before left right → fact)
    (lockstep : fact → Lockstep before after session) : Lockstep before after session :=
  fun left right related => lockstep (known left right related) left right related

/-- A session that goes on with what the first one found. -/
theorem bindOption {related : D → D → Prop} {fact : α → Prop} {last : β → D → D → Prop}
    {first : Session D E (Option α)} {next : Option α → Session D E β}
    (isFirst : Lockstep before (fun found left right => related left right ∧ ∀ value ∈ found,
      fact value) first)
    (whenNone : Lockstep related last (next none))
    (whenSome : ∀ value, fact value → Lockstep related last (next (some value))) :
    Lockstep before last (first >>= next) := by
  apply bind isFirst
  intro found
  cases found with
  | none => exact whenNone.weaken (fun _ _ holds => holds.1) fun _ _ _ holds => holds
  | some value =>
      apply assuming (fun _ _ holds => holds.2 value rfl)
      intro isFact
      exact (whenSome value isFact).weaken (fun _ _ holds => holds.1) fun _ _ _ holds => holds

end Lockstep

/-! ## Operations on a part of the database -/

variable {V I : Type} [Document V I] [Holds D V]

/-- Related databases have alike collections of `V`, and are related whatever these are. -/
class Tracks (related : D → D → Prop) (V : Type) {I : outParam Type} [Document V I]
    [Holds D V] (sees spared : outParam (V → Bool)) (leftOld rightOld : outParam (Collection V)) :
    Prop where
  covers : ∀ value, spared value = false → sees value = true
  alike : ∀ {left right}, related left right →
    Collection.Alike sees spared leftOld rightOld (Holds.get left) (Holds.get right)
  set : ∀ {left right} {leftNew rightNew : Collection V}, related left right →
    Collection.Alike sees spared leftOld rightOld leftNew rightNew →
      related (Holds.set left leftNew) (Holds.set right rightNew)

namespace Lockstep

variable {related : D → D → Prop} {sees spared : V → Bool} {leftOld rightOld : Collection V}
  [tracks : Tracks related V sees spared leftOld rightOld] {kind : V → Prop}

/-- Documents of a kind that is not spared. -/
def Owned (spared : V → Bool) (leftOld rightOld : Collection V) (kind : V → Prop) : Prop :=
  (∀ value ∈ leftOld.values, kind value → spared value = false) ∧
    ∀ value ∈ rightOld.values, kind value → spared value = false

variable (owned : Owned spared leftOld rightOld kind)
include tracks owned

theorem updateMany {update : Update V} (ofKind : ∀ value, update.filter value = true → kind value)
    (seesSame : ∀ value, sees (update.set value) = sees value)
    (sparedSame : ∀ value, spared (update.set value) = spared value) :
    Lockstep related (fun _ => related) (Session.updateMany update : Session D E Nat) := by
  intro left right holds
  have alike : Collection.Alike sees spared leftOld rightOld (Holds.get left) (Holds.get right) :=
    Tracks.alike holds
  have leftKind := Collection.not_spared alike.leftSpares owned.1
  have rightKind := Collection.not_spared alike.rightSpares owned.2
  have leftApart : ∀ value ∈ (Holds.get left).values, update.filter value = true →
      spared value = false :=
    fun value valueMem matched => leftKind value valueMem (ofKind value matched)
  rcases alike.updateMany (Tracks.covers related) leftApart
    (fun value valueMem matched => rightKind value valueMem (ofKind value matched))
    seesSame sparedSame with ⟨count, later⟩
  refine .inl ⟨_, _, _, rfl, ?_, Tracks.set holds later⟩
  rw [run_updateMany, count]

variable [DecidableEq I]

/-- The document with this identifier is of the kind. -/
theorem findById {i : I} (ofKind : ∀ value : V, Document.id value = i → kind value) :
    Lockstep related
      (fun found left right => related left right ∧ ∀ value ∈ found, Document.id value = i)
      (Session.findById V i : Session D E (Option V)) := by
  intro left right holds
  have alike : Collection.Alike sees spared leftOld rightOld (Holds.get left) (Holds.get right) :=
    Tracks.alike holds
  have leftKind := Collection.not_spared alike.leftSpares owned.1
  have rightKind := Collection.not_spared alike.rightSpares owned.2
  have same := alike.findById
    (fun value valueMem isId =>
      Tracks.covers related value (leftKind value valueMem (ofKind value isId)))
    (fun value valueMem isId =>
      Tracks.covers related value (rightKind value valueMem (ofKind value isId)))
  refine .inl ⟨_, _, _, rfl, ?_, holds, ?_⟩
  · rw [run_findById, same]
  · intro value found
    exact ((Collection.findById_eq_some alike.leftNodup).mp found).2

theorem updateOne {i : I} {update : Update V}
    (ofKind : ∀ value : V, Document.id value = i → update.filter value = true → kind value)
    (seesSame : ∀ value, sees (update.set value) = sees value)
    (sparedSame : ∀ value, spared (update.set value) = spared value) :
    Lockstep related (fun _ => related) (Session.updateOne i update : Session D E Nat) := by
  have matches_kind : ∀ value, (update.only i).filter value = true → kind value := by
    intro value matched
    rcases Bool.and_eq_true_iff.mp matched with ⟨isId, filtered⟩
    exact ofKind value (of_decide_eq_true isId) filtered
  exact updateMany owned matches_kind seesSame sparedSame

/-- The document with this identifier is of the kind if it matches. -/
theorem findOneAndUpdate {i : I} {update : Update V}
    (ofKind : ∀ value : V, Document.id value = i → update.filter value = true → kind value)
    (seesSame : ∀ value, sees (update.set value) = sees value)
    (sparedSame : ∀ value, spared (update.set value) = spared value) :
    Lockstep related
      (fun found left right => related left right ∧ ∀ value ∈ found, Document.id value = i)
      (Session.findOneAndUpdate i update : Session D E (Option V)) := by
  have matches_kind : ∀ value, (update.only i).filter value = true → kind value := by
    intro value matched
    rcases Bool.and_eq_true_iff.mp matched with ⟨isId, filtered⟩
    exact ofKind value (of_decide_eq_true isId) filtered
  intro left right holds
  have alike : Collection.Alike sees spared leftOld rightOld (Holds.get left) (Holds.get right) :=
    Tracks.alike holds
  have leftKind := Collection.not_spared alike.leftSpares owned.1
  have rightKind := Collection.not_spared alike.rightSpares owned.2
  have same := alike.find
    (fun value valueMem matched =>
      Tracks.covers related value (leftKind value valueMem (matches_kind value matched)))
    (fun value valueMem matched =>
      Tracks.covers related value (rightKind value valueMem (matches_kind value matched)))
  have later := (alike.updateMany (Tracks.covers related)
    (fun value valueMem matched => leftKind value valueMem (matches_kind value matched))
    (fun value valueMem matched => rightKind value valueMem (matches_kind value matched))
    seesSame sparedSame).2
  have sameMatch : ((Holds.get left : Collection V).findById i).filter update.filter =
      ((Holds.get right : Collection V).findById i).filter update.filter := by
    rw [Collection.findById_filter_only alike.leftNodup, Collection.findById_filter_only
      alike.rightNodup, same]
  cases search : ((Holds.get left : Collection V).findById i).filter update.filter with
  | none =>
      rw [search] at sameMatch
      refine .inl ⟨none, left, right, findOneAndUpdate_of_unmatched alike.leftNodup ?_,
        findOneAndUpdate_of_unmatched alike.rightNodup ?_, holds,
        fun _ absurdity => by cases absurdity⟩
      · intro found isStored
        exact Bool.not_eq_true _ ▸ Option.filter_eq_none_iff.mp search found isStored
      · intro found isStored
        exact Bool.not_eq_true _ ▸ Option.filter_eq_none_iff.mp sameMatch.symm found isStored
  | some found =>
      rw [search] at sameMatch
      rcases Option.filter_eq_some_iff.mp search with ⟨leftFound, matched⟩
      rcases Option.filter_eq_some_iff.mp sameMatch.symm with ⟨rightFound, _⟩
      refine .inl ⟨some (update.set found), _, _,
        findOneAndUpdate_of_found alike.leftNodup leftFound matched,
        findOneAndUpdate_of_found alike.rightNodup rightFound matched, Tracks.set holds later, ?_⟩
      rintro _ ⟨⟩
      exact (update.id_set found).trans ((Collection.findById_eq_some alike.leftNodup).mp leftFound).2

omit owned in
/-- A document that is seen and clashes with documents that are seen. -/
theorem create {duplicateKey : E} {value : V} (notSpared : spared value = false)
    (within : ∀ left right, related left right → ∀ other,
      other ∈ (Holds.get left : Collection V).values ∨
        other ∈ (Holds.get right : Collection V).values →
      (decide (Document.id other = Document.id value) || Document.clash other value) = true →
        sees other = true) :
    Lockstep related (fun _ => related)
      (Session.create duplicateKey value : Session D E Unit) := by
  intro left right holds
  have alike : Collection.Alike sees spared leftOld rightOld (Holds.get left) (Holds.get right) :=
    Tracks.alike holds
  rcases alike.append notSpared
    (fun other otherMem => within left right holds other (.inl otherMem))
    (fun other otherMem => within left right holds other (.inr otherMem)) with ⟨same, later⟩
  cases clash : (Holds.get left : Collection V).duplicates value with
  | true =>
      right
      refine ⟨duplicateKey, ?_, ?_⟩
      · simp only [Session.create, StateT.run, clash, if_true]
      · simp only [Session.create, StateT.run, same ▸ clash, if_true]
  | false =>
      left
      exact ⟨(), _, _, create_eq_ok.mpr ⟨clash, rfl⟩, create_eq_ok.mpr ⟨same ▸ clash, rfl⟩,
        Tracks.set holds (later clash)⟩

omit owned in
theorem insertMany {duplicateKey : E} {values : List V}
    (notSpared : ∀ value ∈ values, spared value = false)
    (within : ∀ value ∈ values, ∀ left right, related left right → ∀ other,
      other ∈ (Holds.get left : Collection V).values ∨
        other ∈ (Holds.get right : Collection V).values →
      (decide (Document.id other = Document.id value) || Document.clash other value) = true →
        sees other = true) :
    Lockstep related (fun _ => related)
      (Session.insertMany duplicateKey values : Session D E Unit) := by
  induction values with
  | nil => exact stay
  | cons value rest ih =>
      apply bind
      · exact create (notSpared value List.mem_cons_self) (within value List.mem_cons_self)
      · intro _
        apply ih
        · intro other membership
          exact notSpared other (List.mem_cons_of_mem _ membership)
        · intro other membership
          exact within other (List.mem_cons_of_mem _ membership)

end Lockstep

end Session

end DocStore
