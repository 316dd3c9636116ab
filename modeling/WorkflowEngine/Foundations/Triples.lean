import WorkflowEngine.Foundations.Session

/-!
# Triples of sessions

What a session that starts on a view with a property returns and leaves, and what it may
throw.  A session that may throw nothing returns.
-/

namespace DocStore

namespace Session

variable {D E α β : Type}

/-- From a view with `before` the session returns a value and leaves a view with `after`,
or it throws what it may. -/
def Triple (before : D → Prop) (session : Session D E α) (after : α → D → Prop)
    (mayThrow : E → Prop) : Prop :=
  ∀ db, before db →
    (∀ value final, session.run db = .ok (value, final) → after value final) ∧
      ∀ thrown, session.run db = .error thrown → mayThrow thrown

namespace Triple

variable {before : D → Prop} {after : α → D → Prop} {mayThrow : E → Prop}

theorem final {session : Session D E α} (triple : Triple before session after mayThrow)
    {db view : D} {value : α} (start : before db) (ran : session.run db = .ok (value, view)) :
    after value view :=
  (triple db start).1 value view ran

theorem thrown {session : Session D E α} (triple : Triple before session after mayThrow)
    {db : D} {error : E} (start : before db) (threw : session.run db = .error error) :
    mayThrow error :=
  (triple db start).2 error threw

/-- A session that may throw nothing returns. -/
theorem total {session : Session D E α} (triple : Triple before session after mayThrow)
    (never : ∀ error, ¬ mayThrow error) {db : D} (start : before db) :
    ∃ value view, session.run db = .ok (value, view) ∧ after value view := by
  cases ran : session.run db with
  | error error => exact absurd (triple.thrown start ran) (never error)
  | ok pair => exact ⟨pair.1, pair.2, rfl, triple.final start ran⟩

theorem of_preserves {holds : D → Prop} {session : Session D E α}
    (preserves : Preserves holds mayThrow session) :
    Triple holds session (fun _ => holds) mayThrow :=
  preserves

theorem weaken {narrow : D → Prop} {wide : α → D → Prop} {session : Session D E α}
    (triple : Triple before session after mayThrow) (start : ∀ db, narrow db → before db)
    (rest : ∀ value view, after value view → wide value view) :
    Triple narrow session wide mayThrow := by
  intro db given
  constructor
  · intro value view ran
    exact rest value view (triple.final (start db given) ran)
  · intro error threw
    exact triple.thrown (start db given) threw

/-- More may be thrown. -/
theorem allow {wider : E → Prop} {session : Session D E α}
    (triple : Triple before session after mayThrow) (more : ∀ error, mayThrow error → wider error) :
    Triple before session after wider :=
  fun db start => ⟨(triple db start).1, fun error threw => more error (triple.thrown start threw)⟩

theorem pure {value : α} (given : ∀ db, before db → after value db) :
    Triple before (Pure.pure value : Session D E α) after mayThrow := by
  intro db start
  constructor
  · intro result view ran
    rcases pure_eq_ok.mp ran with ⟨rfl, rfl⟩
    exact given db start
  · intro error threw
    cases threw

theorem bind {first : Session D E α} {next : α → Session D E β} {middle : α → D → Prop}
    {after : β → D → Prop} (begin_ : Triple before first middle mayThrow)
    (rest : ∀ value, Triple (middle value) (next value) after mayThrow) :
    Triple before (first >>= next) after mayThrow := by
  intro db start
  constructor
  · intro value view ran
    rcases bind_eq_ok.mp ran with ⟨given, between, ran', rest'⟩
    exact (rest given).final (begin_.final start ran') rest'
  · intro error threw
    rcases bind_eq_error.mp threw with threw' | ⟨given, between, ran', threw'⟩
    · exact begin_.thrown start threw'
    · exact (rest given).thrown (begin_.final start ran') threw'

theorem ite {condition : Prop} [Decidable condition] {yes no : Session D E α}
    (whenTrue : condition → Triple before yes after mayThrow)
    (whenFalse : ¬ condition → Triple before no after mayThrow) :
    Triple before (if condition then yes else no) after mayThrow := by
  split
  · next held => exact whenTrue held
  · next failed => exact whenFalse failed

/-- What the precondition says of more than the view. -/
theorem of_fact {fact : Prop} {session : Session D E α} (known : ∀ db, before db → fact)
    (triple : fact → Triple before session after mayThrow) :
    Triple before session after mayThrow :=
  fun db start => triple (known db start) db start

/-- A part of the precondition that is not needed. -/
theorem of_right {extra : D → Prop} {session : Session D E α}
    (triple : Triple before session after mayThrow) :
    Triple (fun db => extra db ∧ before db) session after mayThrow :=
  fun db start => triple db start.2

theorem of_never {session : Session D E α} (never : ∀ db, ¬ before db) :
    Triple before session after mayThrow :=
  fun db start => absurd start (never db)

end Triple

/-! ## Statements that keep the identifiers -/

variable {V I : Type} [Document V I] [DecidableEq I] [Holds D V]

/-- The predicate says of the documents of type `V` only which identifiers they have, and
that no two share one. -/
class KeepsIds (holds : D → Prop) (V : Type) {I : outParam Type} [Document V I]
    [Holds D V] : Prop where
  nodup : ∀ {db}, holds db → (Holds.get db : Collection V).ids.Nodup
  set : ∀ {db} {collection : Collection V}, holds db →
    collection.ids = (Holds.get db : Collection V).ids → holds (Holds.set db collection)

namespace Triple

variable {holds : D → Prop} {mayThrow : E → Prop}

/-- A document that is read has its identifier, and only one that is missing is not
read. -/
theorem findById {i : I} :
    Triple holds (Session.findById V i : Session D E (Option V))
      (fun found db => ((∀ value, found = some value → Document.id value = i ∧
          i ∈ (Holds.get db : Collection V).ids) ∧
        (found = none → i ∉ (Holds.get db : Collection V).ids)) ∧ holds db) mayThrow := by
  intro db start
  constructor
  · intro found view ran
    rw [run_findById] at ran
    cases ran
    refine ⟨⟨?_, Collection.findById_eq_none.mp⟩, start⟩
    intro value search
    rcases Option.map_eq_some_iff.mp search with ⟨doc, isDoc, rfl⟩
    have isId : Document.id doc.val = i := of_decide_eq_true (List.find?_some isDoc :)
    refine ⟨isId, isId ▸ ?_⟩
    exact Collection.idOf_mem_ids (List.mem_of_find?_eq_some isDoc)
  · intro error threw
    cases threw

variable [KeepsIds holds V]

omit [DecidableEq I] in
theorem updateMany {update : Update V} :
    Triple holds (Session.updateMany update : Session D E Nat) (fun _ => holds) mayThrow := by
  intro db start
  constructor
  · intro modified view ran
    rw [run_updateMany] at ran
    cases ran
    exact KeepsIds.set start (Collection.ids_updateMany _ _)
  · intro error threw
    cases threw

/-- An update that modified something found its document. -/
theorem updateOne {i : I} {update : Update V} :
    Triple holds (Session.updateOne i update : Session D E Nat)
      (fun modified db => (modified ≠ 0 → i ∈ (Holds.get db : Collection V).ids) ∧ holds db)
      mayThrow := by
  intro db start
  have nodup : (Holds.get db : Collection V).ids.Nodup := KeepsIds.nodup start
  constructor
  · intro modified view ran
    rcases updateOne_eq_ok nodup ran with ⟨rfl, rfl, _⟩ | ⟨_, found, search, _, rfl⟩
    · exact ⟨fun absurdity => absurd rfl absurdity, start⟩
    · refine ⟨fun _ => ?_, KeepsIds.set start (Collection.ids_updateMany _ _)⟩
      rw [Holds.get_set, Collection.ids_updateMany]
      have isFound := (Collection.findById_eq_some nodup).mp search
      exact Collection.mem_ids.mpr ⟨found, isFound.1, isFound.2⟩
  · intro error threw
    cases threw

/-- A conditional update may find nothing. -/
theorem findOneAndUpdate_any {i : I} {update : Update V} :
    Triple holds (Session.findOneAndUpdate i update : Session D E (Option V))
      (fun _ => holds) mayThrow := by
  apply bind updateOne
  intro modified
  apply of_right
  apply ite
  · exact fun _ => pure fun _ given => given
  · exact fun _ => findById.weaken (fun _ given => given) fun _ _ given => given.2

/-- An unconditional update finds a document that exists. -/
theorem findOneAndUpdate {i : I} {update : Update V} (unconditional : ∀ value, update.filter value = true)
    (present : ∀ db, holds db → i ∈ (Holds.get db : Collection V).ids) :
    Triple holds (Session.findOneAndUpdate i update : Session D E (Option V))
      (fun found db => (∃ value, found = some value ∧ Document.id value = i) ∧ holds db)
      mayThrow := by
  intro db start
  have nodup : (Holds.get db : Collection V).ids.Nodup := KeepsIds.nodup start
  rcases Collection.mem_ids.mp (present db start) with ⟨value, membership, isId⟩
  have search := (Collection.findById_eq_some nodup).mpr ⟨membership, isId⟩
  have ran := findOneAndUpdate_of_found (E := E) nodup search (unconditional value)
  rw [ran]
  constructor
  · intro found view same
    cases same
    refine ⟨⟨_, rfl, (update.id_set value).trans isId⟩, ?_⟩
    exact KeepsIds.set start (Collection.ids_updateMany _ _)
  · intro error threw
    cases threw

end Triple

end Session

end DocStore
