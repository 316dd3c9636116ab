import WorkflowEngine.Foundations.Snapshot

/-!
# Sessions

A transaction callback reads and writes a private view of the database and may
throw.  The operations below are the ones a document store offers a session; they
also describe single operations outside a transaction, run directly on the
committed database.
-/

namespace DocStore

/-- A callback over a database `D` that may throw an `E`. -/
abbrev Session (D E : Type) := StateT D (Except E)

/-- The database `D` has a collection of `V`. -/
class Holds (D V : Type) where
  get : D → Collection V
  set : D → Collection V → D
  get_set : ∀ db collection, get (set db collection) = collection
  set_get : ∀ db, set db (get db) = db

/-- The update restricted to the document with one identifier. -/
def Update.only {V I : Type} [Document V I] [DecidableEq I] (i : I) (update : Update V) :
    Update V where
  filter value := decide (Document.id value = i) && update.filter value
  set := update.set
  id_set := update.id_set

theorem Update.id_of_only {V I : Type} [Document V I] [DecidableEq I] {i : I} {update : Update V}
    {value : V} (matched : (update.only i).filter value = true) : Document.id value = i :=
  of_decide_eq_true (Bool.and_eq_true_iff.mp matched).1

namespace Session

variable {D E V I : Type} [Document V I] [DecidableEq I] [Holds D V]

def findById (V : Type) {I : Type} [Document V I] [DecidableEq I] [Holds D V] (i : I) :
    Session D E (Option V) :=
  fun db => .ok ((Holds.get db : Collection V).findById i, db)

def find (V : Type) {I : Type} [Document V I] [Holds D V] (filter : V → Bool) :
    Session D E (List V) :=
  fun db => .ok ((Holds.get db : Collection V).find filter, db)

/-- The number of documents updated. -/
def updateMany {I : Type} [Document V I] (update : Update V) : Session D E Nat :=
  fun db => .ok ((Holds.get db).matched update,
    Holds.set db ((Holds.get db).updateMany update))

/-- Update the document with this identifier if it matches. -/
def updateOne (i : I) (update : Update V) : Session D E Nat :=
  updateMany (update.only i)

/-- As `updateOne`; returns the updated document. -/
def findOneAndUpdate (i : I) (update : Update V) : Session D E (Option V) := do
  let modified ← updateOne i update
  if modified = 0 then
    return none
  else
    findById V i

/-- Insert a document; throws when it violates a unique index of the view. -/
def create (duplicateKey : E) (value : V) : Session D E Unit :=
  fun db =>
    if (Holds.get db).duplicates value then
      .error duplicateKey
    else
      .ok ((), Holds.set db (Holds.get db ++ [⟨0, value⟩]))

def insertMany (duplicateKey : E) : List V → Session D E Unit
  | [] => pure ()
  | value :: rest => do
      create duplicateKey value
      insertMany duplicateKey rest

/-! ## Reading a session step by step -/

@[simp] theorem run_findById (i : I) (db : D) :
    (findById V i : Session D E (Option V)).run db =
      .ok ((Holds.get db : Collection V).findById i, db) := rfl

omit [DecidableEq I] in
@[simp] theorem run_find (filter : V → Bool) (db : D) :
    (find V filter : Session D E (List V)).run db =
      .ok ((Holds.get db : Collection V).find filter, db) := rfl

omit [DecidableEq I] in
@[simp] theorem run_updateMany (update : Update V) (db : D) :
    (updateMany update : Session D E Nat).run db =
      .ok ((Holds.get db).matched update,
        Holds.set db ((Holds.get db).updateMany update)) := rfl

@[simp] theorem run_updateOne (i : I) (update : Update V) (db : D) :
    (updateOne i update : Session D E Nat).run db =
      .ok ((Holds.get db).matched (update.only i),
        Holds.set db ((Holds.get db).updateMany (update.only i))) := rfl

omit [Document V I] [DecidableEq I] [Holds D V] in
/-- A computation that does not throw, step by step. -/
theorem ok_of_bind {α β : Type} {first : Except E α} {next : α → Except E β} {result : β}
    (ran : (first >>= next) = .ok result) :
    ∃ value, first = .ok value ∧ next value = .ok result := by
  cases first with
  | error thrown => cases ran
  | ok value => exact ⟨value, rfl, ran⟩

omit [Document V I] [DecidableEq I] [Holds D V] in
/-- A computation that throws, step by step. -/
theorem error_of_bind {α β : Type} {first : Except E α} {next : α → Except E β} {thrown : E}
    (threw : (first >>= next) = .error thrown) :
    first = .error thrown ∨ ∃ value, first = .ok value ∧ next value = .error thrown := by
  cases first with
  | error other =>
      cases threw
      exact .inl rfl
  | ok value => exact .inr ⟨value, rfl, threw⟩

/-- A sequence of two steps that does not throw. -/
theorem bind_eq_ok {α β : Type} {first : Session D E α} {next : α → Session D E β}
    {db final : D} {result : β} :
    (first >>= next).run db = .ok (result, final) ↔
      ∃ value middle, first.run db = .ok (value, middle) ∧
        (next value).run middle = .ok (result, final) := by
  rw [StateT.run_bind]
  cases first.run db with
  | error thrown => simp [bind, Except.bind]
  | ok pair =>
      cases pair with
      | mk value middle => simp [bind, Except.bind]

/-- A sequence of two steps that throws. -/
theorem bind_eq_error {α β : Type} {first : Session D E α} {next : α → Session D E β}
    {db : D} {thrown : E} :
    (first >>= next).run db = .error thrown ↔
      first.run db = .error thrown ∨ ∃ value middle, first.run db = .ok (value, middle) ∧
        (next value).run middle = .error thrown := by
  rw [StateT.run_bind]
  cases first.run db with
  | error other => simp [bind, Except.bind]
  | ok pair =>
      cases pair with
      | mk value middle => simp [bind, Except.bind]

theorem pure_eq_ok {α : Type} {value result : α} {db final : D} :
    (pure value : Session D E α).run db = .ok (result, final) ↔
      value = result ∧ db = final := by
  rw [StateT.run_pure]
  simp [pure, Except.pure]

omit [Document V I] [DecidableEq I] [Holds D V] in
theorem throw_eq_ok {α : Type} {thrown : E} {db final : D} {result : α} :
    ¬ (throw thrown : Session D E α).run db = .ok (result, final) := by
  intro impossible
  cases impossible

theorem create_eq_ok {duplicateKey : E} {value : V} {db final : D} {result : Unit} :
    (create duplicateKey value : Session D E Unit).run db = .ok (result, final) ↔
      (Holds.get db).duplicates value = false ∧
        final = Holds.set db (Holds.get db ++ [⟨0, value⟩]) := by
  simp only [create, StateT.run]
  split
  · next clash => simp [clash]
  · next clear =>
    simp only [Except.ok.injEq, Prod.mk.injEq, true_and]
    constructor
    · intro final_eq
      exact ⟨by simpa using clear, final_eq.symm⟩
    · exact fun both => both.2.symm

end Session

namespace Collection

variable {V I : Type} [Document V I]

/-- Updating nothing leaves the collection alone. -/
theorem updateMany_of_matched_zero {collection : Collection V} {update : Update V}
    (unmatched : collection.matched update = 0) : collection.updateMany update = collection := by
  have same : ∀ doc ∈ collection, update.onStored doc = id doc := by
    intro doc membership
    have absent := List.countP_eq_zero.mp unmatched doc membership
    exact Update.onStored_of_not_filter (by simpa using absent)
  rw [updateMany, List.map_congr_left same, List.map_id]

theorem ids_updateMany (collection : Collection V) (update : Update V) :
    ids (collection.updateMany update) = ids collection := by
  rw [ids, updateMany, List.map_map]
  apply List.map_congr_left
  intro doc _
  simp [idOf]

variable [DecidableEq I]

theorem findById_updateMany (collection : Collection V) (update : Update V) (i : I) :
    (collection.updateMany update).findById i = (collection.findById i).map update.onValue := by
  have same : (fun doc : Stored V => decide (idOf doc = i)) ∘ update.onStored =
      fun doc => decide (idOf doc = i) := by
    funext doc
    rw [Function.comp_apply, decide_eq_decide, idOf, Update.val_onStored, Update.id_onValue]
    rfl
  rw [findById, findStored, updateMany, List.find?_map, same, findById, findStored,
    Option.map_map, Option.map_map]
  congr 1
  funext doc
  simp

/-- An update of one document matches it or nothing. -/
theorem matched_only {collection : Collection V} (nodup : (ids collection).Nodup) (i : I)
    (update : Update V) :
    collection.matched (update.only i) =
      if (collection.findById i).any update.filter then 1 else 0 := by
  induction collection with
  | nil => rfl
  | cons doc rest ih =>
      rw [ids, List.map_cons, List.nodup_cons] at nodup
      have later := ih nodup.2
      rw [matched, List.countP_cons]
      rw [matched] at later
      by_cases same : idOf doc = i
      · have absent : findById rest i = none := by
          rw [findById_eq_none]
          exact same ▸ nodup.1
        rw [absent] at later
        have found : findById (doc :: rest) i = some doc.val := by
          simp [findById, findStored, same]
        have isId : Document.id doc.val = i := same
        rw [later, found]
        simp [Update.only, isId]
      · have found : findById (doc :: rest) i = findById rest i := by
          simp [findById, findStored, same]
        have isId : ¬ Document.id doc.val = i := same
        rw [later, found]
        simp [Update.only, isId]

end Collection

namespace Session

variable {D E V I : Type} [Document V I] [DecidableEq I] [Holds D V]

/-- An update of one document matches nothing or that document. -/
theorem updateOne_eq_ok {i : I} {update : Update V} {db final : D} {modified : Nat}
    (nodup : (Holds.get db : Collection V).ids.Nodup)
    (ran : (updateOne i update : Session D E Nat).run db = .ok (modified, final)) :
    (modified = 0 ∧ final = db ∧ ∀ found, (Holds.get db : Collection V).findById i = some found →
        update.filter found = false) ∨
      modified = 1 ∧ ∃ found, (Holds.get db : Collection V).findById i = some found ∧
        update.filter found = true ∧
        final = Holds.set db ((Holds.get db).updateMany (update.only i)) := by
  rw [run_updateOne] at ran
  simp only [Except.ok.injEq, Prod.mk.injEq] at ran
  rcases ran with ⟨rfl, rfl⟩
  have count := Collection.matched_only nodup i update
  by_cases matched : ((Holds.get db : Collection V).findById i).any update.filter = true
  · right
    rw [if_pos matched] at count
    cases search : (Holds.get db : Collection V).findById i with
    | none => simp [search] at matched
    | some found =>
        rw [search] at matched
        exact ⟨count, found, rfl, matched, rfl⟩
  · left
    rw [if_neg matched] at count
    refine ⟨count, ?_, ?_⟩
    · rw [Collection.updateMany_of_matched_zero count, Holds.set_get]
    · intro found search
      simpa [search] using matched

/-- What `findOneAndUpdate` found and did. -/
theorem findOneAndUpdate_eq_ok {i : I} {update : Update V} {db final : D} {result : Option V}
    (nodup : (Holds.get db : Collection V).ids.Nodup)
    (ran : (findOneAndUpdate i update : Session D E (Option V)).run db = .ok (result, final)) :
    (result = none ∧ final = db) ∨
      ∃ found, (Holds.get db : Collection V).findById i = some found ∧
        update.filter found = true ∧ result = some (update.set found) ∧
        final = Holds.set db ((Holds.get db).updateMany (update.only i)) := by
  rcases bind_eq_ok.mp ran with ⟨modified, middle, updated, rest⟩
  rcases updateOne_eq_ok nodup updated with
    ⟨rfl, rfl, _⟩ | ⟨rfl, found, search, matched, rfl⟩
  · rw [if_pos rfl] at rest
    rcases pure_eq_ok.mp rest with ⟨rfl, rfl⟩
    exact .inl ⟨rfl, rfl⟩
  · right
    rw [if_neg Nat.one_ne_zero, run_findById, Holds.get_set, Collection.findById_updateMany,
      search] at rest
    simp only [Except.ok.injEq, Prod.mk.injEq] at rest
    have isId : Document.id found = i := ((Collection.findById_eq_some nodup).mp search).2
    refine ⟨found, search, matched, ?_, rest.2.symm⟩
    rw [← rest.1]
    simp [Update.onValue, Update.only, isId, matched]

theorem findOneAndUpdate_of_found {i : I} {update : Update V} {db : D} {found : V}
    (nodup : (Holds.get db : Collection V).ids.Nodup)
    (search : (Holds.get db : Collection V).findById i = some found)
    (matched : update.filter found = true) :
    (findOneAndUpdate i update : Session D E (Option V)).run db =
      .ok (some (update.set found),
        Holds.set db ((Holds.get db).updateMany (update.only i))) := by
  have count := Collection.matched_only nodup i update
  rw [search, Option.any_some, if_pos matched] at count
  have isId : Document.id found = i := ((Collection.findById_eq_some nodup).mp search).2
  have written : (update.only i).onValue found = update.set found := by
    simp [Update.onValue, Update.only, isId, matched]
  apply bind_eq_ok.mpr
  refine ⟨1, _, by rw [run_updateOne, count], ?_⟩
  rw [if_neg Nat.one_ne_zero, run_findById, Holds.get_set, Collection.findById_updateMany, search,
    Option.map_some, written]

theorem findOneAndUpdate_of_unmatched {i : I} {update : Update V} {db : D}
    (nodup : (Holds.get db : Collection V).ids.Nodup)
    (unmatched : ∀ found, (Holds.get db : Collection V).findById i = some found →
      update.filter found = false) :
    (findOneAndUpdate i update : Session D E (Option V)).run db = .ok (none, db) := by
  have count := Collection.matched_only nodup i update
  have nothing : ((Holds.get db : Collection V).findById i).any update.filter = false := by
    cases search : (Holds.get db : Collection V).findById i with
    | none => rfl
    | some found => exact unmatched found search
  rw [nothing, if_neg Bool.false_ne_true] at count
  apply bind_eq_ok.mpr
  refine ⟨0, db, ?_, rfl⟩
  rw [run_updateOne, count, Collection.updateMany_of_matched_zero count, Holds.set_get]

/-! ## What a session keeps -/

/-- A session that returns keeps a predicate of its view, and one that throws throws
what it may. -/
def Preserves {α : Type} (holds : D → Prop) (mayThrow : E → Prop) (session : Session D E α) :
    Prop :=
  ∀ db, holds db →
    (∀ result final, session.run db = .ok (result, final) → holds final) ∧
      ∀ thrown, session.run db = .error thrown → mayThrow thrown

/-- The predicate says of the documents of type `V` that no two share an
identifier, and nothing else. -/
class KeepsKeys (holds : D → Prop) (V : Type) {I : outParam Type} [Document V I]
    [Holds D V] : Prop where
  nodup : ∀ {db}, holds db → (Holds.get db : Collection V).ids.Nodup
  set : ∀ {db} {collection : Collection V}, holds db → collection.ids.Nodup →
    holds (Holds.set db collection)

namespace Preserves

variable {holds : D → Prop} {mayThrow : E → Prop} {α β : Type}

omit [Document V I] [DecidableEq I] [Holds D V] in
theorem final {session : Session D E α} (preserves : Preserves holds mayThrow session) {db after : D}
    {result : α} (before : holds db) (ran : session.run db = .ok (result, after)) : holds after :=
  (preserves db before).1 result after ran

omit [Document V I] [DecidableEq I] [Holds D V] in
theorem thrown {session : Session D E α} (preserves : Preserves holds mayThrow session) {db : D}
    {error : E} (before : holds db) (threw : session.run db = .error error) : mayThrow error :=
  (preserves db before).2 error threw

omit [Document V I] [DecidableEq I] [Holds D V] in
theorem weaken {session : Session D E α} {more : E → Prop}
    (preserves : Preserves holds mayThrow session) (weaker : ∀ error, mayThrow error → more error) :
    Preserves holds more session :=
  fun db before => ⟨(preserves db before).1, fun error threw =>
    weaker error ((preserves db before).2 error threw)⟩

omit [Document V I] [DecidableEq I] [Holds D V] in
theorem pure {value : α} : Preserves holds mayThrow (Pure.pure value : Session D E α) := by
  intro db before
  refine ⟨?_, ?_⟩
  · intro result final ran
    rcases pure_eq_ok.mp ran with ⟨_, rfl⟩
    exact before
  · intro error threw
    cases threw

omit [Document V I] [DecidableEq I] [Holds D V] in
theorem throw {error : E} (may : mayThrow error) :
    Preserves holds mayThrow (MonadExcept.throw error : Session D E α) := by
  intro db before
  refine ⟨fun _ _ ran => absurd ran throw_eq_ok, ?_⟩
  intro other threw
  cases threw
  exact may

omit [Document V I] [DecidableEq I] [Holds D V] in
theorem get : Preserves holds mayThrow (MonadState.get : Session D E D) := by
  intro db before
  refine ⟨?_, ?_⟩
  · intro result final ran
    cases ran
    exact before
  · intro error threw
    cases threw

omit [Document V I] [DecidableEq I] [Holds D V] in
theorem bind {first : Session D E α} {next : α → Session D E β}
    (before : Preserves holds mayThrow first) (after : ∀ value, Preserves holds mayThrow (next value)) :
    Preserves holds mayThrow (first >>= next) := by
  intro db start
  refine ⟨?_, ?_⟩
  · intro result final ran
    rcases bind_eq_ok.mp ran with ⟨value, middle, ran', rest⟩
    exact (after value).final (before.final start ran') rest
  · intro error threw
    rcases bind_eq_error.mp threw with threw' | ⟨value, middle, ran', threw'⟩
    · exact before.thrown start threw'
    · exact (after value).thrown (before.final start ran') threw'

omit [Document V I] [DecidableEq I] [Holds D V] in
theorem ite {condition : Prop} [Decidable condition] {yes no : Session D E α}
    (whenTrue : Preserves holds mayThrow yes) (whenFalse : Preserves holds mayThrow no) :
    Preserves holds mayThrow (if condition then yes else no) := by
  split
  · exact whenTrue
  · exact whenFalse

theorem findById {i : I} :
    Preserves holds mayThrow (Session.findById V i : Session D E (Option V)) := by
  intro db before
  refine ⟨?_, ?_⟩
  · intro result final ran
    cases ran
    exact before
  · intro error threw
    cases threw

variable [KeepsKeys holds V]

omit [DecidableEq I] in
theorem updateMany {update : Update V} :
    Preserves holds mayThrow (Session.updateMany update : Session D E Nat) := by
  intro db before
  refine ⟨?_, ?_⟩
  · intro result final ran
    cases ran
    apply KeepsKeys.set before
    rw [Collection.ids_updateMany]
    exact KeepsKeys.nodup before
  · intro error threw
    cases threw

theorem updateOne {i : I} {update : Update V} :
    Preserves holds mayThrow (Session.updateOne i update : Session D E Nat) :=
  updateMany

theorem findOneAndUpdate {i : I} {update : Update V} :
    Preserves holds mayThrow (Session.findOneAndUpdate i update : Session D E (Option V)) :=
  bind updateOne fun _ => ite pure findById

theorem create {duplicateKey : E} {value : V} (may : mayThrow duplicateKey) :
    Preserves holds mayThrow (Session.create duplicateKey value : Session D E Unit) := by
  intro db before
  refine ⟨?_, ?_⟩
  · intro result final ran
    rcases create_eq_ok.mp ran with ⟨unique, rfl⟩
    apply KeepsKeys.set before
    have absent : Document.id value ∉ (Holds.get db : Collection V).ids := by
      intro present
      rcases List.mem_map.mp present with ⟨doc, membership, same⟩
      have clear := List.any_eq_false.mp unique doc membership
      simp [same] at clear
    rw [Collection.ids, List.map_append]
    exact List.nodup_append_comm.mp (List.nodup_cons.mpr ⟨absent, KeepsKeys.nodup before⟩)
  · intro error threw
    simp only [Session.create, StateT.run] at threw
    split at threw
    · cases threw
      exact may
    · cases threw

theorem insertMany {duplicateKey : E} {values : List V} (may : mayThrow duplicateKey) :
    Preserves holds mayThrow (Session.insertMany duplicateKey values : Session D E Unit) := by
  induction values with
  | nil => exact pure
  | cons value rest ih => exact bind (create may) fun _ => ih

end Preserves

end Session

end DocStore
