import WorkflowEngine.Events.Leaders

/-!
# What the leaders publish

A row that a call has marked is not found again.  With one leader at a time nobody else
holds it either, so a row is published a second time only if a call ended, or was left,
between publishing and marking it.
-/

namespace WorkflowEngine.Events

open Queues

variable {Token : Type}

/-- The rows that a call works on. -/
def RelayFrame.batch : RelayFrame → List Row
  | .find => []
  | .publish batch | .mark batch => batch

/-- Replacing one call among several. -/
theorem perm_flatMap_set {α β : Type} {items : List α} {i : Nat} {old : α}
    (found : items[i]? = some old) (new : α) (part : α → List β) :
    (part new ++ items.flatMap part).Perm (part old ++ (items.set i new).flatMap part) := by
  induction items generalizing i with
  | nil => cases found
  | cons first rest ih =>
      cases i with
      | zero =>
          cases found
          simp only [List.set_cons_zero, List.flatMap_cons]
          exact List.perm_append_comm_assoc _ _ _
      | succ i =>
          have later := ih (i := i) found
          simp only [List.set_cons_succ, List.flatMap_cons]
          calc part new ++ (part first ++ rest.flatMap part)
            List.Perm _ (part first ++ (part new ++ rest.flatMap part)) :=
              List.perm_append_comm_assoc _ _ _
            List.Perm _ (part first ++ (part old ++ (rest.set i new).flatMap part)) :=
              later.append_left _
            List.Perm _ _ := List.perm_append_comm_assoc _ _ _

/-- A batch has no row twice. -/
theorem Outbox.findBatch_nodup {batchSize : Nat} {rows : List Row} (nodup : rows.Nodup) :
    (Outbox.findBatch batchSize rows).Nodup := by
  have sorted := (List.perm_insertionSort (fun left right : Row => left.id ≤ right.id)
    (rows.filter fun row => row.publishedAt.isNone)).nodup_iff.mpr (nodup.filter _)
  unfold Outbox.findBatch limited
  split
  · exact sorted
  · exact sorted.sublist (List.take_sublist _ _)

namespace Relays

/-- The rows that calls in progress have published and not marked. -/
def marking (relays : Relays Token) : List Row :=
  relays.outbox.relays.flatMap rowsOf

/-- The rows whose calls were interrupted, or are, between publishing and marking. -/
def interrupted (relays : Relays Token) : List Row :=
  relays.marking ++ relays.abandoned

/-- Whether the runner is the leader. -/
def leads (ttlMs : Int) (relays : Relays Token) (runner : Nat) : Bool :=
  (relays.runners runner).leased ttlMs relays.timed.now

/-- What is marked stays marked, and nobody leads with a marked row. -/
structure Published (ttlMs : Int) (relays : Relays Token) : Prop where
  outbox : relays.outbox.Inv
  ids : (relays.outbox.rows.map Row.id).Nodup
  calls : ∀ i call, relays.call? i = some call → call < relays.outbox.relays.length
  apart : ∀ i j call, relays.call? i = some call → relays.call? j = some call → i = j
  distinct : ∀ frame, some frame ∈ relays.outbox.relays → frame.batch.Nodup
  unmarked : ∀ row ∈ relays.outbox.rows, row.publishedAt = none → row ∉ relays.marked
  batches : ∀ i call frame, relays.call? i = some call → relays.leads ttlMs i = true →
    relays.outbox.relays[call]? = some (some frame) → ∀ row ∈ frame.batch, row ∉ relays.marked
  nodup : relays.marked.Nodup
  counted : ∀ row, relays.outbox.acknowledged.count row =
    relays.marked.count row + relays.interrupted.count row

namespace Published

variable {ttlMs : Int} {batchSize : Nat} {relays next : Relays Token}

theorem init (counters : Nat → Nat) : Published ttlMs (.init counters : Relays Token) where
  outbox := Outbox.inv_init counters
  ids := .nil
  calls i call isCall := by cases isCall
  apart i j call isCall := by cases isCall
  distinct frame membership := by cases membership
  unmarked row membership := by cases membership
  batches i call frame isCall := by cases isCall
  nodup := .nil
  counted _ := rfl

/-- A row that was marked was published. -/
theorem acknowledged (published : relays.Published ttlMs) {row : Row}
    (marked : row ∈ relays.marked) : row ∈ relays.outbox.acknowledged := by
  apply List.count_pos_iff.mp
  rw [published.counted]
  exact Nat.add_pos_left (List.count_pos_iff.mpr marked) _

/-- No call starts, goes on or ends that the outbox knows of. -/
theorem quiet (published : relays.Published ttlMs) (outbox : next.outbox = relays.outbox)
    (marked : next.marked = relays.marked) (abandoned : next.abandoned = relays.abandoned)
    (calls : ∀ i call, next.call? i = some call →
      relays.call? i = some call ∧ (next.leads ttlMs i = true → relays.leads ttlMs i = true)) :
    next.Published ttlMs := by
  constructor
  · rw [outbox]
    exact published.outbox
  · rw [outbox]
    exact published.ids
  · intro i call isCall
    rw [outbox]
    exact published.calls i call (calls i call isCall).1
  · intro i j call left right
    exact published.apart i j call (calls i call left).1 (calls j call right).1
  · rw [outbox]
    exact published.distinct
  · rw [outbox, marked]
    exact published.unmarked
  · intro i call frame isCall leads found
    rw [outbox] at found
    rw [marked]
    exact published.batches i call frame (calls i call isCall).1 ((calls i call isCall).2 leads) found
  · rw [marked]
    exact published.nodup
  · rw [Relays.interrupted, Relays.marking, outbox, marked, abandoned]
    exact published.counted

/-- A row of the collection has the identifier of a committed row. -/
theorem known (published : relays.Published ttlMs) {row : Row} (stored : row ∈ relays.outbox.rows) :
    row.id ∈ relays.outbox.committed.map Row.id := by
  rcases published.outbox.stored row stored with committed | ⟨_, sent, sentMem, same⟩
  · exact List.mem_map_of_mem committed
  · rw [← same]
    exact List.mem_map_of_mem (published.outbox.acknowledged sent sentMem)

/-- Producers commit new rows, and the TTL monitor removes published ones. -/
theorem produce (published : relays.Published ttlMs) {action : Outbox.Action}
    {outbox : Outbox} (producer : action.byProducer = true)
    (taken : relays.outbox.step batchSize action = some outbox) :
    ({ relays with outbox } : Relays Token).Published ttlMs := by
  have inv := published.outbox.step taken
  -- what all these actions leave alone
  have same : outbox.relays = relays.outbox.relays ∧
      outbox.acknowledged = relays.outbox.acknowledged := by
    cases action with
    | emit transaction process seconds event | commit transaction =>
        rcases Option.map_eq_some_iff.mp taken with ⟨rows, _, rfl⟩
        first
          | exact ⟨rfl, rfl⟩
          | split <;> exact ⟨rfl, rfl⟩
    | begin | abort | expire =>
        cases taken
        exact ⟨rfl, rfl⟩
    | _ => cases producer
  have rows : (outbox.rows.map Row.id).Nodup ∧
      ∀ row ∈ outbox.rows, row ∈ relays.outbox.rows ∨ row ∉ relays.marked := by
    cases action with
    | emit transaction process seconds event =>
        rcases Option.map_eq_some_iff.mp taken with ⟨rows, _, rfl⟩
        exact ⟨published.ids, fun row => .inl⟩
    | commit transaction =>
        rcases Option.map_eq_some_iff.mp taken with ⟨rows, _, rfl⟩
        split
        · next fresh =>
          have ids := (of_decide_eq_true fresh).1
          rw [List.map_append] at ids
          refine ⟨?_, fun row membership => ?_⟩
          · rw [List.map_append]
            refine List.nodup_append'.mpr ⟨published.ids, (List.nodup_append'.mp ids).2.1, ?_⟩
            intro id old new
            rcases List.mem_map.mp old with ⟨row, stored, rfl⟩
            exact (List.nodup_append'.mp ids).2.2 (published.known stored) new
          · rcases List.mem_append.mp membership with old | new
            · exact .inl old
            · refine .inr fun marked => Outbox.not_mem_of_fresh fresh new ?_
              exact published.outbox.acknowledged row (published.acknowledged marked)
        · exact ⟨published.ids, fun row => .inl⟩
    | begin | abort =>
        cases taken
        exact ⟨published.ids, fun row => .inl⟩
    | expire id now =>
        cases taken
        exact ⟨published.ids.sublist (List.filter_sublist.map _),
          fun row membership => .inl (List.mem_filter.mp membership).1⟩
    | _ => cases producer
  refine { published with outbox := inv, ids := rows.1, calls := ?_, distinct := ?_
                          unmarked := ?_, batches := ?_, counted := ?_ }
  · intro i call isCall
    rw [same.1]
    exact published.calls i call isCall
  · rw [same.1]
    exact published.distinct
  · intro row membership unpublished
    rcases rows.2 row membership with old | new
    · exact published.unmarked row old unpublished
    · exact new
  · intro i call frame isCall leads found
    rw [same.1] at found
    exact published.batches i call frame isCall leads found
  · rw [same.2, Relays.interrupted, Relays.marking, same.1]
    exact published.counted

/-! ## Calls of the runners -/

theorem getElem?_call (published : relays.Published ttlMs) {runner call : Nat}
    (isCall : relays.call? runner = some call) :
    ∃ frame, relays.outbox.relays[call]? = some frame :=
  ⟨_, List.getElem?_eq_getElem (published.calls runner call isCall)⟩

/-- A runner calls `relayOnce`. -/
theorem start (published : relays.Published ttlMs) {runner round : Nat}
    (called : relays.callRelayOnce batchSize runner round = some next) :
    next.Published ttlMs := by
  have stepped : relays.outbox.step batchSize .relayOnce =
      some { relays.outbox with relays := relays.outbox.relays ++ [some .find] } := rfl
  have inv := published.outbox.step stepped
  cases Relays.callRelayOnce_ok called
  have calls : ∀ i call, Relays.call? { relays.update runner
        { relays.runners runner with
          phase := some (.relay round relays.outbox.relays.length) } with
      outbox :=
        { relays.outbox with relays := relays.outbox.relays ++ [some .find] } } i = some call →
      i = runner ∧ call = relays.outbox.relays.length ∨ relays.call? i = some call := by
    intro i call isCall
    by_cases same : i = runner
    · subst same
      simp only [Relays.call?, Relays.update, Function.update_self] at isCall
      exact .inl ⟨rfl, (Option.some.inj isCall).symm⟩
    · simp only [Relays.call?, Relays.update, Function.update_of_ne same] at isCall
      exact .inr isCall
  have bound : ∀ i, relays.call? i ≠ some relays.outbox.relays.length :=
    fun i isCall => absurd (published.calls i _ isCall) (Nat.lt_irrefl _)
  have leads : ∀ i, Relays.leads ttlMs { relays.update runner
        { relays.runners runner with
          phase := some (.relay round relays.outbox.relays.length) } with
      outbox :=
        { relays.outbox with relays := relays.outbox.relays ++ [some .find] } } i =
      relays.leads ttlMs i := by
    intro i
    by_cases same : i = runner
    · subst same
      simp only [Relays.leads, Relays.update, Function.update_self]
      rfl
    · simp only [Relays.leads, Relays.update, Function.update_of_ne same]
  refine { published with outbox := inv, calls := ?_, apart := ?_, distinct := ?_
                          batches := ?_, counted := ?_ }
  · intro i call isCall
    rw [List.length_append]
    rcases calls i call isCall with ⟨_, rfl⟩ | old
    · exact Nat.lt_succ_self _
    · exact Nat.lt_succ_of_lt (published.calls i call old)
  · intro i j call left right
    rcases calls i call left with ⟨rfl, rfl⟩ | oldLeft
    · rcases calls j _ right with ⟨rfl, _⟩ | oldRight
      · rfl
      · exact absurd oldRight (bound j)
    · rcases calls j call right with ⟨_, rfl⟩ | oldRight
      · exact absurd oldLeft (bound i)
      · exact published.apart i j call oldLeft oldRight
  · intro frame membership
    rcases List.mem_append.mp membership with old | new
    · exact published.distinct frame old
    · cases List.mem_singleton.mp new
      exact .nil
  · intro i call frame isCall leading found
    rw [leads] at leading
    rcases calls i call isCall with ⟨_, rfl⟩ | old
    · rw [List.getElem?_concat_length] at found
      cases found
      exact fun row absurdity => by cases absurdity
    · rw [List.getElem?_append_left (published.calls i call old)] at found
      exact published.batches i call frame old leading found
  · have sameMarking : (relays.outbox.relays ++ [some RelayFrame.find]).flatMap rowsOf =
        relays.outbox.relays.flatMap rowsOf := by
      rw [List.flatMap_append]
      exact List.append_nil _
    simp only [Relays.interrupted, Relays.marking, Relays.update, sameMarking]
    exact published.counted

/-- The call of a runner goes on or ends. -/
theorem replace (published : relays.Published ttlMs)
    (elected : Elected ttlMs relays.timed relays.runners relays.steps) {runner call : Nat}
    {old new : Option RelayFrame} (isCall : relays.call? runner = some call)
    (found : relays.outbox.relays[call]? = some old)
    (frames : next.outbox.relays = relays.outbox.relays.set call new)
    (inv : next.outbox.Inv) (ids : (next.outbox.rows.map Row.id).Nodup)
    (calls : ∀ i other, next.call? i = some other → relays.call? i = some other)
    (leads : ∀ i, next.leads ttlMs i = true → relays.leads ttlMs i = true)
    (distinct : ∀ frame, new = some frame → frame.batch.Nodup)
    (unmarked : ∀ row ∈ next.outbox.rows, row.publishedAt = none → row ∉ next.marked)
    (own : ∀ frame, new = some frame → ∀ row ∈ frame.batch, row ∉ next.marked)
    (marks : next.marked = relays.marked ∨ relays.leads ttlMs runner = true)
    (nodup : next.marked.Nodup)
    (counted : ∀ row, next.outbox.acknowledged.count row =
      next.marked.count row + next.interrupted.count row) :
    next.Published ttlMs := by
  have bound := (List.getElem?_eq_some_iff.mp found).1
  refine ⟨inv, ids, ?_, ?_, ?_, unmarked, ?_, nodup, counted⟩
  · intro i other isOther
    rw [frames, List.length_set]
    exact published.calls i other (calls i other isOther)
  · intro i j other left right
    exact published.apart i j other (calls i other left) (calls j other right)
  · intro frame membership
    rw [frames] at membership
    rcases Outbox.frame_set membership with before | isNew
    · exact published.distinct frame before
    · exact distinct frame isNew
  · intro i other frame isOther leading foundOther
    rw [frames] at foundOther
    by_cases same : other = call
    · subst same
      rw [List.getElem?_set_self bound] at foundOther
      exact own frame (Option.some.inj foundOther)
    · rw [List.getElem?_set_ne (Ne.symm same)] at foundOther
      rcases marks with kept | leader
      · rw [kept]
        exact published.batches i other frame (calls i other isOther) (leads i leading) foundOther
      · -- nobody else leads while rows are marked
        cases elected.leased_unique (leads i leading) leader
        exact absurd (Option.some.inj ((calls _ other isOther).symm.trans isCall)) same

/-- The call of a runner is over, and its tick too. -/
theorem call?_update_idle {runner : Nat} {state : Runner Token} (idle : state.phase = none)
    {i call : Nat} (isCall : (relays.update runner state).call? i = some call) :
    i ≠ runner ∧ relays.call? i = some call := by
  by_cases same : i = runner
  · subst same
    simp only [Relays.call?, Relays.update, Function.update_self, idle] at isCall
    cases isCall
  · simp only [Relays.call?, Relays.update, Function.update_of_ne same] at isCall
    exact ⟨same, isCall⟩

theorem leads_update {runner : Nat} (state : Runner Token)
    (lease : state.lease = (relays.runners runner).lease) {i : Nat} :
    (relays.update runner state).leads ttlMs i = relays.leads ttlMs i := by
  by_cases same : i = runner
  · subst same
    simp only [Relays.leads, Relays.update, Function.update_self, Runner.leased, lease]
    rfl
  · simp only [Relays.leads, Relays.update, Function.update_of_ne same]

/-- The tick of a runner whose call has ended is over. -/
theorem finish (published : relays.Published ttlMs) {runner : Nat} :
    (relays.finish runner).Published ttlMs := by
  refine published.quiet rfl rfl rfl ?_
  intro i call isCall
  refine ⟨(call?_update_idle rfl isCall).2, fun leads => ?_⟩
  rwa [Relays.finish, leads_update { relays.runners runner with phase := none } rfl] at leads

theorem find (published : relays.Published ttlMs)
    (elected : Elected ttlMs relays.timed relays.runners relays.steps) {runner : Nat}
    (advanced : relays.advance batchSize runner .find = some next) : next.Published ttlMs := by
  rcases Relays.advance_ok advanced with ⟨call, outbox, isCall, stepped, rfl⟩
  have inv := published.outbox.step stepped
  simp only [Outbox.step] at stepped
  split at stepped
  · next found =>
    cases stepped
    refine published.replace elected isCall found rfl inv published.ids (fun _ _ => id)
      (fun _ => id) ?_ published.unmarked ?_ (.inl rfl) published.nodup ?_
    · intro frame isNew
      split at isNew
      · cases isNew
      · cases isNew
        exact Outbox.findBatch_nodup (List.Nodup.of_map _ published.ids)
    · intro frame isNew row membership
      split at isNew
      · cases isNew
      · cases isNew
        have stored := Outbox.mem_findBatch membership
        exact published.unmarked row stored.1 stored.2
    · have moved := perm_flatMap_set found
        (if (Outbox.findBatch batchSize relays.outbox.rows).length = 0 then none
          else some (.publish (Outbox.findBatch batchSize relays.outbox.rows))) rowsOf
      have nothing : rowsOf (if (Outbox.findBatch batchSize relays.outbox.rows).length = 0 then none
          else some (.publish (Outbox.findBatch batchSize relays.outbox.rows))) = [] := by
        split <;> rfl
      rw [nothing] at moved
      intro row
      have before := published.counted row
      have same := moved.count_eq row
      simp only [Relays.interrupted, Relays.marking, List.count_append, rowsOf,
        List.count_nil] at before same ⊢
      rw [before]
      omega
  · cases stepped

theorem publish (published : relays.Published ttlMs)
    (elected : Elected ttlMs relays.timed relays.runners relays.steps) {runner : Nat}
    (leads : relays.leads ttlMs runner = true)
    (advanced : relays.advance batchSize runner .publish = some next) :
    next.Published ttlMs := by
  rcases Relays.advance_ok advanced with ⟨call, outbox, isCall, stepped, rfl⟩
  have inv := published.outbox.step stepped
  simp only [Outbox.step] at stepped
  split at stepped
  · next batch found =>
    cases stepped
    refine published.replace elected isCall found rfl inv published.ids (fun _ _ => id)
      (fun _ => id) ?_ published.unmarked ?_ (.inl rfl) published.nodup ?_
    · intro frame isNew
      cases isNew
      exact published.distinct (.publish batch) (List.mem_of_getElem? found)
    · intro frame isNew
      cases isNew
      exact published.batches runner call (.publish batch) isCall leads found
    · intro row
      have before := published.counted row
      have moved := (perm_flatMap_set found (some (.mark batch)) rowsOf).count_eq row
      simp only [Relays.interrupted, Relays.marking, List.count_append, rowsOf,
        List.count_nil] at before moved ⊢
      omega
  · cases stepped

theorem publishFails (published : relays.Published ttlMs)
    (elected : Elected ttlMs relays.timed relays.runners relays.steps) {runner : Nat}
    {written : List Message}
    (advanced : relays.advance batchSize runner (.publishFails · written) = some next) :
    next.Published ttlMs := by
  rcases Relays.advance_ok advanced with ⟨call, outbox, isCall, stepped, rfl⟩
  have inv := published.outbox.step stepped
  simp only [Outbox.step] at stepped
  split at stepped
  · next batch found =>
    split at stepped
    · cases stepped
      refine published.replace elected isCall found rfl inv published.ids (fun _ _ => id)
        (fun _ => id) ?_ published.unmarked ?_ (.inl rfl) published.nodup ?_
      · exact fun frame isNew => by cases isNew
      · exact fun frame isNew => by cases isNew
      · intro row
        have before := published.counted row
        have moved := (perm_flatMap_set found none rowsOf).count_eq row
        simp only [Relays.interrupted, Relays.marking, List.count_append, rowsOf,
          List.count_nil] at before moved ⊢
        omega
    · cases stepped
  · cases stepped

theorem mark (published : relays.Published ttlMs)
    (elected : Elected ttlMs relays.timed relays.runners relays.steps) {runner : Nat}
    {publishedAt : Time} (leads : relays.leads ttlMs runner = true)
    (advanced : relays.advance batchSize runner (.mark · publishedAt) = some next) :
    ({ next with marked := relays.marked ++ relays.unmarkedBy runner } :
      Relays Token).Published ttlMs := by
  rcases Relays.advance_ok advanced with ⟨call, outbox, isCall, stepped, rfl⟩
  have inv := published.outbox.step stepped
  simp only [Outbox.step] at stepped
  split at stepped
  · next batch found =>
    cases stepped
    have rows : relays.unmarkedBy runner = batch := by
      simp only [Relays.unmarkedBy, isCall, Option.bind_some, found, Option.elim_some, rowsOf]
    rw [rows]
    have new := published.batches runner call _ isCall leads found
    refine published.replace elected isCall found rfl inv ?_ (fun _ _ => id)
      (fun _ => id) ?_ ?_ ?_ (.inr leads) ?_ ?_
    · have ids : (relays.outbox.rows.map
          (Outbox.markPublished (batch.map Row.id) publishedAt)).map Row.id =
          relays.outbox.rows.map Row.id := by
        rw [List.map_map]
        apply List.map_congr_left
        intro row _
        simp only [Function.comp_apply, Outbox.markPublished]
        split <;> rfl
      simp only
      rw [ids]
      exact published.ids
    · exact fun frame isNew => by cases isNew
    · intro row membership unpublished marked
      rcases List.mem_map.mp membership with ⟨source, stored, rfl⟩
      unfold Outbox.markPublished at unpublished marked
      split at unpublished
      · cases unpublished
      · next unmarked =>
        rw [if_neg unmarked] at marked
        rcases List.mem_append.mp marked with old | isNew
        · exact published.unmarked source stored unpublished old
        · exact unmarked (List.mem_map_of_mem isNew)
    · exact fun frame isNew => by cases isNew
    · refine List.nodup_append'.mpr ⟨published.nodup,
        published.distinct _ (List.mem_of_getElem? found), ?_⟩
      exact fun row old isNew => new row isNew old
    · intro row
      have before := published.counted row
      have moved := (perm_flatMap_set found none rowsOf).count_eq row
      simp only [Relays.interrupted, Relays.marking, List.count_append, rowsOf,
        List.count_nil] at before moved ⊢
      omega
  · cases stepped

/-- A call is cut off. -/
theorem abandon (published : relays.Published ttlMs)
    (elected : Elected ttlMs relays.timed relays.runners relays.steps) {runner : Nat}
    {state : Runner Token} (idle : state.phase = none)
    (lease : state.lease = (relays.runners runner).lease ∨ state.lease = none)
    (ended : relays.Abandoned runner state next) : next.Published ttlMs := by
  have leads : ∀ i, (relays.update runner state).leads ttlMs i = true →
      relays.leads ttlMs i = true := by
    intro i leading
    rcases lease with same | none
    · rwa [leads_update state same] at leading
    · by_cases isRunner : i = runner
      · subst isRunner
        simp only [Relays.leads, Relays.update, Function.update_self, Runner.leased, none] at leading
        cases leading
      · simpa only [Relays.leads, Relays.update, Function.update_of_ne isRunner] using leading
  cases ended with
  | idle isIdle =>
      refine published.quiet rfl rfl rfl ?_
      exact fun i call isCall => ⟨(call?_update_idle idle isCall).2, leads i⟩
  | @call call isCall =>
      rcases published.getElem?_call isCall with ⟨frame, found⟩
      have stepped : relays.outbox.step 0 (.crash call) =
          some { relays.outbox with relays := relays.outbox.relays.set call none } := rfl
      refine published.replace elected isCall found rfl (published.outbox.step stepped)
        published.ids (fun i other isOther => (call?_update_idle idle isOther).2) leads ?_
        published.unmarked ?_ (.inl rfl) published.nodup ?_
      · exact fun frame isNew => by cases isNew
      · exact fun frame isNew => by cases isNew
      · have rows : relays.unmarkedBy runner = rowsOf frame := by
          simp only [Relays.unmarkedBy, isCall, Option.bind_some, found, Option.elim_some]
        intro row
        have before := published.counted row
        have moved := (perm_flatMap_set found none rowsOf).count_eq row
        rw [rows]
        simp only [Relays.interrupted, Relays.marking, Relays.update, List.count_append] at before moved ⊢
        have nothing : (rowsOf none).count row = 0 := rfl
        omega

/-- A runner sends a command, or only remembers something else. -/
theorem update (published : relays.Published ttlMs) {timed : TimedLock Token} {runner : Nat}
    {state : Runner Token} (now : timed.now = relays.timed.now)
    (quiet : ∀ round call, state.phase = some (.relay round call) →
      (relays.runners runner).phase = some (.relay round call) ∧
        ∀ lease, state.lease = some lease → (relays.runners runner).lease = some lease) :
    (({ relays with timed } : Relays Token).update runner state).Published ttlMs := by
  refine published.quiet rfl rfl rfl ?_
  intro i call isCall
  by_cases same : i = runner
  · subst same
    simp only [Relays.call?, Relays.update, Function.update_self] at isCall
    split at isCall
    · next round _ isPhase =>
      cases isCall
      have before := quiet round call isPhase
      refine ⟨by rw [Relays.call?, before.1], fun leading => ?_⟩
      simp only [Relays.leads, Relays.update, Function.update_self] at leading
      rcases Runner.leased_iff.mp leading with ⟨token, confirmedAt, isLease, young⟩
      exact Runner.leased_iff.mpr ⟨token, confirmedAt, before.2 _ isLease, now ▸ young⟩
    · cases isCall
  · simp only [Relays.call?, Relays.update, Function.update_of_ne same] at isCall
    refine ⟨isCall, fun leading => ?_⟩
    simpa only [Relays.leads, Relays.update, Function.update_of_ne same, now] using leading

/-- A tick that is in no call. -/
theorem command (published : relays.Published ttlMs) {timed : TimedLock Token} {runner : Nat}
    {state : Runner Token} (now : timed.now = relays.timed.now)
    (outside : ∀ round call, state.phase ≠ some (.relay round call)) :
    (({ relays with timed } : Relays Token).update runner state).Published ttlMs :=
  published.update now fun round call isPhase => absurd isPhase (outside round call)

theorem step (published : relays.Published ttlMs)
    (elected : Elected ttlMs relays.timed relays.runners relays.steps) {action : Action Token}
    [DecidableEq Token] (allowed : relays.inLease ttlMs action = true)
    (taken : relays.step ttlMs batchSize action = some next) : next.Published ttlMs := by
  cases action with
  | wait now =>
      cases taken
      refine published.quiet rfl rfl rfl ?_
      intro i call isCall
      refine ⟨isCall, fun leading => ?_⟩
      rcases Runner.leased_iff.mp leading with ⟨token, confirmedAt, isLease, young⟩
      exact Runner.leased_iff.mpr ⟨token, confirmedAt, isLease,
        Int.lt_of_le_of_lt (Int.le_max_left _ _) young⟩
  | produce action =>
      simp only [Relays.step] at taken
      split at taken
      · next producer =>
        rcases Option.map_eq_some_iff.mp taken with ⟨outbox, stepped, rfl⟩
        exact published.produce producer stepped
      · cases taken
  | tick runner =>
      simp only [Relays.step] at taken
      split at taken
      · cases taken
        exact published
      · cases taken
        refine published.command rfl ?_
        intro round call isPhase
        cases held : (relays.runners runner).held with
        | none =>
            rw [held] at isPhase
            cases isPhase
        | some pair =>
            rw [held] at isPhase
            cases isPhase
  | extend runner answered =>
      simp only [Relays.step] at taken
      split at taken
      · next token isPhase =>
        rcases Option.map_eq_some_iff.mp taken with ⟨timed, sent, rfl⟩
        have now := TimedLock.command_now sent
        split
        · exact published.command now fun round call absurdity => by cases absurdity
        · split
          · exact published.command now fun round call absurdity => by cases absurdity
          · exact published.command now fun round call absurdity => by cases absurdity
      · cases taken
  | resume runner =>
      simp only [Relays.step] at taken
      split at taken
      · split at taken
        · exact published.start taken
        · cases taken
          exact published.command rfl fun round call absurdity => by cases absurdity
      · cases taken
  | set runner token answered =>
      simp only [Relays.step] at taken
      split at taken
      · rcases Option.map_eq_some_iff.mp taken with ⟨timed, sent, rfl⟩
        have now := TimedLock.command_now sent
        split
        · exact published.command now fun round call absurdity => by cases absurdity
        · exact published.command now fun round call absurdity => by cases absurdity
      · cases taken
  | incr runner token answered =>
      simp only [Relays.step] at taken
      split at taken
      · next isPhase =>
        rcases Option.bind_eq_some_iff.mp taken with ⟨timed, sent, rest⟩
        have now := TimedLock.command_now sent
        split at rest
        · refine (published.command now ?_).start rest
          intro round call absurdity
          cases isPhase.symm.trans absurdity
        · cases rest
          exact published.command now fun round call absurdity => by cases absurdity
      · cases taken
  | find runner =>
      rcases Option.map_eq_some_iff.mp taken with ⟨middle, advanced, rfl⟩
      split
      · exact (published.find elected advanced).finish
      · exact published.find elected advanced
  | publish runner => exact published.publish elected allowed taken
  | publishFails runner written =>
      rcases Option.map_eq_some_iff.mp taken with ⟨middle, advanced, rfl⟩
      exact (published.publishFails elected advanced).finish
  | mark runner publishedAt =>
      rcases Option.bind_eq_some_iff.mp taken with ⟨middle, advanced, rest⟩
      have marked := published.mark elected allowed advanced
      simp only at rest
      split at rest
      · split at rest
        · exact marked.start rest
        · cases rest
          exact marked.finish
      · cases rest
  | throws runner =>
      have ended : relays.abandon batchSize runner
          { relays.runners runner with phase := none } = some next := taken
      have cutOff := Relays.abandon_ok ended
      refine published.abandon elected ?_ (.inl ?_) cutOff
      · rfl
      · rfl
  | stop runner =>
      cases taken
      exact published.update rfl fun round call isPhase => ⟨isPhase, fun _ => id⟩
  | release runner =>
      simp only [Relays.step] at taken
      split at taken
      · rcases Option.map_eq_some_iff.mp taken with ⟨timed, sent, rfl⟩
        refine published.update (TimedLock.command_now sent) fun round call isPhase => ⟨isPhase, ?_⟩
        exact fun lease kept => (Option.filter_eq_some_iff.mp kept).1
      · cases taken
  | forget runner =>
      simp only [Relays.step] at taken
      split at taken
      · cases taken
        exact published.update rfl fun round call isPhase => ⟨isPhase, fun _ => id⟩
      · cases taken
  | crash runner =>
      have ended : relays.abandon batchSize runner .init = some next := taken
      exact published.abandon elected rfl (.inr rfl) (Relays.abandon_ok ended)

end Published

end Relays

/-- In every run in which the steps of relay calls are taken only by runners whose last
confirmation is younger than the time to live: these steps follow the order in which the
lock was taken, one leader after the other, and a row is published more than once only if
calls are, or were, cut off between publishing and marking it. -/
theorem leaders_relay_in_turn [DecidableEq Token] {ttlMs : Int} {batchSize : Nat}
    {counters : Nat → Nat} {relays : Relays Token}
    (reachable : (relaySystem Token ttlMs batchSize counters).ReachableBy
      (fun relays action => relays.inLease ttlMs action = true) relays) :
    (relays.steps.Pairwise fun first second =>
      first = second ∨ [first, second].Sublist relays.timed.lock.taken) ∧
      ∀ row, relays.outbox.acknowledged.count row ≤ 1 + relays.interrupted.count row := by
  have both : Elected ttlMs relays.timed relays.runners relays.steps ∧
      relays.Published ttlMs := by
    apply reachable.invariant
    · exact ⟨Elected.init, Relays.Published.init counters⟩
    · intro before action next held allowed taken
      exact ⟨held.1.step allowed taken, held.2.step held.1 allowed taken⟩
  refine ⟨both.1.inTurn, fun row => ?_⟩
  rw [both.2.counted row]
  exact Nat.add_le_add_right (List.nodup_iff_count_le_one.mp both.2.nodup row) _

namespace Schedule

/-- The first leader publishes a row and pauses for longer than its lock lives; the second
one publishes it again and marks it. -/
def pausedLeader : List (Relays.Action Nat) :=
  [.produce .begin, .produce (.emit 0 9 100 (event 1 .taskCompleted)), .produce (.commit 0),
    .tick 0, .set 0 7 true, .incr 0 7 true, .find 0, .publish 0, .wait 1000,
    .tick 1, .set 1 8 true, .incr 1 8 true, .find 1, .publish 1, .mark 1 1000, .find 1]

end Schedule

theorem leaders_relay_in_turn_pausedLeader :
    let relays := ((relaySystem Nat 1000 100 fun _ => 0).runBy (Relays.inLease 1000)
      (.init fun _ => 0) Schedule.pausedLeader).get (by decide)
    (relays.steps.Pairwise fun first second =>
      first = second ∨ [first, second].Sublist relays.timed.lock.taken) ∧
      ∀ row, relays.outbox.acknowledged.count row ≤ 1 + relays.interrupted.count row :=
  leaders_relay_in_turn (Transition.System.get_runBy_reachableBy
    (relaySystem Nat 1000 100 fun _ => 0) (Relays.inLease 1000) Schedule.pausedLeader (by decide))

end WorkflowEngine.Events
