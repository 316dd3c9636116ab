import Mathlib.Data.List.TakeWhile
import WorkflowEngine.Ai.Fences
import WorkflowEngine.Foundations.JsonReading

/-!
# Recovering the object of a reply

`extractJson` finds the printed object alone, in a json fence and between other words,
provided that no key or string of the object holds a fence itself.  Otherwise the fence
in the string ends the code block early, and what is left does not parse.
-/

open Text Json Runs Separators

namespace WorkflowEngine

/-! ## Finding the fence -/

/-- The text up to a fence is captured. -/
theorem capture_append {before : Text} {last : CodeUnit} (rest : Text)
    (plain : ¬ HasFence before) (notTick : last ≠ tick) :
    capture (before ++ last :: (fence ++ rest)) = some (before ++ [last]) := by
  have notPrefix : ∀ part : Text, ¬ HasFence part →
      fence.isPrefixOf (part ++ last :: (fence ++ rest)) = false := by
    intro part plain
    rw [← Bool.not_eq_true, List.isPrefixOf_iff_prefix, fence_eq, prefix_append_cons (not_mem_replicate notTick),
      ← fence_eq]
    exact fun begins => plain begins.isInfix
  induction before with
  | nil =>
      have found : capture (fence ++ rest) = some [] := by rfl
      have first := notPrefix [] plain
      rw [List.nil_append] at first ⊢
      rw [capture, first, found]
      rfl
  | cons first others ih =>
      have plainOthers : ¬ HasFence others := fun inside => plain (List.infix_cons inside)
      have begins := notPrefix _ plain
      rw [List.cons_append] at begins ⊢
      rw [capture, begins, ih plainOthers]
      rfl

/-- A fence in a text ends the captured text inside it. -/
theorem capture_of_hasFence {text : Text} (rest : Text) (holds : HasFence text) :
    ∃ before after, capture (text ++ rest) = some before ∧ text = before ++ (fence ++ after) := by
  induction text with
  | nil => exact absurd holds (not_hasFence nofun)
  | cons first others ih =>
      rw [List.cons_append, capture]
      by_cases begins : fence.isPrefixOf (first :: (others ++ rest)) = true
      · have long : fence.length ≤ (first :: others).length := holds.length_le
        have whole := List.isPrefixOf_iff_prefix.mp begins
        rw [← List.cons_append] at whole
        rcases List.prefix_of_prefix_length_le whole (List.prefix_append _ rest) long with
          ⟨after, split⟩
        exact ⟨[], after, if_pos begins, split.symm⟩
      · rcases List.infix_cons_iff.mp holds with here | inside
        · exact absurd (List.isPrefixOf_iff_prefix.mpr (here.trans (List.prefix_append _ rest)))
            begins
        · rcases ih inside with ⟨before, after, found, split⟩
          refine ⟨first :: before, after, ?_, ?_⟩
          · rw [if_neg begins, found]
            rfl
          · rw [split, List.cons_append]

theorem fenced_of_not_hasFence {text : Text} (plain : ¬ HasFence text) : fenced text = none := by
  rw [fenced, List.findSome?_eq_none_iff]
  intro rest isTail
  rw [matchFence, if_neg]
  intro begins
  exact plain ((List.isPrefixOf_iff_prefix.mp begins).isInfix.trans
    ((List.mem_tails _ _).mp isTail).isInfix)

theorem afterSpaces_append {spaces rest : Text} {first : CodeUnit}
    (all : ∀ other ∈ spaces, isWhiteSpace other = true) (ends : isWhiteSpace first = false) :
    ∃ others, afterSpaces (spaces ++ first :: rest) = (first :: rest) :: others := by
  induction spaces with
  | nil =>
      rw [List.nil_append, afterSpaces, if_neg (by simp [ends])]
      exact ⟨[], rfl⟩
  | cons space spaces ih =>
      rw [List.forall_mem_cons] at all
      rcases ih all.2 with ⟨others, split⟩
      rw [List.cons_append, afterSpaces, if_pos all.1, split]
      exact ⟨_, rfl⟩

theorem fenced_of_matchFence {text captured : Text} (isMatch : matchFence text = some captured) :
    fenced text = some captured := by
  rw [fenced]
  cases text with
  | nil => rw [List.tails, List.findSome?_cons, isMatch]
  | cons first rest => rw [List.tails_cons, List.findSome?_cons, isMatch]

/-- The captured text of a json fence. -/
theorem fenced_block {spaces rest captured : Text} {first : CodeUnit}
    (all : ∀ other ∈ spaces, isWhiteSpace other = true) (ends : isWhiteSpace first = false)
    (found : capture (first :: rest) = some captured) :
    fenced (ofString "```json" ++ (spaces ++ first :: rest)) = some captured := by
  rcases afterSpaces_append all ends with ⟨others, split⟩
  have opening : fence.isPrefixOf (ofString "```json" ++ (spaces ++ first :: rest)) = true := by
    rw [List.isPrefixOf_iff_prefix]
    exact ⟨ofString "json" ++ (spaces ++ first :: rest), rfl⟩
  have json : afterJson (ofString "json" ++ (spaces ++ first :: rest)) =
      [spaces ++ first :: rest, ofString "json" ++ (spaces ++ first :: rest)] := by
    have word : (ofString "json").map lowerCase = ofString "json" := by decide
    exact if_pos word
  apply fenced_of_matchFence
  rw [matchFence, if_pos opening]
  change (afterJson (ofString "json" ++ (spaces ++ first :: rest))).findSome? _ = _
  rw [json, List.findSome?_cons, split, List.findSome?_cons, found]

/-! ## Finding the object -/

theorem lastIndexOf_eq_none {mark : CodeUnit} {text : Text} (absent : mark ∉ text) :
    lastIndexOf mark text = none := by
  induction text with
  | nil => rfl
  | cons first rest ih =>
      rw [List.mem_cons, not_or] at absent
      rw [lastIndexOf, ih absent.2]
      exact if_neg (Ne.symm absent.1)

theorem lastIndexOf_append {mark : CodeUnit} (before : Text) {after : Text}
    (absent : mark ∉ after) : lastIndexOf mark (before ++ mark :: after) = some before.length := by
  induction before with
  | nil =>
      rw [List.nil_append, lastIndexOf, lastIndexOf_eq_none absent]
      exact if_pos rfl
  | cons first rest ih => rw [List.cons_append, lastIndexOf, ih, List.length_cons]

theorem idxOf?_append {mark : CodeUnit} {before : Text} (after : Text) (absent : mark ∉ before) :
    (before ++ mark :: after).idxOf? mark = some before.length := by
  induction before with
  | nil =>
      rw [List.nil_append, List.idxOf?_cons]
      exact if_pos (beq_self_eq_true mark)
  | cons first rest ih =>
      rw [List.mem_cons, not_or] at absent
      rw [List.cons_append, List.idxOf?_cons, ih absent.2, if_neg (by simpa using Ne.symm absent.1)]
      rfl

/-- The object between text without braces is parsed. -/
theorem extractJson_between {text before inside after : Text} {value : Json}
    (isCandidate : (fenced text).getD text =
      before ++ unit '{' :: (inside ++ unit '}' :: after))
    (opens : unit '{' ∉ before) (closes : unit '}' ∉ after)
    (parsed : parse (unit '{' :: inside ++ [unit '}']) = some value) :
    extractJson text = .ok value := by
  have last : lastIndexOf (unit '}') (before ++ unit '{' :: (inside ++ unit '}' :: after)) =
      some (before.length + (inside.length + 1)) := by
    have found := lastIndexOf_append (before ++ unit '{' :: inside) closes
    rwa [List.append_assoc, List.cons_append, List.length_append, List.length_cons] at found
  have slice : ((before ++ unit '{' :: (inside ++ unit '}' :: after)).take
      (before.length + (inside.length + 1) + 1)).drop before.length =
      unit '{' :: inside ++ [unit '}'] := by
    rw [add_assoc, List.take_length_add_append, List.drop_left, List.take_succ_cons,
      List.take_length_add_append]
    rfl
  rw [extractJson, isCandidate, idxOf?_append _ opens, last]
  dsimp only
  rw [if_neg (by omega), slice, parsed]

/-- A printed object that is cut off at a fence in one of its strings is not parsed. -/
theorem extractJson_truncated {text candidate rest others : Text} {value : Json}
    (isCandidate : (fenced text).getD text = candidate)
    (begins : candidate = unit '{' :: others)
    (whole : parse (candidate ++ (rest ++ [unit '}'])) = some value) :
    ∃ error, extractJson text = .error error := by
  have start : candidate.idxOf? (unit '{') = some 0 := by
    rw [begins, List.idxOf?_cons]
    exact if_pos (beq_self_eq_true _)
  rw [extractJson, isCandidate, start]
  cases last : lastIndexOf (unit '}') candidate with
  | none => exact ⟨_, rfl⟩
  | some index =>
      dsimp only
      split
      · exact ⟨_, rfl⟩
      · have split : candidate ++ (rest ++ [unit '}']) =
            candidate.take (index + 1) ++ (candidate.drop (index + 1) ++ (rest ++ [unit '}'])) := by
          rw [← List.append_assoc (candidate.take _), List.take_append_drop]
        have cut : skipSpace (candidate.drop (index + 1) ++ (rest ++ [unit '}'])) ≠ [] := by
          rw [skipSpace, Ne, List.dropWhile_eq_nil_iff]
          intro spaces
          exact absurd (spaces (unit '}') (by simp)) (by decide)
        have first : candidate.take (index + 1) = unit '{' :: others.take index := by
          rw [begins, List.take_succ_cons]
        rw [split] at whole
        rw [List.drop_zero, parse_truncated first whole cut]
        exact ⟨_, rfl⟩

/-! ## Replies -/

/-- The replies that carry a printed object: alone, in a json fence, or between other
words. -/
inductive ModelReply (object : Json) : Text → Prop where
  | bare : ModelReply object (stringify object)
  | block {spaces spaces' : Text} (before : ∀ first ∈ spaces, isWhiteSpace first = true)
      (after : ∀ first ∈ spaces', isWhiteSpace first = true) :
      ModelReply object (ofString "```json" ++ (spaces ++ stringify object ++ (spaces' ++ fence)))
  | between {before after : Text}
      (plain : ∀ first ∈ before ++ after, first ∉ [unit '{', unit '}', tick]) :
      ModelReply object (before ++ stringify object ++ after)

/-- Every reply gives the object back. -/
def Recovered (object : Json) : Prop :=
  ∀ text, ModelReply object text → ∃ value, extractJson text = .ok value ∧ Same value object

theorem stringify_object (entries : List (Text × Json)) :
    ∃ inside, stringify (.object entries) = unit '{' :: inside ++ [unit '}'] :=
  ⟨_, rfl⟩

/-- Text without back ticks around an object without fences. -/
theorem not_hasFence_around {before inside after : Text} (plain : ¬ HasFence inside)
    (differ : ∀ other ∈ before, other ≠ tick) (differ' : ∀ other ∈ after, other ≠ tick) :
    ¬ HasFence (before ++ unit '{' :: (inside ++ unit '}' :: after)) := by
  rw [hasFence_cons _ _ (by decide), hasFence_cons _ _ (by decide), not_or, not_or]
  exact ⟨not_hasFence differ, plain, not_hasFence differ'⟩

theorem white_ne_tick {text : Text} (white : ∀ first ∈ text, isWhiteSpace first = true) :
    ∀ first ∈ text, first ≠ tick := by
  rintro first membership rfl
  exact absurd (white _ membership) (by decide)

/-- A json fence holds the whole object. -/
theorem fenced_object {spaces spaces' inside : Text} (plain : ¬ HasFence inside)
    (before : ∀ first ∈ spaces, isWhiteSpace first = true)
    (after : ∀ first ∈ spaces', isWhiteSpace first = true) :
    fenced (ofString "```json" ++
      (spaces ++ (unit '{' :: inside ++ [unit '}']) ++ (spaces' ++ fence))) =
        some (unit '{' :: (inside ++ unit '}' :: spaces')) := by
  have captured : capture (unit '{' :: (inside ++ unit '}' :: (spaces' ++ fence))) =
      some (unit '{' :: (inside ++ unit '}' :: spaces')) := by
    rcases List.eq_nil_or_concat spaces' with rfl | ⟨rest, last, rfl⟩
    · have notTick : unit '}' ≠ tick := by decide
      have begins : ¬ HasFence (unit '{' :: inside) := by
        have around := hasFence_cons [] inside (by decide : unit '{' ≠ tick)
        rw [List.nil_append] at around
        exact around.not.mpr (not_or.mpr ⟨not_hasFence (List.forall_mem_nil _), plain⟩)
      have found := capture_append [] begins notTick
      simpa using found
    · have white := white_ne_tick after
      rw [List.concat_eq_append] at white ⊢
      have begins := not_hasFence_around plain (List.forall_mem_nil _) fun other membership =>
        white other (List.mem_append_left _ membership)
      have found := capture_append [] begins (white last (by simp))
      simpa using found
  have block := fenced_block before (by decide) captured
  simpa using block

section Object

variable {inside : Text} {value : Json} (parsed : parse (unit '{' :: inside ++ [unit '}']) = some value)

include parsed

/-- Without a fence in it the object is found between other words. -/
theorem extractJson_words {before after : Text} (plain : ¬ HasFence inside)
    (outside : ∀ first ∈ before ++ after, first ∉ [unit '{', unit '}', tick]) :
    extractJson (before ++ (unit '{' :: inside ++ [unit '}']) ++ after) = .ok value := by
  have other : ∀ mark ∈ [unit '{', unit '}', tick], ∀ first ∈ before ++ after, first ≠ mark := by
    rintro mark isMark first membership rfl
    exact outside first membership isMark
  have ticks := other tick (by simp)
  rw [List.forall_mem_append] at ticks
  have whole : before ++ (unit '{' :: inside ++ [unit '}']) ++ after =
      before ++ unit '{' :: (inside ++ unit '}' :: after) := by simp
  have none := fenced_of_not_hasFence (not_hasFence_around plain ticks.1 ticks.2)
  have opens : unit '{' ∉ before := by
    intro membership
    exact other (unit '{') (by simp) _ (List.mem_append_left _ membership) rfl
  have closes : unit '}' ∉ after := by
    intro membership
    exact other (unit '}') (by simp) _ (List.mem_append_right _ membership) rfl
  rw [whole]
  apply extractJson_between _ opens closes parsed
  rw [none, Option.getD_none]

/-- Without a fence in it the object is found in a json fence. -/
theorem extractJson_block {spaces spaces' : Text} (plain : ¬ HasFence inside)
    (before : ∀ first ∈ spaces, isWhiteSpace first = true)
    (after : ∀ first ∈ spaces', isWhiteSpace first = true) :
    extractJson (ofString "```json" ++
      (spaces ++ (unit '{' :: inside ++ [unit '}']) ++ (spaces' ++ fence))) = .ok value := by
  have opens : unit '{' ∉ ([] : Text) := List.not_mem_nil
  have closes : unit '}' ∉ spaces' := by
    intro membership
    exact absurd (after _ membership) (by decide)
  apply extractJson_between _ opens closes parsed
  rw [fenced_object plain before after, Option.getD_some, List.nil_append]

/-- With a fence in it the object is cut off in a json fence. -/
theorem extractJson_cut (holds : HasFence inside) :
    ∃ error, extractJson (ofString "```json" ++
      ([] ++ (unit '{' :: inside ++ [unit '}']) ++ ([] ++ fence))) = .error error := by
  have whole : HasFence (unit '{' :: inside ++ [unit '}']) :=
    (hasFence_brackets (by decide) (by decide)).mpr holds
  rcases capture_of_hasFence fence whole with ⟨candidate, after, found, split⟩
  cases candidate with
  | nil => cases split
  | cons first others =>
      have isFirst : first = unit '{' := (List.cons.inj split).1.symm
      subst isFirst
      rcases List.eq_nil_or_concat (fence ++ after) with none | ⟨rest, last, isRest⟩
      · cases none
      · rw [List.concat_eq_append] at isRest
        have isLast : last = unit '}' := by
          have lasts := congrArg List.getLast? split
          rw [isRest, ← List.append_assoc, List.getLast?_append, List.getLast?_append] at lasts
          exact (Option.some.inj lasts).symm
        rw [isRest, isLast] at split
        rw [split] at parsed
        have block : fenced (ofString "```json" ++
            ([] ++ (unit '{' :: inside ++ [unit '}']) ++ ([] ++ fence))) =
              some (unit '{' :: others) := by
          have noSpaces : ∀ other ∈ ([] : Text), isWhiteSpace other = true := List.forall_mem_nil _
          have notSpace : isWhiteSpace (unit '{') = false := by decide
          have block := fenced_block noSpaces notSpace found
          exact block
        apply extractJson_truncated _ rfl parsed
        rw [block, Option.getD_some]

end Object

/-- An object is recovered from every reply exactly if none of its keys and strings
holds a fence. -/
theorem recovered_iff {entries : List (Text × Json)} (distinct : Distinct (.object entries))
    (finite : Finite (.object entries)) :
    Recovered (.object entries) ↔ ∀ text ∈ strings (.object entries), ¬ HasFence text := by
  rcases stringify_object entries with ⟨inside, printed⟩
  have parsed := parse_stringify (.object entries)
  have held := hasFence_stringify (.object entries)
  rw [printed] at parsed held
  rw [hasFence_brackets (by decide) (by decide)] at held
  have plain : (∀ text ∈ strings (.object entries), ¬ HasFence text) ↔ ¬ HasFence inside := by
    rw [held, not_exists]
    exact forall_congr' fun text => not_and.symm
  rw [plain]
  constructor
  · intro recovered holds
    rcases extractJson_cut parsed holds with ⟨error, isError⟩
    rcases recovered _ (ModelReply.block (List.forall_mem_nil _) (List.forall_mem_nil _)) with
      ⟨value, isValue, -⟩
    rw [printed, isError] at isValue
    cases isValue
  · intro plain text reply
    refine ⟨reorder (kept (.object entries)), ?_,
      (same_reorder (distinct_kept distinct)).trans (kept_same finite)⟩
    cases reply with
    | bare =>
        have nothing : ∀ first ∈ ([] : Text) ++ [], first ∉ [unit '{', unit '}', tick] := nofun
        have found := extractJson_words parsed plain nothing
        rw [List.nil_append, List.append_nil] at found
        rw [printed]
        exact found
    | block before after =>
        rw [printed]
        exact extractJson_block parsed plain before after
    | between outside =>
        rw [printed]
        exact extractJson_words parsed plain outside

theorem recovered_null : Recovered (.object [(ofString "a", .null)]) := by
  have distinct : Distinct (.object [(ofString "a", .null)]) :=
    ⟨List.nodup_singleton _, trivial, trivial⟩
  have finite : Finite (.object [(ofString "a", .null)]) := ⟨trivial, trivial⟩
  apply (recovered_iff distinct finite).mpr
  intro text isString
  rw [List.mem_singleton.mp isString]
  exact not_hasFence (Text.forall_mem_of_all (by decide))

/-! ## A string with a fence -/

/-- An object with a code sample. -/
def sample : Json := .object [(ofString "a", .string fence)]

theorem sample_lost : ¬ ∀ entries : List (Text × Json), Distinct (.object entries) →
    Finite (.object entries) → Recovered (.object entries) := by
  intro all
  have distinct : Distinct sample := ⟨List.nodup_singleton _, trivial, trivial⟩
  have recovered : Recovered sample := all _ distinct ⟨trivial, trivial⟩
  have noSpaces : ∀ other ∈ ([] : Text), isWhiteSpace other = true := List.forall_mem_nil _
  rcases recovered _ (.block noSpaces noSpaces) with ⟨value, isValue, -⟩
  have lost : (extractJson (ofString "```json" ++
      ([] ++ stringify sample ++ ([] ++ fence)))).toBool = false := by decide
  rw [isValue] at lost
  cases lost

end WorkflowEngine
