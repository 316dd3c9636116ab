import WorkflowEngine.Ai.Prompts
import WorkflowEngine.Foundations.Separators

/-!
# Untrusted text cannot close its delimiter

The closing tag stands once in wrapped text, at its end, whatever the text holds.
-/

open Text Replace Separators

namespace WorkflowEngine

section Tag

variable {tag : Text} (plain : ∀ first ∈ tag, isTagUnit first = true)
include plain

theorem not_mem_tag {first : CodeUnit} (other : isTagUnit first = false) : first ∉ tag := by
  intro membership
  rw [plain first membership] at other
  cases other

theorem not_mem_append_tag {first last : CodeUnit} (other : isTagUnit first = false)
    (differs : first ≠ last) : first ∉ tag ++ [last] := by
  rw [List.mem_append, List.mem_singleton, not_or]
  exact ⟨not_mem_tag plain other, differs⟩

theorem newline_not_mem_closingTag : newline ∉ closingTag tag := by
  rw [closingTag, List.mem_cons, List.mem_cons, not_or, not_or]
  exact ⟨by decide, by decide, not_mem_append_tag plain (by decide) (by decide)⟩

theorem not_infix_openingTag : ¬ closingTag tag <:+: openingTag tag := by
  intro inside
  have slash : unit '/' ∈ openingTag tag :=
    inside.subset (List.mem_cons_of_mem _ List.mem_cons_self)
  rw [openingTag, List.mem_cons] at slash
  cases slash with
  | inl same => exact absurd same (by decide)
  | inr inner => exact not_mem_append_tag plain (by decide) (by decide) inner

/-- The neutralised text does not close the tag. -/
theorem not_infix_neutralise (text : Text) : ¬ closingTag tag <:+: neutralise tag text := by
  apply not_infix_replaceAll
  · rw [List.mem_cons, not_or]
    exact ⟨by decide, not_mem_append_tag plain (by decide) (by decide)⟩
  · rw [List.mem_cons, List.mem_cons, not_or, not_or]
    exact ⟨by decide, by decide, not_mem_append_tag plain (by decide) (by decide)⟩
  · intro more begins
    rw [List.cons_append, List.cons_prefix_cons] at begins
    exact absurd begins.1 (by decide)

/-- Between the tags, the closing tag stands at the end only. -/
theorem closes_once {body before after : Text} (open_ : ¬ closingTag tag <:+: body)
    (same : before ++ (closingTag tag ++ after) =
      openingTag tag ++ newline :: (body ++ newline :: closingTag tag)) :
    before = openingTag tag ++ newline :: (body ++ [newline]) ∧ after = [] := by
  have free := newline_not_mem_closingTag plain
  rcases append_eq_append_cons free same with ⟨rest, isOpening⟩ | ⟨middle, isBefore, inner⟩
  · exact absurd ⟨before, rest, by rw [isOpening, List.append_assoc]⟩ (not_infix_openingTag plain)
  · rcases append_eq_append_cons free inner.symm with ⟨rest, isBody⟩ | ⟨rest, isMiddle, last⟩
    · exact absurd ⟨middle, rest, by rw [isBody, List.append_assoc]⟩ open_
    · have lengths := congrArg List.length last
      rw [List.length_append, List.length_append] at lengths
      have restEmpty : rest = [] := List.length_eq_zero_iff.mp (by omega)
      have afterEmpty : after = [] := List.length_eq_zero_iff.mp (by omega)
      constructor
      · rw [isBefore, isMiddle, restEmpty]
      · exact afterEmpty

/-- The text is changed only where it would close the tag. -/
theorem neutralise_eq_iff (text : Text) :
    neutralise tag text = text ↔ ¬ closingTag tag <:+: text := by
  constructor
  · intro same
    rw [← same]
    exact not_infix_neutralise plain text
  · exact replaceAll_eq_self

end Tag

theorem plain_tagOf (label : Text) : ∀ first ∈ tagOf label, isTagUnit first = true := by
  intro first membership
  exact (List.mem_filter.mp membership).2

/-- Wrapped text is the opening tag, a body and the closing tag, each on lines of its own.
The closing tag of the sanitised label stands in it once, at the end, so a reader up to the
closing tag gets the whole body.  The body is the text itself exactly when the text does
not hold the closing tag. -/
theorem wrapUntrusted_closes_once (label text : Text) :
    ∃ body : Text,
      wrapUntrusted label text =
        openingTag (tagOf label) ++ newline :: (body ++ newline :: closingTag (tagOf label)) ∧
      (∀ before after : Text,
        before ++ (closingTag (tagOf label) ++ after) = wrapUntrusted label text ↔
          before = openingTag (tagOf label) ++ newline :: (body ++ [newline]) ∧ after = []) ∧
      upTo (closingTag (tagOf label)) (wrapUntrusted label text) =
        some (openingTag (tagOf label) ++ newline :: (body ++ [newline])) ∧
      (body = text ↔ ¬ closingTag (tagOf label) <:+: text) := by
  have plain := plain_tagOf label
  have apart : wrapUntrusted label text =
      openingTag (tagOf label) ++ newline :: (neutralise (tagOf label) text ++ [newline]) ++
        (closingTag (tagOf label) ++ []) := by
    simp [wrapUntrusted]
  refine ⟨neutralise (tagOf label) text, rfl, ?_, ?_, neutralise_eq_iff plain text⟩
  · intro before after
    constructor
    · exact closes_once plain (not_infix_neutralise plain text)
    · rintro ⟨rfl, rfl⟩
      exact apart.symm
  · rw [apart]
    apply upTo_of_unique
    intro front back same
    rw [← apart] at same
    exact (closes_once plain (not_infix_neutralise plain text) same).1

/-- A tag that only appears once the tag inside it is replaced is not a closing tag. -/
example : wrapUntrusted (ofString "doc") (ofString "</do</doc>c>") =
    ofString "<doc>\n</do<\\/doc>c>\n</doc>" := by decide

end WorkflowEngine
