import Mathlib.Data.List.DropRight

/-!
# Words and gaps

A text of marks of which some are breaks: its words are the pieces between the breaks
that are not empty.  A text is also a sequence of gaps with one other mark after each
gap but the last.
-/

namespace Words

variable {α : Type} {isBreak : α → Bool} {before after text word breaks : List α} {mark : α}

def words (isBreak : α → Bool) (text : List α) : List (List α) :=
  (text.splitOnP isBreak).filter fun word => !word.isEmpty

/-! ## Words -/

@[simp] theorem words_nil : words isBreak [] = [] := by
  rw [words, List.splitOnP_nil]
  rfl

/-- Words split at a break; everything else follows from this. -/
theorem words_append_cons (isMark : isBreak mark = true) :
    words isBreak (before ++ mark :: after) = words isBreak before ++ words isBreak after := by
  rw [words, List.splitOnP_append_cons before after isMark, List.filter_append]
  rfl

theorem words_append_breaks (all : ∀ mark ∈ breaks, isBreak mark = true) :
    words isBreak (text ++ breaks) = words isBreak text := by
  induction breaks generalizing text with
  | nil => rw [List.append_nil]
  | cons first rest ih =>
      rw [List.forall_mem_cons] at all
      have others : words isBreak ([] ++ rest) = words isBreak [] := ih all.2
      rw [words_append_cons all.1, ← List.nil_append rest, others, words_nil, List.append_nil]

theorem words_breaks_append (all : ∀ mark ∈ breaks, isBreak mark = true) :
    words isBreak (breaks ++ text) = words isBreak text := by
  induction breaks with
  | nil => rfl
  | cons first rest ih =>
      rw [List.forall_mem_cons] at all
      have split : words isBreak ([] ++ first :: (rest ++ text)) = _ := words_append_cons all.1
      rw [words_nil, List.nil_append, List.nil_append] at split
      rw [List.cons_append, split, ih all.2]

/-- Breaks that are there separate. -/
theorem words_append_breaks_append (nonempty : breaks ≠ [])
    (all : ∀ mark ∈ breaks, isBreak mark = true) :
    words isBreak (before ++ (breaks ++ after)) =
      words isBreak before ++ words isBreak after := by
  cases breaks with
  | nil => exact absurd rfl nonempty
  | cons first rest =>
      rw [List.forall_mem_cons] at all
      rw [List.cons_append, words_append_cons all.1, words_breaks_append all.2]

theorem free_of_mem_splitOnP (membership : word ∈ text.splitOnP isBreak) :
    ∀ mark ∈ word, isBreak mark = false := by
  induction text generalizing word with
  | nil =>
      rw [List.splitOnP_nil, List.mem_singleton] at membership
      simp [membership]
  | cons first rest ih =>
      cases isFirst : isBreak first with
      | true =>
          have split := List.splitOnP_append_cons [] rest isFirst
          rw [List.nil_append] at split
          rw [split, List.splitOnP_nil, List.singleton_append, List.mem_cons] at membership
          cases membership with
          | inl same => simp [same]
          | inr membership => exact ih membership
      | false =>
          obtain ⟨head, others, split⟩ :=
            List.exists_cons_of_ne_nil (List.splitOnP_ne_nil isBreak rest)
          rw [List.splitOnP_cons_eq_if_modifyHead, isFirst, if_neg Bool.false_ne_true, split,
            List.modifyHead_cons, List.mem_cons] at membership
          rw [split] at ih
          cases membership with
          | inl same =>
              rw [same, List.forall_mem_cons]
              exact ⟨isFirst, ih List.mem_cons_self⟩
          | inr membership => exact ih (List.mem_cons_of_mem head membership)

/-- A word has marks, and no breaks. -/
theorem mem_words (membership : word ∈ words isBreak text) :
    word ≠ [] ∧ ∀ mark ∈ word, isBreak mark = false := by
  have inside := List.mem_filter.mp membership
  refine ⟨?_, free_of_mem_splitOnP inside.1⟩
  intro empty
  rw [empty] at inside
  cases inside.2

theorem mem_of_mem_words (isWord : word ∈ words isBreak text) (inside : mark ∈ word) :
    mark ∈ text := by
  have isPiece := (List.mem_filter.mp isWord).1
  clear isWord
  induction text generalizing word with
  | nil =>
      rw [List.splitOnP_nil, List.mem_singleton] at isPiece
      rwa [isPiece] at inside
  | cons first rest ih =>
      rw [List.splitOnP_cons_eq_if_modifyHead] at isPiece
      obtain ⟨head, others, split⟩ :=
        List.exists_cons_of_ne_nil (List.splitOnP_ne_nil isBreak rest)
      split at isPiece
      · cases List.mem_cons.mp isPiece with
        | inl same => rw [same] at inside; cases inside
        | inr later => exact List.mem_cons_of_mem first (ih inside later)
      · rw [split, List.modifyHead_cons] at isPiece
        rw [split] at ih
        cases List.mem_cons.mp isPiece with
        | inl same =>
            rw [same] at inside
            cases List.mem_cons.mp inside with
            | inl isFirst => exact List.mem_cons.mpr (.inl isFirst)
            | inr later => exact List.mem_cons_of_mem first (ih later List.mem_cons_self)
        | inr later =>
            exact List.mem_cons_of_mem first (ih inside (List.mem_cons_of_mem head later))

/-! ## Trimming -/

def trim (isBreak : α → Bool) (text : List α) : List α :=
  (text.dropWhile isBreak).rdropWhile isBreak

theorem words_trim : words isBreak (trim isBreak text) = words isBreak text := by
  have front : ∀ mark ∈ text.takeWhile isBreak, isBreak mark = true :=
    fun _ membership => List.mem_takeWhile_imp membership
  have back : ∀ mark ∈ (text.dropWhile isBreak).rtakeWhile isBreak, isBreak mark = true :=
    fun _ membership => List.mem_rtakeWhile_imp membership
  calc words isBreak (trim isBreak text)
      = words isBreak (trim isBreak text ++ (text.dropWhile isBreak).rtakeWhile isBreak) :=
        (words_append_breaks back).symm
    _ = words isBreak (text.dropWhile isBreak) := by
        rw [trim, List.rdropWhile_append_rtakeWhile]
    _ = words isBreak (text.takeWhile isBreak ++ text.dropWhile isBreak) :=
        (words_breaks_append front).symm
    _ = words isBreak text := by rw [List.takeWhile_append_dropWhile]

theorem trim_breaks (all : ∀ mark ∈ breaks, isBreak mark = true) : trim isBreak breaks = [] := by
  rw [trim, List.dropWhile_eq_nil_iff.mpr all, List.rdropWhile_nil]

/-- Trimming leaves what stands between two other marks. -/
theorem trim_append_cons {last : α} {rest : List α}
    (front : ∀ mark ∈ before, isBreak mark = true) (isFirst : isBreak mark = false)
    (isLast : isBreak last = false) (ends : ∃ list, mark :: text = list ++ [last])
    (back : ∀ mark ∈ rest, isBreak mark = true) :
    trim isBreak (before ++ (mark :: text ++ rest)) = mark :: text := by
  obtain ⟨list, same⟩ := ends
  have other : ¬ isBreak mark = true := by simp [isFirst]
  have dropped : (before ++ (mark :: text ++ rest)).dropWhile isBreak = mark :: text ++ rest := by
    rw [List.dropWhile_append_of_pos front, List.cons_append, List.dropWhile_cons_of_neg other]
  rw [trim, dropped, same]
  clear dropped same
  induction rest using List.reverseRecOn with
  | nil => simp [isLast]
  | append_singleton rest final ih =>
      rw [List.forall_mem_append] at back
      rw [← List.append_assoc, List.rdropWhile_concat_pos _ _ _ (back.2 final List.mem_cons_self)]
      exact ih back.1

/-! ## Gaps -/

/-- Every text is a gap, or a gap with another mark and a text after it. -/
theorem gap_induction (isGap : α → Bool) {motive : List α → Prop}
    (gap : ∀ gap, (∀ mark ∈ gap, isGap mark = true) → motive gap)
    (mark : ∀ gap mark rest, (∀ other ∈ gap, isGap other = true) → isGap mark = false →
      motive rest → motive (gap ++ mark :: rest)) (text : List α) : motive text := by
  have extended : ∀ front : List α, (∀ mark ∈ front, isGap mark = true) →
      motive (front ++ text) := by
    induction text with
    | nil =>
        intro front all
        rw [List.append_nil]
        exact gap front all
    | cons first rest ih =>
        intro front all
        cases isFirst : isGap first with
        | false =>
            have later : motive rest := ih [] (List.forall_mem_nil _)
            exact mark front first rest all isFirst later
        | true =>
            rw [List.append_cons]
            apply ih
            rw [List.forall_mem_append]
            exact ⟨all, by simp [isFirst]⟩
  exact extended [] (List.forall_mem_nil _)

/-- The last mark that is no gap. -/
theorem gap_or_last (isGap : α → Bool) (text : List α) :
    (∀ mark ∈ text, isGap mark = true) ∨ ∃ front mark gap, text = front ++ mark :: gap ∧
      isGap mark = false ∧ ∀ other ∈ gap, isGap other = true := by
  induction text using gap_induction isGap with
  | gap gap all => exact .inl all
  | mark gap mark rest all other ih =>
      right
      rcases ih with blank | ⟨front, last, end', same, isLast, blank⟩
      · exact ⟨gap, mark, rest, rfl, other, blank⟩
      · refine ⟨gap ++ mark :: front, last, end', ?_, isLast, blank⟩
        rw [same, List.append_assoc, List.cons_append]

end Words
