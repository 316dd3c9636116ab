import WorkflowEngine.Rag.Text

/-!
# When cleaning is a normal form

Control characters are dropped after the runs of white space are collapsed and after
the text is normalised, so that dropping them can make two spaces meet and can bring
characters together that normalisation would combine.  Where it does neither, a
cleaned text is clean.
-/

open Text Words

namespace WorkflowEngine.Rag

variable {normalizer : Normalizer} {content text core gap pattern : Text}

/-! ## What is asked of a cleaned text -/

/-- The text is in the normal form, and cleaning it again changes nothing. -/
structure Cleaned (normalizer : Normalizer) (content : Text) : Prop where
  again : cleanText normalizer (cleanText normalizer content) = cleanText normalizer content
  spaces : ¬ [space, space] <:+: cleanText normalizer content
  beforeBreak : ¬ [space, lineBreak] <:+: cleanText normalizer content
  afterBreak : ¬ [lineBreak, space] <:+: cleanText normalizer content
  breaks : ¬ [lineBreak, lineBreak, lineBreak] <:+: cleanText normalizer content
  controls : ∀ first ∈ cleanText normalizer content, first < 0x20 ∨ first = 0x7F →
    first = lineBreak
  leading : ∀ first ∈ (cleanText normalizer content).head?, isWhiteSpace first = false
  trailing : ∀ last ∈ (cleanText normalizer content).getLast?, isWhiteSpace last = false
  hash : ∀ (Hash : Type) (sha256 : Text → Hash),
    contentHash normalizer sha256 (cleanText normalizer content) =
      contentHash normalizer sha256 content

/-- The gaps of a text with visible characters on both sides. -/
def gapsBetween (text : Text) : List Text :=
  (text.splitOnP isVisible).tail.dropLast

/-- A control character stands between two pieces of white space. -/
def SplitBlank (gap : Text) : Prop :=
  ∃ first control second, [first, control, second].Sublist gap ∧ isHorizontal first = true ∧
    (isControl control = true ∧ isWhiteSpace control = false) ∧ isHorizontal second = true

/-- The text without the control characters that are no white space. -/
def stripControls (text : Text) : Text :=
  text.filter fun first => isWhiteSpace first || !isControl first

/-! ## What a gap becomes -/

theorem blank_of_mem_splitOnP (membership : gap ∈ text.splitOnP isVisible) :
    ∀ mark ∈ gap, isBlank mark = true := by
  intro mark inside
  have other := free_of_mem_splitOnP membership mark inside
  simpa [isVisible] using other

theorem splitOnP_gap (blank : ∀ mark ∈ gap, isBlank mark = true) :
    gap.splitOnP isVisible = [gap] := by
  apply List.splitOnP_eq_singleton
  intro mark inside
  simp [isVisible, blank mark inside]

theorem mem_collapse_of_not_horizontal {mark : CodeUnit} (other : isHorizontal mark = false)
    (membership : mark ∈ text) (inRun : Bool) : mark ∈ collapse inRun text := by
  induction text generalizing inRun with
  | nil => cases membership
  | cons head rest ih =>
      rw [collapse]
      cases List.mem_cons.mp membership with
      | inl same =>
          rw [← same, if_neg (by simp [other])]
          exact List.mem_cons_self
      | inr later =>
          split
          · split
            · exact ih later true
            · exact List.mem_cons_of_mem _ (ih later true)
          · exact List.mem_cons_of_mem _ (ih later false)

theorem lineBreak_mem_squeezed : lineBreak ∈ squeezed text ↔ lineBreak ∈ text := by
  constructor
  · intro membership
    cases mem_collapse (List.mem_filter.mp membership).1 with
    | inl same => exact absurd same (by decide)
    | inr inside => exact inside.1
  · intro membership
    have inside := mem_collapse_of_not_horizontal (by decide) membership false
    exact List.mem_filter.mpr ⟨inside, by decide⟩

/-- Every character of a gap without a line break is white space to collapse or a control
character to drop. -/
theorem horizontal_or_control {mark : CodeUnit} (blank : isBlank mark = true)
    (other : mark ≠ lineBreak) :
    isHorizontal mark = true ∨
      isHorizontal mark = false ∧ isControl mark = true ∧ isWhiteSpace mark = false := by
  rw [isHorizontal, bne_iff_ne.mpr other, Bool.and_true]
  cases white : isWhiteSpace mark with
  | true => exact .inl rfl
  | false =>
      rw [isBlank, white, Bool.false_or] at blank
      exact .inr ⟨rfl, blank, rfl⟩

theorem dropControls_space (rest : Text) :
    dropControls (space :: rest) = space :: dropControls rest := by
  have kept : isControl space = false := by decide
  simp [dropControls, kept]

theorem dropControls_control {mark : CodeUnit} (control : isControl mark = true) (rest : Text) :
    dropControls (mark :: rest) = dropControls rest := by
  rw [dropControls, List.filter_cons_of_neg (by simp [control])]
  rfl

theorem space_mem_squeezed {mark : CodeUnit} (horizontal : isHorizontal mark = true)
    (membership : mark ∈ text) : space ∈ squeezed text := by
  have inside : space ∈ collapse false text := by
    induction text with
    | nil => cases membership
    | cons head rest ih =>
        rw [collapse]
        split
        · exact List.mem_cons_self
        · next other =>
          have later : mark ∈ rest := by
            cases List.mem_cons.mp membership with
            | inl same => exact absurd (same ▸ horizontal) other
            | inr later => exact later
          exact List.mem_cons_of_mem _ (ih later)
  exact List.mem_filter.mpr ⟨inside, by decide⟩

/-- Nothing is left of a gap that holds control characters only. -/
theorem squeezed_eq_nil_iff (blank : ∀ mark ∈ gap, isBlank mark = true) :
    squeezed gap = [] ↔ ∀ mark ∈ gap, isWhiteSpace mark = false := by
  constructor
  · intro empty mark membership
    by_contra white
    rw [Bool.not_eq_false] at white
    have left : ∃ kept, kept ∈ squeezed gap := by
      by_cases isBreak : mark = lineBreak
      · exact ⟨lineBreak, lineBreak_mem_squeezed.mpr (isBreak ▸ membership)⟩
      · refine ⟨space, space_mem_squeezed ?_ membership⟩
        rw [isHorizontal, white, bne_iff_ne.mpr isBreak]
        rfl
    obtain ⟨kept, inside⟩ := left
    rw [empty] at inside
    cases inside
  · intro controls
    have same : collapse false gap = gap := by
      induction gap with
      | nil => rfl
      | cons head rest ih =>
          rw [List.forall_mem_cons] at blank controls
          rw [collapse, isHorizontal, controls.1, Bool.false_and, if_neg Bool.false_ne_true,
            ih blank.2 controls.2]
    rw [squeezed, same, dropControls, List.filter_eq_nil_iff]
    intro mark membership
    have isBlank := blank mark membership
    rw [Rag.isBlank, controls mark membership, Bool.false_or] at isBlank
    simp [isBlank]

/-- Inside a run a space is left where white space follows a control character. -/
theorem length_inRun (blank : ∀ mark ∈ gap, isBlank mark = true) (unbroken : lineBreak ∉ gap) :
    1 ≤ (dropControls (collapse true gap)).length ↔
      ∃ control second, [control, second].Sublist gap ∧
        (isControl control = true ∧ isWhiteSpace control = false) ∧
          isHorizontal second = true := by
  induction gap with
  | nil => simp [collapse, dropControls]
  | cons head rest ih =>
      rw [List.forall_mem_cons] at blank
      rw [List.mem_cons, not_or] at unbroken
      have later := ih blank.2 unbroken.2
      rcases horizontal_or_control blank.1 (Ne.symm unbroken.1) with horizontal | control
      · rw [collapse, if_pos horizontal, if_pos rfl, later]
        constructor
        · intro pair
          obtain ⟨control, second, inside, isControl, isSecond⟩ := pair
          exact ⟨control, second, inside.cons head, isControl, isSecond⟩
        · intro pair
          obtain ⟨control, second, inside, isControl, isSecond⟩ := pair
          cases List.sublist_cons_iff.mp inside with
          | inl inside => exact ⟨control, second, inside, isControl, isSecond⟩
          | inr first =>
              obtain ⟨_, same, _⟩ := first
              cases same
              rw [isHorizontal, isControl.2, Bool.false_and] at horizontal
              cases horizontal
      · rw [collapse, if_neg (by simp [control.1]), dropControls_control control.2.1]
        constructor
        · intro positive
          obtain ⟨kept, inside⟩ := List.exists_mem_of_length_pos positive
          by_contra none
          have empty : squeezed rest = [] := by
            rw [squeezed_eq_nil_iff blank.2]
            intro mark membership
            by_contra white
            rw [Bool.not_eq_false] at white
            have other : mark ≠ lineBreak := fun same => unbroken.2 (same ▸ membership)
            apply none
            refine ⟨head, mark, ?_, control.2, ?_⟩
            · exact (List.singleton_sublist.mpr membership).cons_cons head
            · rw [isHorizontal, white, bne_iff_ne.mpr other]
              rfl
          have kept_mem : kept ∈ squeezed rest := inside
          rw [empty] at kept_mem
          cases kept_mem
        · intro pair
          obtain ⟨_, second, inside, _, isSecond⟩ := pair
          have membership : second ∈ rest := by
            cases List.sublist_cons_iff.mp inside with
            | inl inside => exact inside.subset (by simp)
            | inr first =>
                obtain ⟨_, same, inside⟩ := first
                cases same
                exact inside.subset List.mem_cons_self
          exact List.length_pos_of_mem (space_mem_squeezed isSecond membership)

/-- Two spaces are left of a gap when a control character splits its white space. -/
theorem two_le_length_squeezed (blank : ∀ mark ∈ gap, isBlank mark = true)
    (unbroken : lineBreak ∉ gap) : 2 ≤ (squeezed gap).length ↔ SplitBlank gap := by
  induction gap with
  | nil => simp [squeezed, collapse, dropControls, SplitBlank]
  | cons head rest ih =>
      rw [List.forall_mem_cons] at blank
      rw [List.mem_cons, not_or] at unbroken
      have later := ih blank.2 unbroken.2
      rcases horizontal_or_control blank.1 (Ne.symm unbroken.1) with horizontal | control
      · have inRun := length_inRun blank.2 unbroken.2
        rw [squeezed, collapse, if_pos horizontal, if_neg Bool.false_ne_true, dropControls_space,
          List.length_cons, Nat.succ_le_succ_iff, inRun]
        constructor
        · intro pair
          obtain ⟨control, second, inside, isControl, isSecond⟩ := pair
          exact ⟨head, control, second, inside.cons_cons head, horizontal, isControl, isSecond⟩
        · intro split
          obtain ⟨first, control, second, inside, _, isControl, isSecond⟩ := split
          refine ⟨control, second, ?_, isControl, isSecond⟩
          exact inside.tail
      · rw [squeezed, collapse, if_neg (by simp [control.1]), dropControls_control control.2.1]
        rw [squeezed] at later
        rw [later]
        constructor
        · intro split
          obtain ⟨first, mark, second, inside, isSplit⟩ := split
          exact ⟨first, mark, second, inside.cons head, isSplit⟩
        · intro split
          obtain ⟨first, mark, second, inside, isSplit⟩ := split
          cases List.sublist_cons_iff.mp inside with
          | inl inside => exact ⟨first, mark, second, inside, isSplit⟩
          | inr begins =>
              obtain ⟨_, same, _⟩ := begins
              cases same
              rw [control.1] at isSplit
              cases isSplit.1

/-- A gap becomes line breaks, two at most, or spaces. -/
theorem rewrite_gap (blank : ∀ mark ∈ gap, isBlank mark = true) :
    (lineBreak ∈ gap ∧ (rewrite gap = [lineBreak] ∨ rewrite gap = [lineBreak, lineBreak])) ∨
      lineBreak ∉ gap ∧ rewrite gap = List.replicate (squeezed gap).length space := by
  by_cases broken : lineBreak ∈ gap
  · left
    have left := lineBreak_mem_squeezed.mpr broken
    have positive : 0 < (squeezed gap).count lineBreak := List.count_pos_iff.mpr left
    have few : min ((squeezed gap).count lineBreak) 2 = 1 ∨
        min ((squeezed gap).count lineBreak) 2 = 2 := by omega
    refine ⟨broken, ?_⟩
    rw [rewrite_of_broken blank left]
    cases few with
    | inl one => exact .inl (by rw [one]; rfl)
    | inr two => exact .inr (by rw [two]; rfl)
  · right
    have left : lineBreak ∉ squeezed gap := fun inside => broken (lineBreak_mem_squeezed.mp inside)
    exact ⟨broken, rewrite_of_unbroken blank left⟩

theorem mem_rewrite {mark : CodeUnit} (membership : mark ∈ rewrite text) :
    mark = space ∨ mark = lineBreak ∨ isBlank mark = false := by
  induction text using gap_induction isBlank with
  | gap gap blank =>
      rcases rewrite_gap blank with ⟨_, one | two⟩ | ⟨_, spaces⟩
      · rw [one, List.mem_singleton] at membership
        exact .inr (.inl membership)
      · rw [two] at membership
        exact .inr (.inl (by simpa using membership))
      · rw [spaces] at membership
        exact .inl (List.eq_of_mem_replicate membership)
  | mark gap first rest blank visible ih =>
      rw [rewrite_append_cons visible, List.mem_append, List.mem_cons] at membership
      rcases membership with inGap | same | later
      · rcases rewrite_gap blank with ⟨_, one | two⟩ | ⟨_, spaces⟩
        · rw [one, List.mem_singleton] at inGap
          exact .inr (.inl inGap)
        · rw [two] at inGap
          exact .inr (.inl (by simpa using inGap))
        · rw [spaces] at inGap
          exact .inl (List.eq_of_mem_replicate inGap)
      · exact .inr (.inr (same ▸ visible))
      · exact ih later

/-- Rewriting what is rewritten changes nothing but gaps of several spaces. -/
theorem rewrite_rewrite (single : ∀ gap ∈ text.splitOnP isVisible,
    rewrite (rewrite gap) = rewrite gap) : rewrite (rewrite text) = rewrite text := by
  induction text using gap_induction isBlank with
  | gap gap blank =>
      apply single
      rw [splitOnP_gap blank]
      exact List.mem_singleton_self gap
  | mark gap first rest blank visible ih =>
      have isMark : isVisible first = true := isVisible_iff.mpr visible
      rw [List.splitOnP_append_cons gap rest isMark, splitOnP_gap blank,
        List.forall_mem_append] at single
      rw [rewrite_append_cons visible, rewrite_append_cons visible,
        single.1 gap List.mem_cons_self, ih single.2]

/-- A pattern of blanks is found in what becomes of one gap. -/
theorem infix_rewrite (blank : ∀ mark ∈ pattern, isBlank mark = true) :
    pattern <:+: rewrite text ↔
      ∃ gap ∈ text.splitOnP isVisible, pattern <:+: rewrite gap := by
  induction text using gap_induction isBlank with
  | gap gap allBlank =>
      rw [splitOnP_gap allBlank]
      simp
  | mark gap first rest allBlank visible ih =>
      have isMark : isVisible first = true := isVisible_iff.mpr visible
      have other : first ∉ pattern := by
        intro inside
        rw [blank first inside] at visible
        cases visible
      rw [rewrite_append_cons visible, Separators.infix_append_cons other, ih,
        List.splitOnP_append_cons gap rest isMark, splitOnP_gap allBlank]
      simp [or_and_right, exists_or]

/-! ## The text between the first and the last visible character -/

/-- The text is empty or has visible characters at its ends. -/
inductive Framed : Text → Prop where
  | empty : Framed []
  | single {first : CodeUnit} (visible : isBlank first = false) : Framed [first]
  | between {first last : CodeUnit} (inner : Text) (visible : isBlank first = false)
      (isLast : isBlank last = false) : Framed (first :: (inner ++ [last]))

theorem isWhiteSpace_rewrite_gap (blank : ∀ mark ∈ gap, isBlank mark = true) :
    ∀ mark ∈ rewrite gap, isWhiteSpace mark = true := by
  intro mark membership
  rcases rewrite_gap blank with ⟨_, one | two⟩ | ⟨_, spaces⟩
  · rw [one, List.mem_singleton] at membership
    rw [membership]
    decide
  · rw [two] at membership
    have same : mark = lineBreak := by simpa using membership
    rw [same]
    decide
  · rw [spaces] at membership
    rw [List.eq_of_mem_replicate membership]
    decide

theorem gapsBetween_gap (blank : ∀ mark ∈ gap, isBlank mark = true) : gapsBetween gap = [] := by
  rw [gapsBetween, splitOnP_gap blank]
  rfl

/-- The gaps after the first visible character, up to the last one. -/
theorem gapsBetween_append_cons {first : CodeUnit} (blank : ∀ mark ∈ gap, isBlank mark = true)
    (visible : isBlank first = false) :
    gapsBetween (gap ++ first :: text) =
      (text.splitOnP isVisible).dropLast := by
  have isMark : isVisible first = true := isVisible_iff.mpr visible
  rw [gapsBetween, List.splitOnP_append_cons gap text isMark, splitOnP_gap blank]
  rfl

theorem dropLast_splitOnP {last : CodeUnit} (isLast : isBlank last = false)
    (blank : ∀ mark ∈ gap, isBlank mark = true) :
    ((text ++ last :: gap).splitOnP isVisible).dropLast =
      text.splitOnP isVisible := by
  have isMark : isVisible last = true := isVisible_iff.mpr isLast
  rw [List.splitOnP_append_cons text gap isMark, splitOnP_gap blank, List.dropLast_concat]

theorem rewrite_cons {first : CodeUnit} (visible : isBlank first = false) :
    rewrite (first :: text) = first :: rewrite text := by
  have front : rewrite ([] ++ first :: text) = rewrite [] ++ first :: rewrite text :=
    rewrite_append_cons visible
  exact front

theorem rewrite_between {first last : CodeUnit} (visible : isBlank first = false)
    (isLast : isBlank last = false) :
    rewrite (first :: (text ++ [last])) = first :: (rewrite text ++ [last]) := by
  rw [rewrite_cons visible, rewrite_append_cons isLast]
  rfl

/-- Cleaning rewrites what stands between the first and the last visible character. -/
theorem exists_framed (text : Text) : ∃ core, Framed core ∧
    trim isWhiteSpace (rewrite text) = rewrite core ∧ gapsBetween text = gapsBetween core := by
  have none : ∀ mark ∈ ([] : Text), isBlank mark = true := List.forall_mem_nil _
  cases text using gap_induction isBlank with
  | gap gap blank =>
      refine ⟨[], .empty, trim_breaks (isWhiteSpace_rewrite_gap blank), ?_⟩
      rw [gapsBetween_gap blank, gapsBetween_gap none]
  | mark gap first rest blank visible _ =>
      have white := isWhiteSpace_of_visible visible
      rcases gap_or_last isBlank rest with allBlank | ⟨inner, last, final, rfl, isLast, allBlank⟩
      · refine ⟨[first], .single visible, ?_, ?_⟩
        · have alone : rewrite [first] = [first] := rewrite_cons visible
          rw [rewrite_append_cons visible, alone]
          exact trim_append_cons (isWhiteSpace_rewrite_gap blank) white white ⟨[], rfl⟩
            (isWhiteSpace_rewrite_gap allBlank)
        · have alone : gapsBetween ([] ++ first :: []) = _ := gapsBetween_append_cons none visible
          rw [List.nil_append] at alone
          rw [gapsBetween_append_cons blank visible, alone, splitOnP_gap allBlank,
            splitOnP_gap none]
          rfl
      · refine ⟨first :: (inner ++ [last]), .between inner visible isLast, ?_, ?_⟩
        · rw [rewrite_append_cons visible, rewrite_append_cons isLast,
            rewrite_between visible isLast]
          have ends : ∃ list, first :: (rewrite inner ++ [last]) = list ++ [last] :=
            ⟨first :: rewrite inner, rfl⟩
          have trimmed := trim_append_cons (isWhiteSpace_rewrite_gap blank) white
            (isWhiteSpace_of_visible isLast) ends (isWhiteSpace_rewrite_gap allBlank)
          rw [← trimmed]
          simp
        · have framed : gapsBetween ([] ++ first :: (inner ++ [last])) = _ :=
            gapsBetween_append_cons none visible
          rw [List.nil_append] at framed
          rw [gapsBetween_append_cons blank visible, framed, dropLast_splitOnP isLast allBlank,
            dropLast_splitOnP isLast none]

/-- The gaps at the ends are empty. -/
theorem Framed.mem_splitOnP (framed : Framed core) :
    gap ∈ core.splitOnP isVisible ↔ gap = [] ∨ gap ∈ gapsBetween core := by
  have none : ∀ mark ∈ ([] : Text), isBlank mark = true := List.forall_mem_nil _
  cases framed with
  | empty => rw [gapsBetween_gap none, splitOnP_gap none]; simp
  | @single first visible =>
      have split := List.splitOnP_append_cons [] [] (isVisible_iff.mpr visible)
      rw [List.nil_append, splitOnP_gap none] at split
      rw [gapsBetween, split]
      simp
  | @between first last inner visible isLast =>
      have split := List.splitOnP_append_cons [] (inner ++ [last]) (isVisible_iff.mpr visible)
      rw [List.nil_append, splitOnP_gap none,
        List.splitOnP_append_cons inner [] (isVisible_iff.mpr isLast), splitOnP_gap none] at split
      have isGaps : gapsBetween (first :: (inner ++ [last])) = inner.splitOnP isVisible := by
        rw [gapsBetween, split, List.singleton_append, List.tail_cons, List.dropLast_concat]
      rw [isGaps, split]
      simp only [List.mem_append, List.mem_singleton]
      constructor
      · intro found
        rcases found with front | inside | back
        · exact .inl front
        · exact .inr inside
        · exact .inl back
      · intro found
        rcases found with isEmpty | inside
        · exact .inl isEmpty
        · exact .inr (.inl inside)

/-- A pattern of blanks is found in what becomes of a gap between visible characters. -/
theorem Framed.infix_rewrite (framed : Framed core) (nonempty : pattern ≠ [])
    (blank : ∀ mark ∈ pattern, isBlank mark = true) :
    pattern <:+: rewrite core ↔ ∃ gap ∈ gapsBetween core, pattern <:+: rewrite gap := by
  rw [Rag.infix_rewrite blank]
  constructor
  · intro found
    obtain ⟨gap, membership, inside⟩ := found
    cases framed.mem_splitOnP.mp membership with
    | inl isEmpty =>
        rw [isEmpty] at inside
        exact absurd (List.infix_nil.mp inside) nonempty
    | inr between => exact ⟨gap, between, inside⟩
  · intro found
    obtain ⟨gap, membership, inside⟩ := found
    exact ⟨gap, framed.mem_splitOnP.mpr (.inr membership), inside⟩

/-- A text between visible characters has nothing to trim. -/
theorem Framed.trim_rewrite (framed : Framed core) :
    trim isWhiteSpace (rewrite core) = rewrite core := by
  have none : ∀ mark ∈ ([] : Text), isWhiteSpace mark = true := List.forall_mem_nil _
  cases framed with
  | empty => rfl
  | @single first visible =>
      have white := isWhiteSpace_of_visible visible
      have trimmed := trim_append_cons none white white ⟨[], rfl⟩ none
      have alone : rewrite [first] = [first] := rewrite_cons visible
      rw [alone]
      simpa using trimmed
  | @between first last inner visible isLast =>
      have ends : ∃ list, first :: (rewrite inner ++ [last]) = list ++ [last] :=
        ⟨first :: rewrite inner, rfl⟩
      have trimmed := trim_append_cons none (isWhiteSpace_of_visible visible)
        (isWhiteSpace_of_visible isLast) ends none
      rw [rewrite_between visible isLast]
      simpa using trimmed

/-! ## The words -/

theorem stripControls_eq_nil_iff (blank : ∀ mark ∈ gap, isBlank mark = true) :
    stripControls gap = [] ↔ ∀ mark ∈ gap, isWhiteSpace mark = false := by
  rw [stripControls, List.filter_eq_nil_iff]
  constructor
  · intro none mark membership
    have dropped := none mark membership
    rw [Bool.or_eq_true, not_or] at dropped
    exact Bool.eq_false_iff.mpr dropped.1
  · intro controls mark membership
    have isBlank := blank mark membership
    rw [Rag.isBlank, controls mark membership, Bool.false_or] at isBlank
    simp [controls mark membership, isBlank]

theorem rewrite_gap_eq_nil_iff (blank : ∀ mark ∈ gap, isBlank mark = true) :
    rewrite gap = [] ↔ stripControls gap = [] := by
  rw [stripControls_eq_nil_iff blank, ← squeezed_eq_nil_iff blank]
  rcases rewrite_gap blank with ⟨broken, one | two⟩ | ⟨_, spaces⟩
  · have left := lineBreak_mem_squeezed.mpr broken
    rw [one]
    exact iff_of_false (List.cons_ne_nil _ _) (List.ne_nil_of_mem left)
  · have left := lineBreak_mem_squeezed.mpr broken
    rw [two]
    exact iff_of_false (List.cons_ne_nil _ _) (List.ne_nil_of_mem left)
  · rw [spaces, List.replicate_eq_nil_iff, List.length_eq_zero_iff]

theorem stripControls_append_cons {first : CodeUnit} {before after : Text}
    (visible : isBlank first = false) :
    stripControls (before ++ first :: after) =
      stripControls before ++ first :: stripControls after := by
  simp [stripControls, isControl_of_visible visible]

theorem isWhiteSpace_stripControls_gap (blank : ∀ mark ∈ gap, isBlank mark = true) :
    ∀ mark ∈ stripControls gap, isWhiteSpace mark = true := by
  intro mark membership
  have inside := List.mem_filter.mp membership
  have isBlank := blank mark inside.1
  cases control : isControl mark with
  | true => simpa [control] using inside.2
  | false => simpa [Rag.isBlank, control] using isBlank

/-- Cleaning keeps the words and drops control characters inside them. -/
theorem words_rewrite (text : Text) :
    words isWhiteSpace (rewrite text) = words isWhiteSpace (stripControls text) := by
  have extended : ∀ front : Text,
      words isWhiteSpace (front ++ rewrite text) =
        words isWhiteSpace (front ++ stripControls text) := by
    induction text using gap_induction isBlank with
    | gap gap blank =>
        intro front
        rw [words_append_breaks (isWhiteSpace_rewrite_gap blank),
          words_append_breaks (isWhiteSpace_stripControls_gap blank)]
    | mark gap first rest blank visible ih =>
        intro front
        rw [rewrite_append_cons visible, stripControls_append_cons visible]
        by_cases empty : rewrite gap = []
        · have later := ih (front ++ [first])
          rw [empty, (rewrite_gap_eq_nil_iff blank).mp empty]
          simpa using later
        · have kept : stripControls gap ≠ [] :=
            fun none => empty ((rewrite_gap_eq_nil_iff blank).mpr none)
          have later := ih [first]
          rw [words_append_breaks_append empty (isWhiteSpace_rewrite_gap blank),
            words_append_breaks_append kept (isWhiteSpace_stripControls_gap blank)]
          exact congrArg _ later
  exact extended []

theorem words_of_forall {word : Text} (free : ∀ mark ∈ word, isWhiteSpace mark = false) :
    words isWhiteSpace word = [word].filter fun word => !word.isEmpty := by
  rw [words, List.splitOnP_eq_singleton free]

theorem normalize_nil (normalizer : Normalizer) : normalizer.normalize [] = [] :=
  normalizer.ascii [] (List.forall_mem_nil _)

theorem normalize_word {word : Text} (free : ∀ mark ∈ word, isWhiteSpace mark = false)
    (same : ∀ other ∈ words isWhiteSpace word, normalizer.normalize other = other) :
    normalizer.normalize word = word := by
  cases word with
  | nil => exact normalize_nil normalizer
  | cons first rest =>
      apply same
      rw [words_of_forall free]
      exact List.mem_singleton_self _

theorem mem_words_of_normalize {word : Text} {mark : CodeUnit}
    (free : ∀ mark ∈ word, isWhiteSpace mark = false)
    (membership : mark ∈ normalizer.normalize word) : word ∈ words isWhiteSpace word := by
  cases word with
  | nil =>
      rw [normalize_nil] at membership
      cases membership
  | cons first rest =>
      rw [words_of_forall free]
      exact List.mem_singleton_self _

theorem words_normalize_word {word : Text} (wordFree : ∀ mark ∈ word, isWhiteSpace mark = false)
    (free : ∀ other ∈ words isWhiteSpace word,
      ∀ mark ∈ normalizer.normalize other, isWhiteSpace mark = false) :
    words isWhiteSpace (normalizer.normalize word) =
      ((words isWhiteSpace word).map normalizer.normalize).filter fun word => !word.isEmpty := by
  rw [words_of_forall wordFree] at free ⊢
  cases word with
  | nil => simp [normalize_nil]
  | cons first rest =>
      rw [words_of_forall (free _ List.mem_cons_self)]
      rfl

section Normalising

variable (plain : ∀ mark ∈ text, isWhiteSpace mark = true → mark = space ∨ mark = lineBreak)

include plain

/-- Normalising leaves a text alone whose words it leaves alone. -/
theorem normalize_of_words
    (same : ∀ word ∈ words isWhiteSpace text, normalizer.normalize word = word) :
    normalizer.normalize text = text := by
  induction text using gap_induction fun mark => !isWhiteSpace mark with
  | gap word free => exact normalize_word (by simpa using free) same
  | mark word mark rest free white ih =>
      have isBreak : isWhiteSpace mark = true := by simpa using white
      rw [words_append_cons isBreak, List.forall_mem_append] at same
      rw [List.forall_mem_append, List.forall_mem_cons] at plain
      rw [normalizer.inert _ _ _ (plain.2.1 isBreak), ih plain.2.2 same.2,
        normalize_word (by simpa using free) same.1]

/-- The words of a normalised text are normalised words. -/
theorem words_normalize (free : ∀ word ∈ words isWhiteSpace text,
      ∀ mark ∈ normalizer.normalize word, isWhiteSpace mark = false) :
    words isWhiteSpace (normalizer.normalize text) =
      ((words isWhiteSpace text).map normalizer.normalize).filter fun word => !word.isEmpty := by
  induction text using gap_induction fun mark => !isWhiteSpace mark with
  | gap word wordFree => exact words_normalize_word (by simpa using wordFree) free
  | mark word mark rest wordFree white ih =>
      have isBreak : isWhiteSpace mark = true := by simpa using white
      rw [words_append_cons isBreak, List.forall_mem_append] at free
      rw [List.forall_mem_append, List.forall_mem_cons] at plain
      rw [normalizer.inert _ _ _ (plain.2.1 isBreak), words_append_cons isBreak,
        words_append_cons isBreak, ih plain.2.2 free.2, List.map_append, List.filter_append,
        words_normalize_word (by simpa using wordFree) free.1]

theorem mem_normalize {mark : CodeUnit} (membership : mark ∈ normalizer.normalize text) :
    mark = space ∨ mark = lineBreak ∨
      ∃ word ∈ words isWhiteSpace text, mark ∈ normalizer.normalize word := by
  induction text using gap_induction fun mark => !isWhiteSpace mark with
  | gap word free =>
      right
      right
      have free : ∀ mark ∈ word, isWhiteSpace mark = false := by simpa using free
      exact ⟨word, mem_words_of_normalize free membership, membership⟩
  | mark word separator rest free white ih =>
      have isBreak : isWhiteSpace separator = true := by simpa using white
      have free : ∀ mark ∈ word, isWhiteSpace mark = false := by simpa using free
      rw [List.forall_mem_append, List.forall_mem_cons] at plain
      rw [normalizer.inert _ _ _ (plain.2.1 isBreak), List.mem_append, List.mem_cons] at membership
      rw [words_append_cons isBreak]
      rcases membership with inWord | same | later
      · right
        right
        exact ⟨word, List.mem_append_left _ (mem_words_of_normalize free inWord), inWord⟩
      · rw [same]
        rcases plain.2.1 isBreak with isSpace | isLine
        · exact .inl isSpace
        · exact .inr (.inl isLine)
      · rcases ih plain.2.2 later with isSpace | isLine | ⟨other, inside, isMark⟩
        · exact .inl isSpace
        · exact .inr (.inl isLine)
        · exact .inr (.inr ⟨other, List.mem_append_right _ inside, isMark⟩)

end Normalising

/-! ## The words of a cleaned text -/

theorem plain_rewrite (text : Text) :
    ∀ mark ∈ rewrite text, isWhiteSpace mark = true → mark = space ∨ mark = lineBreak := by
  intro mark membership white
  rcases mem_rewrite membership with isSpace | isLine | visible
  · exact .inl isSpace
  · exact .inr isLine
  · rw [isWhiteSpace_of_visible visible] at white
    cases white

/-- Normalising brings no blank into a word of a normalised text. -/
theorem visible_normalize {word : Text} (normalised : normalizer.normalize text = text)
    (isWord : word ∈ words isWhiteSpace (stripControls text)) :
    ∀ mark ∈ normalizer.normalize word, isBlank mark = false := by
  have inside : ∀ mark ∈ word, mark ∈ stripControls text := by
    intro mark membership
    exact mem_of_mem_words isWord membership
  intro mark membership
  by_contra blank
  rw [Bool.not_eq_false, isBlank, Bool.or_eq_true] at blank
  have inWord := normalizer.recombined text word normalised
    (fun first found => (List.mem_filter.mp (inside first found)).1) mark membership blank
  have white := (mem_words isWord).2 mark inWord
  have kept := (List.mem_filter.mp (inside mark inWord)).2
  rw [white, Bool.false_or] at kept
  rcases blank with isWhite | isControl
  · rw [white] at isWhite
    cases isWhite
  · rw [isControl] at kept
    cases kept

/-! ## Normal forms -/

/-- No gap between visible characters has white space on both sides of a control
character, unless it has a line break. -/
def Unsplit (text : Text) : Prop :=
  ∀ gap ∈ gapsBetween text, lineBreak ∈ gap ∨ ¬ SplitBlank gap

theorem blank_of_mem_gapsBetween (membership : gap ∈ gapsBetween text) :
    ∀ mark ∈ gap, isBlank mark = true := by
  have inside := List.mem_of_mem_tail (List.mem_of_mem_dropLast membership)
  exact blank_of_mem_splitOnP inside

theorem infix_gap_spaces (blank : ∀ mark ∈ gap, isBlank mark = true) :
    [space, space] <:+: rewrite gap ↔ lineBreak ∉ gap ∧ SplitBlank gap := by
  rcases rewrite_gap blank with ⟨broken, one | two⟩ | ⟨unbroken, spaces⟩
  · rw [one]
    exact iff_of_false (by decide) fun both => both.1 broken
  · rw [two]
    exact iff_of_false (by decide) fun both => both.1 broken
  · rw [spaces, ← two_le_length_squeezed blank unbroken]
    have pair : [space, space] = List.replicate 2 space := rfl
    rw [pair]
    constructor
    · intro inside
      have shorter := inside.length_le
      rw [List.length_replicate, List.length_replicate] at shorter
      exact ⟨unbroken, shorter⟩
    · intro long
      exact List.infix_replicate_iff.mpr ⟨by simpa using long.2, rfl⟩

theorem framed_spaces_iff (framed : Framed core) :
    ¬ [space, space] <:+: rewrite core ↔ Unsplit core := by
  rw [framed.infix_rewrite (List.cons_ne_nil _ _) (Text.forall_mem_of_all (by decide)), Unsplit, not_exists]
  constructor
  · intro none gap membership
    have other := none gap
    rw [not_and, infix_gap_spaces (blank_of_mem_gapsBetween membership)] at other
    by_cases broken : lineBreak ∈ gap
    · exact .inl broken
    · exact .inr fun split => other membership ⟨broken, split⟩
  · intro unsplit gap both
    obtain ⟨membership, inside⟩ := both
    rw [infix_gap_spaces (blank_of_mem_gapsBetween membership)] at inside
    cases unsplit gap membership with
    | inl broken => exact inside.1 broken
    | inr whole => exact whole inside.2

/-- A pattern with a line break that is not two line breaks at most. -/
theorem Framed.not_infix (framed : Framed core) (broken : lineBreak ∈ pattern)
    (blank : ∀ mark ∈ pattern, isBlank mark = true)
    (other : ¬ pattern <:+: [lineBreak, lineBreak]) : ¬ pattern <:+: rewrite core := by
  rw [framed.infix_rewrite (List.ne_nil_of_mem broken) blank]
  intro found
  obtain ⟨gap, membership, inside⟩ := found
  rcases rewrite_gap (blank_of_mem_gapsBetween membership) with ⟨_, one | two⟩ | ⟨_, same⟩
  · rw [one] at inside
    exact other (inside.trans (List.suffix_cons lineBreak [lineBreak]).isInfix)
  · rw [two] at inside
    exact other inside
  · rw [same] at inside
    have isSpace := List.eq_of_mem_replicate (inside.subset broken)
    exact absurd isSpace (by decide)

/-- Without split gaps there is nothing to rewrite a second time. -/
theorem Framed.rewrite_rewrite (framed : Framed core) (unsplit : Unsplit core) :
    rewrite (rewrite core) = rewrite core := by
  apply Rag.rewrite_rewrite
  intro gap membership
  cases framed.mem_splitOnP.mp membership with
  | inl isEmpty => rw [isEmpty]; rfl
  | inr between =>
      have blank := blank_of_mem_gapsBetween between
      rcases rewrite_gap blank with ⟨_, one | two⟩ | ⟨unbroken, spaces⟩
      · rw [one]
        decide
      · rw [two]
        decide
      · have few : ¬ 2 ≤ (squeezed gap).length := by
          rw [two_le_length_squeezed blank unbroken]
          exact (unsplit gap between).resolve_left unbroken
        have atMostOne : (squeezed gap).length = 0 ∨ (squeezed gap).length = 1 := by omega
        rw [spaces]
        cases atMostOne with
        | inl zero => rw [zero]; rfl
        | inr one => rw [one]; decide

theorem isBlank_of_control {first : CodeUnit} (control : first < 0x20 ∨ first = 0x7F) :
    isBlank first = true := by
  cases control with
  | inl low =>
      have all : ∀ number : Fin 32, isBlank number.val.toUInt16 = true := by decide
      have small : first.toNat < 32 := low
      have same : first.toNat.toUInt16 = first := by simp
      rw [← same]
      exact all ⟨first.toNat, small⟩
  | inr isDelete =>
      rw [isDelete]
      decide

/-- A cleaned text has the layout of the normal form, up to gaps of several spaces. -/
theorem Framed.forall_ends (framed : Framed core) :
    (∀ first ∈ (rewrite core).head?, isWhiteSpace first = false) ∧
      ∀ last ∈ (rewrite core).getLast?, isWhiteSpace last = false := by
  cases framed with
  | empty => exact ⟨nofun, nofun⟩
  | @single first visible =>
      have alone : rewrite [first] = [first] := rewrite_cons visible
      rw [alone]
      simp [isWhiteSpace_of_visible visible]
  | @between first last inner visible isLast =>
      rw [rewrite_between visible isLast]
      have final : (first :: (rewrite inner ++ [last])).getLast? = some last := by
        rw [← List.cons_append, List.getLast?_concat]
      rw [final]
      simp [isWhiteSpace_of_visible visible, isWhiteSpace_of_visible isLast]

/-- The words of a cleaned text are those of the normalised text, without the control
characters inside them. -/
theorem words_cleanText (normalizer : Normalizer) (content : Text) :
    words isWhiteSpace (cleanText normalizer content) =
      words isWhiteSpace (stripControls (normalizer.normalize content)) := by
  rw [cleanText, words_trim, words_rewrite]

/-- A text that normalises and cleans to itself has normalised words. -/
theorem normalised_of_again (again :
      cleanText normalizer (cleanText normalizer content) = cleanText normalizer content) :
    ∀ word ∈ words isWhiteSpace (stripControls (normalizer.normalize content)),
      normalizer.normalize word = word := by
  rw [← words_cleanText]
  obtain ⟨core, _, isCore, _⟩ := exists_framed (normalizer.normalize content)
  have cleaned : cleanText normalizer content = rewrite core := isCore
  have plain : ∀ mark ∈ cleanText normalizer content, isWhiteSpace mark = true →
      mark = space ∨ mark = lineBreak := by
    rw [cleaned]
    exact plain_rewrite core
  have visible : ∀ word ∈ words isWhiteSpace (cleanText normalizer content),
      ∀ mark ∈ normalizer.normalize word, isBlank mark = false := by
    rw [words_cleanText]
    exact fun word => visible_normalize (normalizer.idempotent content)
  have stripped : stripControls (normalizer.normalize (cleanText normalizer content)) =
      normalizer.normalize (cleanText normalizer content) := by
    apply List.filter_eq_self.mpr
    intro mark membership
    rcases mem_normalize plain membership with isSpace | isLine | ⟨word, isWord, inside⟩
    · rw [isSpace]; decide
    · rw [isLine]; decide
    · simp [isControl_of_visible (visible word isWord mark inside)]
  have normalised := words_normalize plain fun word isWord mark inside =>
    isWhiteSpace_of_visible (visible word isWord mark inside)
  have same := words_cleanText normalizer (cleanText normalizer content)
  rw [again, stripped, normalised] at same
  have whole : (((words isWhiteSpace (cleanText normalizer content)).map normalizer.normalize).filter
      fun word => !word.isEmpty) =
        (words isWhiteSpace (cleanText normalizer content)).map normalizer.normalize := by
    apply List.filter_sublist.eq_of_length
    rw [← same, List.length_map]
  rw [whole] at same
  intro word isWord
  have fixed := List.map_inj_left.mp (same.symm.trans (List.map_id _).symm) word isWord
  exact fixed

/-- A text without split gaps whose words are normalised is clean once it is cleaned. -/
theorem again_of_unsplit (unsplit : Unsplit (normalizer.normalize content))
    (normalised : ∀ word ∈ words isWhiteSpace (stripControls (normalizer.normalize content)),
      normalizer.normalize word = word) :
    cleanText normalizer (cleanText normalizer content) = cleanText normalizer content := by
  obtain ⟨core, framed, isCore, sameGaps⟩ := exists_framed (normalizer.normalize content)
  have cleaned : cleanText normalizer content = rewrite core := isCore
  rw [← words_cleanText, cleaned] at normalised
  have fixed := normalize_of_words (plain_rewrite core) normalised
  rw [Unsplit, sameGaps] at unsplit
  rw [cleaned, cleanText, fixed, framed.rewrite_rewrite unsplit, framed.trim_rewrite]

/-- Cleaning yields the normal form exactly when no control character stands between
white space in a gap without a line break, and none keeps characters apart that
normalisation would combine. -/
theorem cleanText_normal_iff (normalizer : Normalizer) (content : Text) :
    Cleaned normalizer content ↔
      (∀ gap ∈ gapsBetween (normalizer.normalize content), lineBreak ∈ gap ∨ ¬ SplitBlank gap) ∧
        ∀ word ∈ words isWhiteSpace (stripControls (normalizer.normalize content)),
          normalizer.normalize word = word := by
  obtain ⟨core, framed, isCore, sameGaps⟩ := exists_framed (normalizer.normalize content)
  have cleaned : cleanText normalizer content = rewrite core := isCore
  have unsplit_iff : Unsplit (normalizer.normalize content) ↔ Unsplit core := by
    rw [Unsplit, sameGaps, Unsplit]
  constructor
  · intro clean
    have spaces := clean.spaces
    rw [cleaned, framed_spaces_iff framed, ← unsplit_iff] at spaces
    exact ⟨spaces, normalised_of_again clean.again⟩
  · intro good
    have unsplit : Unsplit (normalizer.normalize content) := good.1
    have again := again_of_unsplit unsplit good.2
    have spaces := (framed_spaces_iff framed).mpr (unsplit_iff.mp unsplit)
    constructor
    case again => exact again
    case hash =>
      intro Hash sha256
      rw [contentHash, contentHash, again]
    all_goals rw [cleaned]
    case spaces => exact spaces
    case beforeBreak => exact framed.not_infix (by decide) (Text.forall_mem_of_all (by decide)) (by decide)
    case afterBreak => exact framed.not_infix (by decide) (Text.forall_mem_of_all (by decide)) (by decide)
    case breaks => exact framed.not_infix (by decide) (Text.forall_mem_of_all (by decide)) (by decide)
    case controls =>
      intro first membership control
      rcases mem_rewrite membership with isSpace | isLine | visible
      · rw [isSpace] at control
        exact absurd control (by decide)
      · exact isLine
      · rw [isBlank_of_control control] at visible
        cases visible
    case leading => exact framed.forall_ends.1
    case trailing => exact framed.forall_ends.2

/-! ## Where it is no normal form -/

/-- A control character between two spaces. -/
def splitSpaces : Text := [unit 'a', space, 0, space, unit 'b']

theorem cleanText_splitSpaces :
    cleanText unchanged splitSpaces = [unit 'a', space, space, unit 'b'] ∧
      cleanText unchanged (cleanText unchanged splitSpaces) = [unit 'a', space, unit 'b'] ∧
        ¬ ∀ content, Cleaned unchanged content := by
  refine ⟨by decide, by decide, ?_⟩
  intro always
  exact (always splitSpaces).spaces (by decide)

end WorkflowEngine.Rag
