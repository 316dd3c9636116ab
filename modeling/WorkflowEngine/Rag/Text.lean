import WorkflowEngine.Foundations.Separators
import WorkflowEngine.Foundations.Text
import WorkflowEngine.Foundations.Words

/-!
# Cleaning text

Rewritings of the normalised text.  A visible character stops every one of them, so
what they make of a text is what they make of the gaps between its visible
characters.
-/

open Text Words

namespace WorkflowEngine.Rag

def space : CodeUnit := unit ' '

def lineBreak : CodeUnit := unit '\n'

/-- The characters of `/[\u0000-\u0008\u000B\u000C\u000E-\u001F\u007F]/`. -/
def isControl (first : CodeUnit) : Bool :=
  first ≤ 0x08 || first == 0x0B || first == 0x0C || (0x0E ≤ first && first ≤ 0x1F) ||
    first == 0x7F

/-- The characters of `/[^\S\n]/`. -/
def isHorizontal (first : CodeUnit) : Bool := isWhiteSpace first && first != lineBreak

/-- `String.prototype.normalize` with the form NFKC, as far as the cleaning relies on it. -/
structure Normalizer where
  normalize : Text → Text
  ascii : ∀ text : Text, (∀ first ∈ text, first < 128) → normalize text = text
  idempotent : ∀ text, normalize (normalize text) = normalize text
  /-- spaces and line breaks interact with no neighbour -/
  inert : ∀ before between after, between = space ∨ between = lineBreak →
    normalize (before ++ between :: after) = normalize before ++ between :: normalize after
  /-- what is put together from a normalised text is normalised without new white space
  and control characters -/
  recombined : ∀ text word : Text, normalize text = text → (∀ first ∈ word, first ∈ text) →
    ∀ first ∈ normalize word, isWhiteSpace first = true ∨ isControl first = true → first ∈ word

/-- As NFKC is on ASCII. -/
def unchanged : Normalizer where
  normalize text := text
  ascii _ _ := rfl
  idempotent _ := rfl
  inert _ _ _ _ := rfl
  recombined _ _ _ _ _ membership _ := membership

/-- `.replace(/[^\S\n]+/g, " ")`; the flag says that the last character was replaced. -/
def collapse : Bool → Text → Text
  | _, [] => []
  | inRun, first :: rest =>
      if isHorizontal first then
        if inRun then collapse true rest else space :: collapse true rest
      else first :: collapse false rest

/-- `.replace(/[\u0000-\u0008\u000B\u000C\u000E-\u001F\u007F]/g, "")` -/
def dropControls (text : Text) : Text := text.filter fun first => !isControl first

/-- `.replace(/ *\n */g, "\n")`; so many spaces are held back, none after a line break. -/
def trimLines : Option ℕ → Text → Text
  | held, [] => List.replicate (held.getD 0) space
  | held, first :: rest =>
      if first = space then trimLines (held.map (· + 1)) rest
      else if first = lineBreak then lineBreak :: trimLines none rest
      else List.replicate (held.getD 0) space ++ first :: trimLines (some 0) rest

/-- `.replace(/\n{3,}/g, "\n\n")`; so many line breaks have just been seen. -/
def limitBreaks : ℕ → Text → Text
  | _, [] => []
  | seen, first :: rest =>
      if first = lineBreak then
        if seen < 2 then lineBreak :: limitBreaks (seen + 1) rest else limitBreaks (seen + 1) rest
      else first :: limitBreaks 0 rest

/-- The replacements in their order. -/
def rewrite (text : Text) : Text :=
  limitBreaks 0 (trimLines (some 0) (dropControls (collapse false text)))

def cleanText (normalizer : Normalizer) (raw : Text) : Text :=
  trim isWhiteSpace (rewrite (normalizer.normalize raw))

/-- The hash by which `ingest` recognises a document. -/
def contentHash {Hash : Type} (normalizer : Normalizer) (sha256 : Text → Hash) (content : Text) :
    Hash :=
  sha256 (cleanText normalizer content)

/-! ## Visible characters -/

/-- White space or a control character. -/
def isBlank (first : CodeUnit) : Bool := isWhiteSpace first || isControl first

def isVisible (first : CodeUnit) : Bool := !isBlank first

variable {first : CodeUnit} {before after text gap : Text}

theorem isVisible_iff : isVisible first = true ↔ isBlank first = false := by
  rw [isVisible, Bool.not_eq_eq_eq_not, Bool.not_true]

theorem ne_space_of_visible (visible : isBlank first = false) : first ≠ space := by
  rintro rfl
  exact absurd visible (by decide)

theorem ne_lineBreak_of_visible (visible : isBlank first = false) : first ≠ lineBreak := by
  rintro rfl
  exact absurd visible (by decide)

theorem isWhiteSpace_of_visible (visible : isBlank first = false) : isWhiteSpace first = false :=
  (Bool.or_eq_false_iff.mp visible).1

theorem isControl_of_visible (visible : isBlank first = false) : isControl first = false :=
  (Bool.or_eq_false_iff.mp visible).2

theorem isHorizontal_of_visible (visible : isBlank first = false) : isHorizontal first = false := by
  rw [isHorizontal, isWhiteSpace_of_visible visible, Bool.false_and]

theorem collapse_append_cons (visible : isBlank first = false) (inRun : Bool) :
    collapse inRun (before ++ first :: after) =
      collapse inRun before ++ first :: collapse false after := by
  induction before generalizing inRun with
  | nil => simp [collapse, isHorizontal_of_visible visible]
  | cons head rest ih =>
      simp only [List.cons_append, collapse]
      split
      · split
        · exact ih true
        · rw [ih true, List.cons_append]
      · rw [ih false, List.cons_append]

theorem trimLines_append_cons (visible : isBlank first = false) (held : Option ℕ) :
    trimLines held (before ++ first :: after) =
      trimLines held before ++ first :: trimLines (some 0) after := by
  induction before generalizing held with
  | nil =>
      rw [List.nil_append, trimLines, trimLines, if_neg (ne_space_of_visible visible),
        if_neg (ne_lineBreak_of_visible visible)]
  | cons head rest ih =>
      simp only [List.cons_append, trimLines]
      split
      · exact ih _
      · split
        · rw [ih none, List.cons_append]
        · rw [ih (some 0), List.append_assoc, List.cons_append]

theorem limitBreaks_append_cons (visible : isBlank first = false) (seen : ℕ) :
    limitBreaks seen (before ++ first :: after) =
      limitBreaks seen before ++ first :: limitBreaks 0 after := by
  induction before generalizing seen with
  | nil =>
      rw [List.nil_append, limitBreaks, limitBreaks, if_neg (ne_lineBreak_of_visible visible),
        List.nil_append]
  | cons head rest ih =>
      simp only [List.cons_append, limitBreaks]
      split
      · split
        · rw [ih, List.cons_append]
        · exact ih _
      · rw [ih 0, List.cons_append]

theorem rewrite_append_cons (visible : isBlank first = false) :
    rewrite (before ++ first :: after) = rewrite before ++ first :: rewrite after := by
  have dropped : ∀ left right : Text,
      dropControls (left ++ first :: right) = dropControls left ++ first :: dropControls right := by
    intro left right
    simp [dropControls, isControl_of_visible visible]
  rw [rewrite, collapse_append_cons visible, dropped, trimLines_append_cons visible,
    limitBreaks_append_cons visible]
  rfl

/-! ## Gaps -/

/-- What is left of a gap before its line breaks are looked at. -/
def squeezed (text : Text) : Text := dropControls (collapse false text)

theorem mem_collapse {inRun : Bool} {mark : CodeUnit} (membership : mark ∈ collapse inRun text) :
    mark = space ∨ mark ∈ text ∧ isHorizontal mark = false := by
  induction text generalizing inRun with
  | nil => cases membership
  | cons head rest ih =>
      rw [collapse] at membership
      have later : ∀ {flag}, mark ∈ collapse flag rest →
          mark = space ∨ mark ∈ head :: rest ∧ isHorizontal mark = false := by
        intro flag inside
        cases ih inside with
        | inl same => exact .inl same
        | inr inside => exact .inr ⟨List.mem_cons_of_mem head inside.1, inside.2⟩
      split at membership
      · split at membership
        · exact later membership
        · cases List.mem_cons.mp membership with
          | inl same => exact .inl same
          | inr inside => exact later inside
      · next other =>
        cases List.mem_cons.mp membership with
        | inl same =>
            right
            rw [same]
            exact ⟨List.mem_cons_self, Bool.eq_false_iff.mpr other⟩
        | inr inside => exact later inside

/-- Of a gap spaces and line breaks are left. -/
theorem mem_squeezed (blank : ∀ mark ∈ gap, isBlank mark = true) {mark : CodeUnit}
    (membership : mark ∈ squeezed gap) : mark = space ∨ mark = lineBreak := by
  have inside := List.mem_filter.mp membership
  cases mem_collapse inside.1 with
  | inl same => exact .inl same
  | inr inGap =>
      right
      have isBlank := blank mark inGap.1
      have noControl : isControl mark = false := by simpa using inside.2
      have other := inGap.2
      rw [Rag.isBlank, noControl, Bool.or_false] at isBlank
      rw [isHorizontal, isBlank, Bool.true_and] at other
      simpa using other

theorem trimLines_spaces (held count : ℕ) :
    trimLines (some held) (List.replicate count space) =
      List.replicate (held + count) space := by
  induction count generalizing held with
  | zero => rfl
  | succ count ih =>
      rw [List.replicate_succ, trimLines, if_pos rfl, Option.map_some, ih]
      congr 1
      omega

theorem trimLines_none (blank : ∀ mark ∈ text, mark = space ∨ mark = lineBreak) :
    trimLines none text = List.replicate (text.count lineBreak) lineBreak := by
  induction text with
  | nil => rfl
  | cons head rest ih =>
      rw [List.forall_mem_cons] at blank
      rw [trimLines]
      cases blank.1 with
      | inl isSpace =>
          have other : ¬ space = lineBreak := by decide
          rw [if_pos isSpace, Option.map_none, ih blank.2, isSpace, List.count_cons_of_ne other]
      | inr isBreak =>
          have other : ¬ lineBreak = space := by decide
          rw [isBreak, if_neg other, if_pos rfl, ih blank.2, List.count_cons_self,
            List.replicate_succ]

theorem trimLines_lines (held : ℕ) (blank : ∀ mark ∈ text, mark = space ∨ mark = lineBreak)
    (broken : lineBreak ∈ text) :
    trimLines (some held) text = List.replicate (text.count lineBreak) lineBreak := by
  induction text generalizing held with
  | nil => cases broken
  | cons head rest ih =>
      rw [List.forall_mem_cons] at blank
      rw [trimLines]
      cases blank.1 with
      | inl isSpace =>
          have other : ¬ space = lineBreak := by decide
          rw [isSpace, List.mem_cons] at broken
          have later : lineBreak ∈ rest := broken.resolve_left fun same => other same.symm
          rw [if_pos isSpace, Option.map_some, ih (held + 1) blank.2 later, isSpace,
            List.count_cons_of_ne other]
      | inr isBreak =>
          have other : ¬ lineBreak = space := by decide
          rw [isBreak, if_neg other, if_pos rfl, trimLines_none blank.2, List.count_cons_self,
            List.replicate_succ]

theorem limitBreaks_breaks (seen count : ℕ) :
    limitBreaks seen (List.replicate count lineBreak) =
      List.replicate (min count (2 - seen)) lineBreak := by
  induction count generalizing seen with
  | zero => simp [limitBreaks]
  | succ count ih =>
      rw [List.replicate_succ, limitBreaks, if_pos rfl, ih]
      split
      · next few =>
        rw [← List.replicate_succ]
        congr 1
        omega
      · next many =>
        congr 1
        omega

theorem limitBreaks_spaces (seen count : ℕ) :
    limitBreaks seen (List.replicate count space) = List.replicate count space := by
  induction count generalizing seen with
  | zero => rfl
  | succ count ih =>
      have other : ¬ space = lineBreak := by decide
      rw [List.replicate_succ, limitBreaks, if_neg other, ih]

/-- A gap without a line break is as many spaces as are left of it. -/
theorem rewrite_of_unbroken (blank : ∀ mark ∈ gap, isBlank mark = true)
    (unbroken : lineBreak ∉ squeezed gap) :
    rewrite gap = List.replicate (squeezed gap).length space := by
  have same : squeezed gap = List.replicate (squeezed gap).length space := by
    apply List.eq_replicate_of_mem
    intro mark membership
    apply (mem_squeezed blank membership).resolve_right
    rintro rfl
    exact unbroken membership
  have spaces := trimLines_spaces 0 (squeezed gap).length
  rw [← same, Nat.zero_add] at spaces
  rw [rewrite, show dropControls (collapse false gap) = squeezed gap from rfl, spaces,
    limitBreaks_spaces]

/-- A gap with line breaks is one or two of them. -/
theorem rewrite_of_broken (blank : ∀ mark ∈ gap, isBlank mark = true)
    (broken : lineBreak ∈ squeezed gap) :
    rewrite gap = List.replicate (min ((squeezed gap).count lineBreak) 2) lineBreak := by
  have lines := trimLines_lines 0 (fun _ => mem_squeezed blank) broken
  rw [rewrite, show dropControls (collapse false gap) = squeezed gap from rfl, lines,
    limitBreaks_breaks]

end WorkflowEngine.Rag
