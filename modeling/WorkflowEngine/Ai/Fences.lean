import WorkflowEngine.Ai.Structured
import WorkflowEngine.Foundations.JsonText
import WorkflowEngine.Foundations.Runs

/-!
# Fences in printed JSON

A back tick is printed as it is, and only strings contain one.  A printed value holds a
fence exactly if one of its keys or strings does.
-/

open Text Numerals Json Runs Separators

namespace WorkflowEngine

/-- The back tick. -/
def tick : CodeUnit := 96

theorem fence_eq : fence = List.replicate 3 tick := by decide

/-- A text holds a fence. -/
def HasFence (text : Text) : Prop := fence <:+: text

theorem hasFence_cons {other : CodeUnit} (before after : Text) (differs : other ≠ tick) :
    HasFence (before ++ other :: after) ↔ HasFence before ∨ HasFence after := by
  rw [HasFence, fence_eq]
  exact infix_append_cons (not_mem_replicate differs)

theorem not_hasFence {text : Text} (differ : ∀ other ∈ text, other ≠ tick) : ¬ HasFence text := by
  rw [HasFence, fence_eq]
  exact not_infix_of_forall differ (by decide)

theorem hasFence_brackets {before after : CodeUnit} {text : Text} (notTick : before ≠ tick)
    (notTick' : after ≠ tick) : HasFence (before :: text ++ [after]) ↔ HasFence text := by
  have opening := hasFence_cons [] (text ++ [after]) notTick
  have closing := hasFence_cons text [] notTick'
  have nothing : ¬ HasFence [] := not_hasFence nofun
  rw [List.nil_append] at opening
  rw [List.cons_append, opening, closing, or_iff_right nothing, or_iff_left nothing]

/-! ## Strings -/

theorem quoteUnit_tick : quoteUnit tick = [tick] := by decide

theorem hexDigit_ne_tick {digit : ℕ} (small : digit < 16) : hexDigit digit ≠ tick := by
  interval_cases digit <;> decide

/-- A back tick is not printed for another code unit. -/
theorem quoteUnit_ne_tick {first : CodeUnit} (differs : first ≠ tick) :
    quoteUnit first ≠ [] ∧ ∀ other ∈ quoteUnit first, other ≠ tick := by
  have bound := first.toNat_lt
  have quoted := quoted_quoteUnit first
  generalize quoteUnit first = printed at quoted ⊢
  cases quoted with
  | short isEscape isShort =>
      have escapes : ∀ escape ∈ ofString "\"\\btnfr", escape ≠ tick :=
        Text.forall_mem_of_all (by decide)
      rw [List.forall_mem_cons, List.forall_mem_singleton]
      exact ⟨List.cons_ne_nil _ _, by decide, escapes _ isEscape⟩
  | unicode =>
      simp only [unicodeEscape, List.forall_mem_cons]
      exact ⟨List.cons_ne_nil _ _, by decide, by decide, hexDigit_ne_tick (by omega),
        hexDigit_ne_tick (by omega), hexDigit_ne_tick (by omega), hexDigit_ne_tick (by omega),
        by simp⟩
  | plain notQuote notEscape printable notHigh notLow =>
      exact ⟨List.cons_ne_nil _ _, List.forall_mem_singleton.mpr differs⟩

theorem ticks_cons (count : ℕ) (text : Text) :
    List.replicate count tick ++ tick :: text = List.replicate (count + 1) tick ++ text := by
  rw [List.replicate_succ', List.append_assoc, List.singleton_append]

theorem fence_quoteUnit {rest printed : Text}
    (ih : ∀ count, List.replicate 3 tick <:+: List.replicate count tick ++ printed ↔
      List.replicate 3 tick <:+: List.replicate count tick ++ rest) (count : ℕ) (first : CodeUnit) :
    List.replicate 3 tick <:+: List.replicate count tick ++ (quoteUnit first ++ printed) ↔
      List.replicate 3 tick <:+: List.replicate count tick ++ first :: rest := by
  by_cases isTick : first = tick
  · rw [isTick, quoteUnit_tick, List.singleton_append, ticks_cons, ticks_cons]
    exact ih (count + 1)
  · have quoted := quoteUnit_ne_tick isTick
    rw [infix_append_separator quoted.1 quoted.2, infix_append_cons (not_mem_replicate isTick)]
    exact or_congr_right (ih 0)

/-- A fence stays in a string that is printed, whatever back ticks come before. -/
theorem fence_quoteUnits (text : Text) (count : ℕ) :
    List.replicate 3 tick <:+: List.replicate count tick ++ quoteUnits text ↔
      List.replicate 3 tick <:+: List.replicate count tick ++ text := by
  fun_induction quoteUnits text generalizing count with
  | case1 => rfl
  | case2 first =>
      have alone : List.replicate 3 tick <:+: List.replicate count tick ++ (quoteUnit first ++ []) ↔
          List.replicate 3 tick <:+: List.replicate count tick ++ [first] :=
        fence_quoteUnit (fun count => Iff.rfl) count first
      rwa [List.append_nil] at alone
  | case3 first second rest isPair ih =>
      rw [Bool.and_eq_true] at isPair
      have differ : ∀ other ∈ [first, second], other ≠ tick := by
        rw [List.forall_mem_cons, List.forall_mem_singleton]
        constructor
        · rintro rfl
          exact absurd isPair.1 (by decide)
        · rintro rfl
          exact absurd isPair.2 (by decide)
      have separates : ∀ after : Text,
          List.replicate 3 tick <:+: List.replicate count tick ++ first :: second :: after ↔
            List.replicate 3 tick <:+: List.replicate count tick ∨ List.replicate 3 tick <:+: after :=
        fun after => infix_append_separator (List.cons_ne_nil _ _) differ
      rw [separates, separates]
      exact or_congr_right (ih 0)
  | case4 first second rest notPair ih => exact fence_quoteUnit ih count first

theorem hasFence_quote (text : Text) : HasFence (quote text) ↔ HasFence text := by
  have units := fence_quoteUnits text 0
  rw [List.replicate_zero, List.nil_append, List.nil_append, ← fence_eq] at units
  rw [quote, hasFence_brackets (by decide) (by decide)]
  exact units

/-! ## Values -/

mutual

/-- The keys and strings of a value. -/
def strings : Json → List Text
  | .string value => [value]
  | .array items => stringsItems items
  | .object entries => stringsEntries entries
  | _ => []

def stringsItems : List Json → List Text
  | [] => []
  | item :: rest => strings item ++ stringsItems rest

def stringsEntries : List (Text × Json) → List Text
  | [] => []
  | (key, value) :: rest => key :: strings value ++ stringsEntries rest

end

theorem stringsItems_eq (items : List Json) : stringsItems items = items.flatMap strings := by
  induction items with
  | nil => rfl
  | cons item rest ih => rw [stringsItems, ih, List.flatMap_cons]

theorem stringsEntries_eq (entries : List (Text × Json)) :
    stringsEntries entries = entries.flatMap fun entry => entry.1 :: strings entry.2 := by
  induction entries with
  | nil => rfl
  | cons entry rest ih =>
      rcases entry with ⟨key, value⟩
      rw [stringsEntries, ih, List.flatMap_cons]

theorem hasFence_commaSeparated (texts : List Text) :
    HasFence (commaSeparated texts) ↔ ∃ text ∈ texts, HasFence text := by
  fun_induction commaSeparated texts with
  | case1 => exact iff_of_false (not_hasFence (by simp)) (by simp)
  | case2 text => simp
  | case3 text rest nonempty ih =>
      rw [hasFence_cons _ _ (by decide), ih, List.exists_mem_cons_iff]

/-- A printed value holds a fence where one of its keys or strings does. -/
theorem hasFence_stringify (value : Json) :
    HasFence (stringify value) ↔ ∃ text ∈ strings value, HasFence text := by
  induction value using Json.induction with
  | null => exact iff_of_false (not_hasFence (Text.forall_mem_of_all (by decide))) (by simp [strings])
  | bool value =>
      cases value with
      | false => exact iff_of_false (not_hasFence (Text.forall_mem_of_all (by decide))) (by simp [strings])
      | true => exact iff_of_false (not_hasFence (Text.forall_mem_of_all (by decide))) (by simp [strings])
  | number value =>
      apply iff_of_false _ (by simp [strings])
      rw [stringify]
      split
      · next finite =>
          apply not_hasFence
          rintro other membership rfl
          exact absurd (isNumeral_numberText finite _ membership) (by decide)
      · exact not_hasFence (Text.forall_mem_of_all (by decide))
  | string value =>
      rw [stringify, hasFence_quote, strings]
      simp
  | array items ih =>
      rw [stringify, stringifyItems_eq, hasFence_brackets (by decide) (by decide),
        hasFence_commaSeparated, strings, stringsItems_eq]
      constructor
      · rintro ⟨text, isText, held⟩
        rcases List.mem_map.mp isText with ⟨item, isItem, rfl⟩
        rcases (ih item isItem).mp held with ⟨text, isString, holds⟩
        exact ⟨text, List.mem_flatMap.mpr ⟨item, isItem, isString⟩, holds⟩
      · rintro ⟨text, isString, holds⟩
        rcases List.mem_flatMap.mp isString with ⟨item, isItem, isString⟩
        exact ⟨stringify item, List.mem_map_of_mem isItem,
          (ih item isItem).mpr ⟨text, isString, holds⟩⟩
  | object entries ih =>
      rw [stringify, stringifyEntries_eq, hasFence_brackets (by decide) (by decide),
        hasFence_commaSeparated, strings, stringsEntries_eq]
      have entryFence : ∀ entry ∈ entries,
          HasFence (quote entry.1 ++ unit ':' :: stringify entry.2) ↔
            ∃ text ∈ entry.1 :: strings entry.2, HasFence text := by
        intro entry isEntry
        rw [hasFence_cons _ _ (by decide), hasFence_quote, ih entry isEntry,
          List.exists_mem_cons_iff]
      constructor
      · rintro ⟨text, isText, held⟩
        rcases List.mem_map.mp isText with ⟨entry, isEntry, rfl⟩
        rcases (entryFence entry isEntry).mp held with ⟨text, isString, holds⟩
        exact ⟨text, List.mem_flatMap.mpr ⟨entry, isEntry, isString⟩, holds⟩
      · rintro ⟨text, isString, holds⟩
        rcases List.mem_flatMap.mp isString with ⟨entry, isEntry, isString⟩
        exact ⟨_, List.mem_map_of_mem isEntry,
          (entryFence entry isEntry).mpr ⟨text, isString, holds⟩⟩

end WorkflowEngine
