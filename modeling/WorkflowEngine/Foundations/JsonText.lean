import WorkflowEngine.Foundations.JsonEquality

/-!
# The text of printed JSON

Printed JSON holds no surrogate that stands alone, and values with the same data print
the same text once their keys are sorted.
-/

open Text Numerals

namespace Json

/-! ## Well-formed texts -/

theorem wellFormed_ascii {text : Text} (ascii : ∀ first ∈ text, first < 128) : WellFormed text := by
  apply WellFormed.of_forall
  intro first membership
  have below := UInt16.lt_iff_toNat_lt.mp (ascii first membership)
  constructor
  · rw [← Bool.not_eq_true, isHigh_iff]
    exact fun high => absurd (lt_of_lt_of_le below (show 128 ≤ first.toNat by omega)) (lt_irrefl _)
  · rw [← Bool.not_eq_true, isLow_iff]
    exact fun low => absurd (lt_of_lt_of_le below (show 128 ≤ first.toNat by omega)) (lt_irrefl _)

theorem hexDigit_lt {digit : ℕ} (small : digit < 16) : hexDigit digit < 128 := by
  interval_cases digit <;> decide

theorem wellFormed_quoteUnit (first : CodeUnit) : WellFormed (quoteUnit first) := by
  have bound := first.toNat_lt
  have quoted := quoted_quoteUnit first
  generalize quoteUnit first = printed at quoted ⊢
  cases quoted with
  | short isEscape isShort =>
      have small : ∀ escape ∈ ofString "\"\\btnfr", escape < 128 :=
        Text.forall_mem_of_all (by decide)
      apply wellFormed_ascii
      rw [List.forall_mem_cons, List.forall_mem_singleton]
      exact ⟨by decide, small _ isEscape⟩
  | unicode =>
      apply wellFormed_ascii
      simp only [unicodeEscape, List.forall_mem_cons]
      exact ⟨by decide, by decide, hexDigit_lt (by omega), hexDigit_lt (by omega),
        hexDigit_lt (by omega), hexDigit_lt (by omega), nofun⟩
  | plain notQuote notEscape printable notHigh notLow => exact .single notHigh notLow

theorem wellFormed_quoteUnits (text : Text) : WellFormed (quoteUnits text) := by
  fun_induction quoteUnits text with
  | case1 => exact .nil
  | case2 first => exact wellFormed_quoteUnit first
  | case3 first second rest isPair ih =>
      rw [Bool.and_eq_true] at isPair
      exact (WellFormed.pair isPair.1 isPair.2).append ih
  | case4 first second rest notPair ih => exact (wellFormed_quoteUnit first).append ih

theorem wellFormed_quote (text : Text) : WellFormed (quote text) := by
  have mark : WellFormed [unit '"'] := wellFormed_ascii (Text.forall_mem_of_all (by decide))
  exact mark.append ((wellFormed_quoteUnits text).append mark)

theorem wellFormed_commaSeparated {texts : List Text} (all : ∀ text ∈ texts, WellFormed text) :
    WellFormed (commaSeparated texts) := by
  fun_induction commaSeparated texts with
  | case1 => exact .nil
  | case2 text => exact all text List.mem_cons_self
  | case3 text rest nonempty ih =>
      rw [List.forall_mem_cons] at all
      have comma : WellFormed [unit ','] := wellFormed_ascii (Text.forall_mem_of_all (by decide))
      exact all.1.append (comma.append (ih all.2))

theorem wellFormed_brackets {before after : CodeUnit} {text : Text} (small : before < 128)
    (small' : after < 128) (inside : WellFormed text) :
    WellFormed (before :: text ++ [after]) := by
  have opening : WellFormed [before] := wellFormed_ascii (List.forall_mem_singleton.mpr small)
  have closing : WellFormed [after] := wellFormed_ascii (List.forall_mem_singleton.mpr small')
  exact opening.append (inside.append closing)

theorem isNumeral_lt {first : CodeUnit} (numeral : isNumeral first = true) : first < 128 := by
  simp only [isNumeral, isDigit, Bool.or_eq_true, Bool.and_eq_true, decide_eq_true_eq,
    beq_iff_eq] at numeral
  rcases numeral with (((digit | rfl) | rfl) | rfl) | rfl
  · exact UInt16.lt_of_le_of_lt digit.2 (by decide)
  · decide
  · decide
  · decide
  · decide

theorem wellFormed_stringify (value : Json) : WellFormed (stringify value) := by
  induction value using Json.induction with
  | null => exact wellFormed_ascii (Text.forall_mem_of_all (by decide))
  | bool value =>
      cases value with
      | false => exact wellFormed_ascii (Text.forall_mem_of_all (by decide))
      | true => exact wellFormed_ascii (Text.forall_mem_of_all (by decide))
  | number value =>
      rw [stringify]
      split
      · next finite =>
          exact wellFormed_ascii fun first membership =>
            isNumeral_lt (isNumeral_numberText finite first membership)
      · exact wellFormed_ascii (Text.forall_mem_of_all (by decide))
  | string value => exact wellFormed_quote value
  | array items ih =>
      rw [stringify, stringifyItems_eq]
      apply wellFormed_brackets (by decide) (by decide)
      apply wellFormed_commaSeparated
      rw [List.forall_mem_map]
      exact ih
  | object entries ih =>
      rw [stringify, stringifyEntries_eq]
      apply wellFormed_brackets (by decide) (by decide)
      apply wellFormed_commaSeparated
      rw [List.forall_mem_map]
      intro entry membership
      have colon : WellFormed [unit ':'] := wellFormed_ascii (Text.forall_mem_of_all (by decide))
      exact (wellFormed_quote entry.1).append (colon.append (ih entry membership))

/-! ## Printing sorted values -/

theorem stringify_kept (value : Json) : stringify (kept value) = stringify value := by
  induction value using Json.induction with
  | null => rfl
  | bool value => rfl
  | number value =>
      rw [kept]
      cases value with
      | finite number => rfl
      | negativeZero => rfl
      | infinite negative => rfl
  | string value => rfl
  | array items ih =>
      rw [kept, keptItems_eq, stringify, stringify, stringifyItems_eq, stringifyItems_eq,
        List.map_map]
      congr 2
      exact congrArg commaSeparated (List.map_congr_left ih)
  | object entries ih =>
      rw [kept, keptEntries_eq, stringify, stringify, stringifyEntries_eq, stringifyEntries_eq,
        List.map_map]
      congr 2
      apply congrArg commaSeparated
      apply List.map_congr_left
      intro entry membership
      exact congrArg (quote entry.1 ++ unit ':' :: ·) (ih entry membership)

theorem kept_number_congr {value value' : Number} (same : value.plain = value'.plain) :
    kept (.number value) = kept (.number value') := by
  rw [kept, kept, same, ← isFinite_plain, same, isFinite_plain]

/-- Entries with distinct keys that all lie among as many others are these others. -/
theorem perm_of_subset {α : Type} {entries entries' : List (Text × α)}
    (distinct : (entries.map Prod.fst).Nodup) (same : entries.length = entries'.length)
    (inside : entries ⊆ entries') : entries.Perm entries' :=
  (List.Nodup.subperm (.of_map _ distinct) inside).perm_of_length_le same.ge

/-- The same data has one sorted form. -/
theorem sortKeys_kept_of_same {left right : Json} (same : Same left right)
    (distinct : Distinct left) : sortKeys (kept left) = sortKeys (kept right) := by
  induction left using Json.induction generalizing right with
  | null =>
      rw [show right = .null from same]
  | bool value =>
      rw [show right = .bool value from same]
  | number value =>
      rcases same with ⟨value', rfl, plain⟩
      rw [kept_number_congr plain]
  | string value =>
      rw [show right = .string value from same]
  | array items ih =>
      rcases same with ⟨items', rfl, same⟩
      rw [sameItems_iff] at same
      rw [Distinct, distinctItems_iff] at distinct
      rw [kept, kept, keptItems_eq, keptItems_eq, sortKeys, sortKeys, sortKeysItems_eq,
        sortKeysItems_eq, List.map_map, List.map_map]
      congr 1
      induction same with
      | nil => rfl
      | cons first rest ihRest =>
          rw [List.forall_mem_cons] at ih distinct
          rw [List.map_cons, List.map_cons, ihRest ih.2 distinct.2]
          exact congrArg (· :: _) (ih.1 first distinct.1)
  | object entries ih =>
      rcases same with ⟨entries', rfl, length, same⟩
      rw [sameEntries_iff] at same
      rw [Distinct, distinctEntries_iff] at distinct
      rw [kept, kept, keptEntries_eq, keptEntries_eq, sortKeys, sortKeys, sortKeysEntries_eq,
        sortKeysEntries_eq, List.map_map, List.map_map]
      have keys : ((entries.map fun entry => (entry.1, sortKeys (kept entry.2))).map
          Prod.fst).Nodup := by
        rw [List.map_map]
        exact distinct.1
      apply congrArg Json.object
      apply sortEntries_congr keys
      apply perm_of_subset keys
      · rw [List.length_map, List.length_map, length]
      · intro image membership
        rcases List.mem_map.mp membership with ⟨entry, isEntry, rfl⟩
        rcases same entry isEntry with ⟨value', isOther, sameValue⟩
        rw [ih entry isEntry sameValue (distinct.2 entry isEntry)]
        exact List.mem_map_of_mem isOther

/-! ## Finite numbers -/

mutual

/-- Values without infinite numbers, which JSON cannot express. -/
def Finite : Json → Prop
  | .number value => value.isFinite = true
  | .array items => FiniteItems items
  | .object entries => FiniteEntries entries
  | _ => True

def FiniteItems : List Json → Prop
  | [] => True
  | item :: rest => Finite item ∧ FiniteItems rest

def FiniteEntries : List (Text × Json) → Prop
  | [] => True
  | (_, value) :: rest => Finite value ∧ FiniteEntries rest

end

theorem finiteItems_iff {items : List Json} : FiniteItems items ↔ ∀ item ∈ items, Finite item := by
  induction items with
  | nil => simp [FiniteItems]
  | cons item rest ih => rw [FiniteItems, ih, List.forall_mem_cons]

theorem finiteEntries_iff {entries : List (Text × Json)} :
    FiniteEntries entries ↔ ∀ entry ∈ entries, Finite entry.2 := by
  induction entries with
  | nil => simp [FiniteEntries]
  | cons entry rest ih =>
      rcases entry with ⟨key, value⟩
      rw [FiniteEntries, ih, List.forall_mem_cons]

/-- Printing loses nothing of a value without infinite numbers. -/
theorem same_kept {value : Json} (finite : Finite value) : Same value (kept value) := by
  induction value using Json.induction with
  | null => rfl
  | bool value => rfl
  | number value =>
      have isFinite : value.isFinite = true := finite
      rw [kept, if_pos isFinite]
      exact ⟨value.plain, rfl, (plain_plain value).symm⟩
  | string value => rfl
  | array items ih =>
      rw [Finite, finiteItems_iff] at finite
      rw [kept, keptItems_eq]
      refine ⟨_, rfl, ?_⟩
      rw [sameItems_iff, List.forall₂_map_right_iff, List.forall₂_same]
      exact fun item membership => ih item membership (finite item membership)
  | object entries ih =>
      rw [Finite, finiteEntries_iff] at finite
      rw [kept, keptEntries_eq]
      refine ⟨_, rfl, (List.length_map _).symm, sameEntries_iff.mpr ?_⟩
      intro entry membership
      exact ⟨kept entry.2, List.mem_map_of_mem membership,
        ih entry membership (finite entry membership)⟩

/-- What is read back is the value that was printed. -/
theorem kept_same {value : Json} (finite : Finite value) : Same (kept value) value := by
  induction value using Json.induction with
  | null => rfl
  | bool value => rfl
  | number value =>
      have isFinite : value.isFinite = true := finite
      rw [kept, if_pos isFinite]
      exact ⟨value, rfl, plain_plain value⟩
  | string value => rfl
  | array items ih =>
      rw [Finite, finiteItems_iff] at finite
      rw [kept, keptItems_eq]
      refine ⟨items, rfl, ?_⟩
      rw [sameItems_iff, List.forall₂_map_left_iff, List.forall₂_same]
      exact fun item membership => ih item membership (finite item membership)
  | object entries ih =>
      rw [Finite, finiteEntries_iff] at finite
      rw [kept, keptEntries_eq]
      refine ⟨entries, rfl, List.length_map _, sameEntries_iff.mpr ?_⟩
      rw [List.forall_mem_map]
      intro entry membership
      exact ⟨entry.2, membership, ih entry membership (finite entry membership)⟩

theorem Same.trans {left middle right : Json} (first : Same left middle)
    (second : Same middle right) : Same left right := by
  induction left using Json.induction generalizing middle right with
  | null =>
      rw [show middle = .null from first] at second
      exact second
  | bool value =>
      rw [show middle = .bool value from first] at second
      exact second
  | number value =>
      rcases first with ⟨value', rfl, plain⟩
      rcases second with ⟨value'', rfl, plain'⟩
      exact ⟨value'', rfl, plain.trans plain'⟩
  | string value =>
      rw [show middle = .string value from first] at second
      exact second
  | array items ih =>
      rcases first with ⟨items', rfl, first⟩
      rcases second with ⟨items'', rfl, second⟩
      refine ⟨items'', rfl, ?_⟩
      rw [sameItems_iff] at first second ⊢
      induction first generalizing items'' with
      | nil => exact second
      | cons head tail ihTail =>
          cases second with
          | cons head' tail' =>
              rw [List.forall_mem_cons] at ih
              exact .cons (ih.1 head head') (ihTail ih.2 _ tail')
  | object entries ih =>
      rcases first with ⟨entries', rfl, length, first⟩
      rcases second with ⟨entries'', rfl, length', second⟩
      refine ⟨entries'', rfl, length.trans length', ?_⟩
      rw [sameEntries_iff] at first second ⊢
      intro entry membership
      rcases first entry membership with ⟨value', isMiddle, same⟩
      rcases second (entry.1, value') isMiddle with ⟨value'', isRight, same'⟩
      exact ⟨value'', isRight, ih entry membership same same'⟩

end Json
