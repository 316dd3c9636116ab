import WorkflowEngine.Foundations.JsonText
import WorkflowEngine.Foundations.Separators
import WorkflowEngine.Models

/-!
# Canonical requests

The text that an idempotent request is hashed from: JSON with the keys of every object
sorted.  Equal texts come from equal workflows and inputs with equal canonical texts.
-/

open Text Json Separators

namespace WorkflowEngine

mutual

/-- JSON with object keys sorted, so {a,b} and {b,a} have the same text. -/
def canonical : Json → Text
  | .array items => unit '[' :: commaSeparated (canonicalItems items) ++ [unit ']']
  | .object entries =>
      unit '{' ::
        commaSeparated ((sortEntries (canonicalEntries entries)).map fun entry =>
          quote entry.1 ++ unit ':' :: entry.2) ++ [unit '}']
  | value => stringify value

def canonicalItems : List Json → List Text
  | [] => []
  | item :: rest => canonical item :: canonicalItems rest

def canonicalEntries : List (Text × Json) → List (Text × Text)
  | [] => []
  | (key, value) :: rest => (key, canonical value) :: canonicalEntries rest

end

/-- Mixed values as they are serialised. -/
class ToJson (Val : Type) where
  toJson : Val → Json

instance : ToJson Json := ⟨id⟩

instance : ToJson Plain where
  toJson
    | .null => .null
    | .emptyObject => .object []
    | .number value => .number (Numerals.ofMagnitude false value)
    | .approval decidedBy comment decidedAt => .object
        [(encode "approved", .bool true),
          (encode "decidedBy", decidedBy.elim .null fun id => .string (encode id.repr)),
          (encode "comment", comment.elim .null fun text => .string (encode text)),
          (encode "decidedAt", .number
            (Numerals.ofMagnitude (decide (decidedAt < 0)) decidedAt.natAbs))]

/-- The pre-image of the hash in `run`: `{ workflowId, input }`. -/
def requestUnits {Val : Type} [ToJson Val] (workflowId : ObjectId) (input : Val) : Text :=
  canonical (.object
    [(encode "workflowId", .string (encode workflowId.repr)),
      (encode "input", ToJson.toJson input)])

/-- What `run` hashes, in the characters that the hash reads. -/
def requestText {Val : Type} [ToJson Val] (workflowId : ObjectId) (input : Val) : String :=
  decode (requestUnits workflowId input)

/-! ## Sorted values -/

theorem canonicalItems_eq (items : List Json) : canonicalItems items = items.map canonical := by
  induction items with
  | nil => rfl
  | cons item rest ih => rw [canonicalItems, ih, List.map_cons]

theorem canonicalEntries_eq (entries : List (Text × Json)) :
    canonicalEntries entries = entries.map fun entry => (entry.1, canonical entry.2) := by
  induction entries with
  | nil => rfl
  | cons entry rest ih =>
      rcases entry with ⟨key, value⟩
      rw [canonicalEntries, ih, List.map_cons]

/-- The canonical text prints a value with its keys sorted. -/
theorem canonical_eq (value : Json) : canonical value = stringify (sortKeys value) := by
  induction value using Json.induction with
  | null => rfl
  | bool value => rfl
  | number value => rfl
  | string value => rfl
  | array items ih =>
      rw [canonical, canonicalItems_eq, sortKeys, sortKeysItems_eq, stringify, stringifyItems_eq,
        List.map_map, List.map_congr_left ih]
      rfl
  | object entries ih =>
      have texts : (entries.map fun entry => (entry.1, canonical entry.2)) =
          (entries.map fun entry => (entry.1, sortKeys entry.2)).map
            fun entry => (entry.1, stringify entry.2) := by
        rw [List.map_map]
        apply List.map_congr_left
        intro entry membership
        exact Prod.ext rfl (ih entry membership)
      rw [canonical, canonicalEntries_eq, sortKeys, sortKeysEntries_eq, stringify,
        stringifyEntries_eq, texts, sortEntries_map, List.map_map]
      rfl

theorem wellFormed_canonical (value : Json) : Text.WellFormed (canonical value) := by
  rw [canonical_eq]
  exact wellFormed_stringify (sortKeys value)

/-- Texts are equal when the printed parts of the values are the same data. -/
theorem canonical_eq_iff {left right : Json} (distinct : Distinct left)
    (distinct' : Distinct right) :
    canonical left = canonical right ↔ Same (kept left) (kept right) := by
  rw [canonical_eq, canonical_eq]
  constructor
  · intro same
    have read := congrArg parse same
    rw [parse_stringify, parse_stringify, Option.some.injEq] at read
    have sorted := congrArg sortKeys read
    rw [sortKeys_reorder (distinct_kept (distinct_sortKeys distinct)),
      sortKeys_reorder (distinct_kept (distinct_sortKeys distinct')), kept_sortKeys, kept_sortKeys,
      sortKeys_sortKeys (distinct_kept distinct), sortKeys_sortKeys (distinct_kept distinct')]
      at sorted
    exact same_of_sortKeys sorted
  · intro same
    have sorted := sortKeys_kept_of_same same (distinct_kept distinct)
    rw [kept_kept, kept_kept, ← kept_sortKeys, ← kept_sortKeys] at sorted
    rw [← stringify_kept, sorted, stringify_kept]

/-! ## Equal requests -/

theorem isDigit_of_mem_encode_repr {number : Nat} {first : CodeUnit}
    (membership : first ∈ encode number.repr) : isDigit first = true := by
  rcases List.mem_flatMap.mp membership with ⟨char, isChar, isUnit⟩
  have digit := isDigit_of_mem_repr isChar
  simp only [Char.isDigit, Bool.and_eq_true, decide_eq_true_eq] at digit
  have lower : 48 ≤ char.toNat := digit.1
  have upper : char.toNat ≤ 57 := digit.2
  rw [encodeChar, if_pos (by omega), List.mem_singleton] at isUnit
  have code : (unit char).toNat = char.toNat := toNat_unit (by omega)
  rw [isUnit, isDigit, Bool.and_eq_true, decide_eq_true_eq, decide_eq_true_eq,
    UInt16.le_iff_toNat_le, UInt16.le_iff_toNat_le, code]
  exact ⟨lower, upper⟩

theorem not_mem_encode_repr {number : Nat} : unit '"' ∉ encode number.repr := by
  intro membership
  exact absurd (isDigit_of_mem_encode_repr membership) (by decide)

/-- Digits are not escaped. -/
theorem quoteUnit_of_isDigit {first : CodeUnit} (digit : isDigit first = true) :
    quoteUnit first = [first] := by
  have differs : ∀ other : CodeUnit, isDigit other = false → first ≠ other := by
    rintro other notDigit rfl
    rw [digit] at notDigit
    cases notDigit
  rw [isDigit, Bool.and_eq_true, decide_eq_true_eq, decide_eq_true_eq] at digit
  have below : ¬ (first < 32 ∨ isHigh first = true ∨ isLow first = true) := by
    rw [isHigh_iff, isLow_iff, UInt16.lt_iff_toNat_lt]
    have lower : 48 ≤ first.toNat := UInt16.le_iff_toNat_le.mp digit.1
    have upper : first.toNat ≤ 57 := UInt16.le_iff_toNat_le.mp digit.2
    rintro (control | high | low)
    · exact absurd (lt_of_le_of_lt lower control) (by decide)
    · omega
    · omega
  rw [quoteUnit, if_neg (differs _ rfl), if_neg (differs _ rfl), if_neg (differs _ rfl),
    if_neg (differs _ rfl), if_neg (differs _ rfl), if_neg (differs _ rfl),
    if_neg (differs _ rfl), if_neg below]

theorem quoteUnits_of_isDigit {text : Text} (digits : ∀ first ∈ text, isDigit first = true) :
    quoteUnits text = text := by
  fun_induction quoteUnits text with
  | case1 => rfl
  | case2 first => exact quoteUnit_of_isDigit (digits first List.mem_cons_self)
  | case3 first second rest isPair ih =>
      rw [ih fun other membership =>
        digits other (List.mem_cons_of_mem _ (List.mem_cons_of_mem _ membership))]
  | case4 first second rest notPair ih =>
      rw [List.forall_mem_cons] at digits
      rw [quoteUnit_of_isDigit digits.1, ih digits.2]
      rfl

/-- The parts of a pre-image, split at the quotation mark of the workflow. -/
theorem requestUnits_eq {Val : Type} [ToJson Val] (workflowId : ObjectId) (input : Val) :
    requestUnits workflowId input =
      ofString "\x7b\"input\":" ++ canonical (ToJson.toJson input) ++
        ofString ",\"workflowId\":" ++ unit '"' :: encode workflowId.repr ++ ofString "\"\x7d" := by
  have sorted : sortEntries
      [(encode "workflowId", quote (encode workflowId.repr)),
        (encode "input", canonical (ToJson.toJson input))] =
      [(encode "input", canonical (ToJson.toJson input)),
        (encode "workflowId", quote (encode workflowId.repr))] := by
    have later : ¬ keyLe (encode "workflowId") (encode "input") := by decide
    rw [sortEntries, List.insertionSort_cons, List.insertionSort_cons, List.insertionSort_nil,
      List.orderedInsert_nil, List.orderedInsert_cons, if_neg later, List.orderedInsert_nil]
  have inputKey : quote (encode "input") = ofString "\"input\"" := by decide
  have workflowKey : quote (encode "workflowId") = ofString "\"workflowId\"" := by decide
  have digits := quoteUnits_of_isDigit fun first (membership : first ∈ encode workflowId.repr) =>
    isDigit_of_mem_encode_repr membership
  rw [requestUnits, canonical]
  simp only [canonicalEntries, canonical, stringify]
  rw [sorted]
  simp only [List.map_cons, List.map_nil, commaSeparated, inputKey, workflowKey]
  rw [quote, digits]
  simp [ofString]

/-- Requests have one text when they name one workflow and inputs with one canonical
text. -/
theorem requestText_inj {Val : Type} [ToJson Val] {workflowId workflowId' : ObjectId}
    {input input' : Val} :
    requestText workflowId input = requestText workflowId' input' ↔
      workflowId = workflowId' ∧
        canonical (ToJson.toJson input) = canonical (ToJson.toJson input') := by
  constructor
  · intro same
    have units := WellFormed.eq_of_decode (wellFormed_canonical _) (wellFormed_canonical _) same
    change requestUnits workflowId input = requestUnits workflowId' input' at units
    rw [requestUnits_eq, requestUnits_eq] at units
    have before := List.append_cancel_right units
    have split := append_cons_inj_right not_mem_encode_repr not_mem_encode_repr before
    have inputs := List.append_cancel_right split.1
    have names := congrArg decode split.2
    rw [decode_encode, decode_encode] at names
    exact ⟨Nat.repr_injective names, List.append_cancel_left inputs⟩
  · rintro ⟨rfl, same⟩
    rw [requestText, requestText, requestUnits_eq, requestUnits_eq, same]

end WorkflowEngine
