import WorkflowEngine.Foundations.JsonReading
import WorkflowEngine.Services.Canonical

/-!
# Requests and their texts

An idempotency key is replayed when the text of the request is the same.  The text tells
inputs apart up to the order of keys, except that every number too large for a double
has been parsed to an infinity and is printed as null.
-/

open Text Numerals Json

namespace WorkflowEngine

/-- Texts are equal exactly for the same data. -/
def ToldApart (left right : Json) : Prop := canonical left = canonical right ↔ Same left right

/-- Requests for one workflow have equal texts exactly for the same data. -/
def RequestsToldApart (left right : Json) : Prop :=
  ∀ workflowId : ObjectId, requestText workflowId left = requestText workflowId right ↔
    Same left right

theorem requestsToldApart_iff (left right : Json) :
    RequestsToldApart left right ↔ ToldApart left right := by
  have texts : ∀ workflowId : ObjectId, requestText workflowId left = requestText workflowId right ↔
      canonical left = canonical right := by
    intro workflowId
    rw [requestText_inj]
    exact and_iff_right rfl
  constructor
  · intro apart
    exact (texts 0).symm.trans (apart 0)
  · intro apart workflowId
    exact (texts workflowId).trans apart

/-- Two values that a request can carry are told apart exactly if replacing their
infinite numbers by null does not make them the same. -/
theorem told_apart_iff {text text' : Text} {left right : Json} (isLeft : parse text = some left)
    (isRight : parse text' = some right) :
    ToldApart left right ∧ RequestsToldApart left right ↔
      (Same (kept left) (kept right) → Same left right) := by
  have distinct := (proper_parse isLeft).distinct
  have printed := canonical_eq_iff distinct (proper_parse isRight).distinct
  rw [requestsToldApart_iff, and_self]
  constructor
  · intro apart same
    exact apart.mp (printed.mpr same)
  · intro apart
    constructor
    · intro texts
      exact apart (printed.mp texts)
    · intro same
      exact printed.mpr (same_of_sortKeys (sortKeys_kept_of_same same distinct))

/-- Without infinite numbers the text tells all data apart. -/
theorem told_apart_of_finite {left right : Json} (finite : Finite left) (finite' : Finite right)
    (same : Same (kept left) (kept right)) : Same left right :=
  (same_kept finite).trans (same.trans (kept_same finite'))

/-! ## A number that is too large -/

/-- The object with one entry. -/
def single (value : Json) : Json := .object [(ofString "a", value)]

def largeBody : Text := ofString "\x7b\"a\":1e999\x7d"

def nullBody : Text := ofString "\x7b\"a\":null\x7d"

theorem readNumber_large :
    readNumber (ofString "1e999\x7d") = some (.infinite false, [unit '}']) := by
  have digits : ∀ first ∈ [unit '1'], isDigit first = true :=
    Text.forall_mem_of_all (by decide)
  have notDigit : isDigit (unit 'e') = false := by decide
  have ends : NoDigit (ofString "e999\x7d") := noDigit_cons _ notDigit
  have isFraction : readFraction (ofString "e999\x7d") = some ([], ofString "e999\x7d") := by rfl
  have isExponent : readExponent (ofString "e999\x7d") = some (999, [unit '}']) := by
    decide +kernel
  have read := readUnsigned_parts false digits (List.cons_ne_nil _ _) (.inr rfl) ends isFraction
    isExponent
  have value : digitsValue ([unit '1'] ++ []) = 1 := by decide
  have large : (2 : ℚ) ^ 1024 ≤ (1 : ℕ) * 10 ^ (999 - (([] : Text).length : ℤ)) := by
    calc (2 : ℚ) ^ 1024 ≤ 2 ^ (3 * 999) := pow_le_pow_right₀ (by norm_num) (by norm_num)
      _ = 8 ^ 999 := by
          rw [pow_mul]
          norm_num
      _ ≤ 10 ^ 999 := pow_le_pow_left₀ (by norm_num) (by norm_num) 999
      _ = (1 : ℕ) * 10 ^ (999 - (([] : Text).length : ℤ)) := by
          rw [Nat.cast_one, one_mul, List.length_nil, Nat.cast_zero, sub_zero]
          exact (zpow_natCast 10 999).symm
  have text : ofString "1e999\x7d" = unit '1' :: ofString "e999\x7d" := by rfl
  have notMinus : ¬ unit '1' = unit '-' := by decide
  rw [value, ofMagnitude_overflow _ large] at read
  rw [text, readNumber, if_neg notMinus]
  exact read

theorem parse_large : parse largeBody = some (single (.number (.infinite false))) := by
  have others : ∀ mark ∈ ofString "\x7b[\"ntf", unit '1' ≠ mark :=
    Text.forall_mem_of_all (by decide)
  have value : readValue 10 (ofString "1e999\x7d") =
      some (.number (.infinite false), [unit '}']) :=
    (ReadsValue.number rfl others readNumber_large).readValue
  have isKey : readKey (skipSpace (ofString "\"a\":1e999\x7d")) =
      some (ofString "a", ofString "1e999\x7d") := by
    have text : skipSpace (ofString "\"a\":1e999\x7d") =
        quote (ofString "a") ++ unit ':' :: ofString "1e999\x7d" := by decide
    rw [text, readKey_quote]
  have entries : readEntries 11 (ofString "\"a\":1e999\x7d") =
      some ([(ofString "a", .number (.infinite false))], []) :=
    (ReadsEntries.last isKey value rfl).readEntries
  have opens : skipSpace largeBody = unit '{' :: ofString "\"a\":1e999\x7d" := by decide
  have more : skipSpace (ofString "\"a\":1e999\x7d") =
      unit '"' :: ofString "a\":1e999\x7d" := by decide
  have quote : unit '"' ≠ unit '}' := by decide
  have whole : readValue 12 largeBody = some (single (.number (.infinite false)), []) :=
    (ReadsValue.object opens more quote entries).readValue
  have fuel : largeBody.length + 1 = 12 := by decide
  rw [parse, fuel, whole]
  rfl

theorem parse_null : parse nullBody = some (single .null) := by
  have printed : stringify (single .null) = nullBody := by decide
  rw [← printed, parse_stringify]
  rfl

theorem parse_empty : parse (ofString "{}") = some (.object []) := by
  have printed : stringify (.object []) = ofString "{}" := by decide
  rw [← printed, parse_stringify]
  rfl

theorem told_apart_null_empty : ToldApart (single .null) (.object []) ∧
    RequestsToldApart (single .null) (.object []) :=
  (told_apart_iff parse_null parse_empty).mpr
    (told_apart_of_finite ⟨trivial, trivial⟩ trivial)

/-- A number that is too large has the text of null. -/
theorem requests_confused : ¬ ∀ text text' : Text, ∀ left right : Json,
    parse text = some left → parse text' = some right →
      ToldApart left right ∧ RequestsToldApart left right := by
  intro all
  have apart := (all largeBody nullBody _ _ parse_large parse_null).1
  have texts : canonical (single (.number (.infinite false))) = canonical (single .null) := by
    decide
  rcases apart.mp texts with ⟨entries, isObject, -, ⟨value, membership, same⟩, -⟩
  cases isObject
  rcases same with ⟨number, rfl, -⟩
  rw [List.mem_singleton, Prod.mk.injEq] at membership
  cases membership.2

end WorkflowEngine
