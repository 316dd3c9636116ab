import Mathlib.Data.Nat.Digits.Lemmas
import Mathlib.Tactic.IntervalCases

/-!
# Texts of UTF-16 code units

Strings as JavaScript has them, lists of code units, and decimal digits in them.
-/

/-- A UTF-16 code unit. -/
abbrev CodeUnit := UInt16

/-- A JavaScript string. -/
abbrev Text := List CodeUnit

instance : LawfulBEq Text := List.instLawfulBEq

namespace Text

/-- The code unit of a character of the basic plane. -/
def unit (char : Char) : CodeUnit := char.toNat.toUInt16

/-- A text of characters of the basic plane. -/
def ofString (string : String) : Text := string.toList.map unit

/-! ## Surrogates -/

/-- The first half of a surrogate pair. -/
def isHigh (first : CodeUnit) : Bool := 0xD800 ≤ first && first ≤ 0xDBFF

/-- The second half of a surrogate pair. -/
def isLow (first : CodeUnit) : Bool := 0xDC00 ≤ first && first ≤ 0xDFFF

/-- The code units of a character. -/
def encodeChar (char : Char) : Text :=
  if char.toNat < 0x10000 then [unit char]
  else
    [(0xD800 + (char.toNat - 0x10000) / 0x400).toUInt16,
      (0xDC00 + (char.toNat - 0x10000) % 0x400).toUInt16]

def encode (string : String) : Text := string.toList.flatMap encodeChar

/-- The character of a code unit that is not part of a surrogate pair; a surrogate alone
has none, and U+FFFD stands for it. -/
def unitChar (first : CodeUnit) : Char :=
  if isHigh first || isLow first then Char.ofNat 0xFFFD else Char.ofNat first.toNat

/-- The character of a surrogate pair. -/
def pairChar (first second : CodeUnit) : Char :=
  Char.ofNat (0x10000 + (first.toNat - 0xD800) * 0x400 + (second.toNat - 0xDC00))

def decodeUnits : Text → List Char
  | [] => []
  | [first] => [unitChar first]
  | first :: second :: rest =>
      if isHigh first && isLow second then pairChar first second :: decodeUnits rest
      else unitChar first :: decodeUnits (second :: rest)

/-- The characters of a text, as they are written in UTF-8. -/
def decode (text : Text) : String := String.ofList (decodeUnits text)

/-- What each unit of a text has can be checked unit by unit. -/
theorem forall_mem_of_all {holds : CodeUnit → Prop} [DecidablePred holds] {text : Text}
    (all : text.all (fun first => decide (holds first)) = true) : ∀ first ∈ text, holds first :=
  fun first membership => of_decide_eq_true (List.all_eq_true.mp all first membership)

/-- Texts without surrogates that stand alone. -/
def WellFormed (text : Text) : Prop := ∃ string, encode string = text

/-- The white space of regular expressions and of `trim`. -/
def isWhiteSpace (first : CodeUnit) : Bool :=
  (9 ≤ first && first ≤ 13) || first == 32 || first == 0xA0 || first == 0x1680 ||
    (0x2000 ≤ first && first ≤ 0x200A) || first == 0x2028 || first == 0x2029 || first == 0x202F ||
    first == 0x205F || first == 0x3000 || first == 0xFEFF

/-! ## Digits -/

def isDigit (first : CodeUnit) : Bool := unit '0' ≤ first && first ≤ unit '9'

def digitUnit (digit : ℕ) : CodeUnit := (48 + digit).toUInt16

def digitValue (first : CodeUnit) : ℕ := first.toNat - 48

theorem isDigit_digitUnit {digit : ℕ} (small : digit < 10) : isDigit (digitUnit digit) = true := by
  interval_cases digit <;> decide

theorem digitValue_digitUnit {digit : ℕ} (small : digit < 10) :
    digitValue (digitUnit digit) = digit := by
  interval_cases digit <;> decide

theorem digitUnit_eq_zero_iff {digit : ℕ} (small : digit < 10) :
    digitUnit digit = unit '0' ↔ digit = 0 := by
  interval_cases digit <;> decide

/-- A list of digits, most significant first, as text. -/
def ofDigits (digits : List ℕ) : Text := digits.map digitUnit

/-- The number a text of digits denotes. -/
def digitsValue (digits : Text) : ℕ := Nat.ofDigits 10 (digits.map digitValue).reverse

/-- The digits of a number, most significant first. -/
def digitsOf (number : ℕ) : List ℕ := (Nat.digits 10 number).reverse

theorem digitsOf_lt {number digit : ℕ} (membership : digit ∈ digitsOf number) : digit < 10 :=
  Nat.digits_lt_base (by norm_num) (List.mem_reverse.mp membership)

theorem isDigit_of_mem_ofDigits {digits : List ℕ} (small : ∀ digit ∈ digits, digit < 10)
    {first : CodeUnit} (membership : first ∈ ofDigits digits) : isDigit first = true := by
  rcases List.mem_map.mp membership with ⟨digit, isDigit, rfl⟩
  exact isDigit_digitUnit (small digit isDigit)

theorem map_digitValue {digits : List ℕ} (small : ∀ digit ∈ digits, digit < 10) :
    (ofDigits digits).map digitValue = digits := by
  rw [ofDigits, List.map_map]
  have same : ∀ digit ∈ digits, (digitValue ∘ digitUnit) digit = id digit := by
    intro digit membership
    exact digitValue_digitUnit (small digit membership)
  rw [List.map_congr_left same, List.map_id]

theorem digitsValue_digitsOf (number : ℕ) : digitsValue (ofDigits (digitsOf number)) = number := by
  rw [digitsValue, map_digitValue fun digit membership => digitsOf_lt membership, digitsOf,
    List.reverse_reverse, Nat.ofDigits_digits]

theorem digitsValue_zeros (digits : Text) (zeros : ℕ) :
    digitsValue (digits ++ List.replicate zeros (unit '0')) = digitsValue digits * 10 ^ zeros := by
  have zero : digitValue (unit '0') = 0 := by decide
  rw [digitsValue, List.map_append, List.map_replicate, List.reverse_append,
    List.reverse_replicate, Nat.ofDigits_append, zero, Nat.ofDigits_replicate_zero, zero_add,
    List.length_replicate, mul_comm]
  rfl

theorem digitsValue_leading (digits : Text) (zeros : ℕ) :
    digitsValue (List.replicate zeros (unit '0') ++ digits) = digitsValue digits := by
  have zero : digitValue (unit '0') = 0 := by decide
  rw [digitsValue, List.map_append, List.map_replicate, List.reverse_append,
    List.reverse_replicate, Nat.ofDigits_append, zero, Nat.ofDigits_replicate_zero, mul_zero,
    add_zero]
  rfl

theorem digitsOf_ne_nil {number : ℕ} (positive : number ≠ 0) : digitsOf number ≠ [] := by
  intro empty
  rw [digitsOf, List.reverse_eq_nil_iff, Nat.digits_eq_nil_iff_eq_zero] at empty
  exact positive empty

/-- The most significant digit is not zero. -/
theorem head_digitsOf {number digit : ℕ} {rest : List ℕ}
    (split : digitsOf number = digit :: rest) : digit ≠ 0 := by
  rintro rfl
  have last := congrArg List.reverse split
  rw [digitsOf, List.reverse_reverse, List.reverse_cons] at last
  have positive : number ≠ 0 := by
    rintro rfl
    rw [Nat.digits_zero] at last
    simp at last
  apply Nat.getLast_digit_ne_zero 10 positive
  simp only [last, List.getLast_append_singleton]

/-! ## Runs of digits -/

/-- A text that does not go on with a digit. -/
def NoDigit (text : Text) : Prop := ∀ first ∈ text.head?, isDigit first = false

theorem span_digits {digits rest : Text} (all : ∀ first ∈ digits, isDigit first = true)
    (ends : NoDigit rest) : (digits ++ rest).span isDigit = (digits, rest) := by
  rw [List.span_eq_takeWhile_dropWhile, List.takeWhile_append_of_pos all,
    List.dropWhile_append_of_pos all]
  cases rest with
  | nil => simp
  | cons first rest =>
      have stops := ends first rfl
      simp [stops]

/-! ## Characters -/

theorem toNat_unit {char : Char} (small : char.toNat < 0x10000) :
    (unit char).toNat = char.toNat :=
  UInt16.toNat_ofNat_of_lt' small

theorem isHigh_iff {first : CodeUnit} :
    isHigh first = true ↔ 0xD800 ≤ first.toNat ∧ first.toNat ≤ 0xDBFF := by
  rw [isHigh, Bool.and_eq_true, decide_eq_true_eq, decide_eq_true_eq, UInt16.le_iff_toNat_le,
    UInt16.le_iff_toNat_le]
  rfl

theorem isLow_iff {first : CodeUnit} :
    isLow first = true ↔ 0xDC00 ≤ first.toNat ∧ first.toNat ≤ 0xDFFF := by
  rw [isLow, Bool.and_eq_true, decide_eq_true_eq, decide_eq_true_eq, UInt16.le_iff_toNat_le,
    UInt16.le_iff_toNat_le]
  rfl

theorem isValid_toNat (char : Char) :
    char.toNat < 0xD800 ∨ 0xDFFF < char.toNat ∧ char.toNat < 0x110000 := char.valid

theorem toNat_ofNat {code : ℕ} (valid : code.isValidChar) : (Char.ofNat code).toNat = code := by
  rw [Char.ofNat, dif_pos valid]
  rfl

theorem decodeUnits_cons {first : CodeUnit} (notHigh : isHigh first = false) (tail : Text) :
    decodeUnits (first :: tail) = unitChar first :: decodeUnits tail := by
  cases tail with
  | nil => rfl
  | cons second rest => rw [decodeUnits, notHigh, Bool.false_and, if_neg Bool.false_ne_true]

/-- A character is read back before any text. -/
theorem decodeUnits_encodeChar (char : Char) (tail : Text) :
    decodeUnits (encodeChar char ++ tail) = char :: decodeUnits tail := by
  have valid := isValid_toNat char
  unfold encodeChar
  split
  · next small =>
    have notHigh : isHigh (unit char) = false := by
      rw [← Bool.not_eq_true, isHigh_iff, toNat_unit small]
      omega
    have notLow : isLow (unit char) = false := by
      rw [← Bool.not_eq_true, isLow_iff, toNat_unit small]
      omega
    rw [List.singleton_append, decodeUnits_cons notHigh, unitChar, notHigh, notLow, toNat_unit small]
    exact congrArg (· :: decodeUnits tail) (Char.ofNat_toNat char)
  · next large =>
    have high : (0xD800 + (char.toNat - 0x10000) / 0x400).toUInt16.toNat =
        0xD800 + (char.toNat - 0x10000) / 0x400 := UInt16.toNat_ofNat_of_lt' (show _ < 65536 by omega)
    have low : (0xDC00 + (char.toNat - 0x10000) % 0x400).toUInt16.toNat =
        0xDC00 + (char.toNat - 0x10000) % 0x400 := UInt16.toNat_ofNat_of_lt' (show _ < 65536 by omega)
    have isPair : (isHigh (0xD800 + (char.toNat - 0x10000) / 0x400).toUInt16 &&
        isLow (0xDC00 + (char.toNat - 0x10000) % 0x400).toUInt16) = true := by
      rw [Bool.and_eq_true, isHigh_iff, isLow_iff, high, low]
      omega
    have code : 0x10000 + (0xD800 + (char.toNat - 0x10000) / 0x400 - 0xD800) * 0x400 +
        (0xDC00 + (char.toNat - 0x10000) % 0x400 - 0xDC00) = char.toNat := by omega
    rw [List.cons_append, List.singleton_append, decodeUnits, if_pos isPair, pairChar, high, low,
      code, Char.ofNat_toNat]

theorem decode_encode (string : String) : decode (encode string) = string := by
  have units : ∀ chars : List Char, decodeUnits (chars.flatMap encodeChar) = chars := by
    intro chars
    induction chars with
    | nil => rfl
    | cons char rest ih => rw [List.flatMap_cons, decodeUnits_encodeChar, ih]
  rw [decode, encode, units, String.ofList_toList]

theorem encode_append (left right : String) : encode (left ++ right) = encode left ++ encode right := by
  rw [encode, String.toList_append, List.flatMap_append]
  rfl

namespace WellFormed

theorem append {left right : Text} (isLeft : WellFormed left) (isRight : WellFormed right) :
    WellFormed (left ++ right) := by
  rcases isLeft with ⟨before, rfl⟩
  rcases isRight with ⟨after, rfl⟩
  exact ⟨before ++ after, encode_append before after⟩

/-- Well-formed texts are told apart by their characters. -/
theorem eq_of_decode {left right : Text} (isLeft : WellFormed left) (isRight : WellFormed right)
    (same : decode left = decode right) : left = right := by
  rcases isLeft with ⟨before, rfl⟩
  rcases isRight with ⟨after, rfl⟩
  rw [decode_encode, decode_encode] at same
  rw [same]

theorem nil : WellFormed [] := ⟨"", rfl⟩

/-- A code unit that is no surrogate is a character. -/
theorem single {first : CodeUnit} (notHigh : isHigh first = false) (notLow : isLow first = false) :
    WellFormed [first] := by
  have bound := first.toNat_lt
  rw [← Bool.not_eq_true, isHigh_iff] at notHigh
  rw [← Bool.not_eq_true, isLow_iff] at notLow
  have valid : first.toNat.isValidChar := by
    unfold Nat.isValidChar
    omega
  have code := toNat_ofNat valid
  refine ⟨String.ofList [Char.ofNat first.toNat], ?_⟩
  rw [encode, String.toList_ofList, List.flatMap_singleton, encodeChar, if_pos (by omega), unit,
    code]
  exact congrArg (fun other => [other]) UInt16.ofNat_toNat

theorem pair {first second : CodeUnit} (high : isHigh first = true) (low : isLow second = true) :
    WellFormed [first, second] := by
  rw [isHigh_iff] at high
  rw [isLow_iff] at low
  have code : (pairChar first second).toNat =
      0x10000 + (first.toNat - 0xD800) * 0x400 + (second.toNat - 0xDC00) := by
    apply toNat_ofNat
    unfold Nat.isValidChar
    omega
  refine ⟨String.ofList [pairChar first second], ?_⟩
  have upper : 0xD800 + ((pairChar first second).toNat - 0x10000) / 0x400 = first.toNat := by
    omega
  have lower : 0xDC00 + ((pairChar first second).toNat - 0x10000) % 0x400 = second.toNat := by
    omega
  rw [encode, String.toList_ofList, List.flatMap_singleton, encodeChar, if_neg (by omega), upper,
    lower]
  exact congrArg₂ (fun left right => [left, right]) UInt16.ofNat_toNat UInt16.ofNat_toNat

/-- A text without surrogates. -/
theorem of_forall {text : Text}
    (plain : ∀ first ∈ text, isHigh first = false ∧ isLow first = false) : WellFormed text := by
  induction text with
  | nil => exact nil
  | cons first rest ih =>
      rw [List.forall_mem_cons] at plain
      exact (single plain.1.1 plain.1.2).append (ih plain.2)

end WellFormed
end Text
