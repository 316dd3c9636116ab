import WorkflowEngine.Foundations.Binary64
import WorkflowEngine.Foundations.Text

/-!
# Numbers and their decimal text

`Number::toString` of a double, the shortest decimal that rounds to it, and the
reading of a JSON number.  Reading a printed number gives the number back.
-/

namespace Numerals

open Binary64 Text

/-- A finite double. -/
structure Double where
  value : ℚ
  isDouble : IsDouble value
  deriving DecidableEq

namespace Double

@[ext] theorem ext {left right : Double} (same : left.value = right.value) : left = right := by
  cases left
  cases right
  cases same
  rfl

def neg (number : Double) : Double := ⟨-number.value, number.isDouble.neg⟩

end Double

/-- A number that is not NaN. -/
inductive Number where
  | finite (value : Double)
  | negativeZero
  | infinite (negative : Bool)
  deriving DecidableEq

namespace Number

def zero : Number := .finite ⟨0, .zero⟩

/-- What a number is compared by: 0 and -0 are equal. -/
def plain : Number → Number
  | .negativeZero => zero
  | number => number

def isFinite : Number → Bool
  | .infinite _ => false
  | _ => true

end Number

/-- An integer scaled by a power of ten. -/
structure Decimal where
  digits : ℕ
  exponent : ℤ

def Decimal.value (decimal : Decimal) : ℚ := decimal.digits * 10 ^ decimal.exponent

/-! ## The shortest decimal -/

/-- The two decimals of `count` digits around a positive number, the closer one
first, ties to even. -/
def neighbours (value : ℚ) (count : ℕ) : List Decimal :=
  let exponent := Int.log 10 value + 1 - count
  let scaled := value / 10 ^ exponent
  let low := ⌊scaled⌋₊
  let below : Decimal := ⟨low, exponent⟩
  let above : Decimal :=
    if low + 1 = 10 ^ count then ⟨1, exponent + count⟩ else ⟨low + 1, exponent⟩
  if scaled - low < 1 / 2 ∨ scaled - low = 1 / 2 ∧ low % 2 = 0 then [below, above]
  else [above, below]

/-- The closest decimal of `count` digits that rounds to a positive double. -/
def decimalOfLength (value : ℚ) (count : ℕ) : Option Decimal :=
  (neighbours value count).find? fun decimal => nearest decimal.value = some value

theorem decimalOfLength_spec {value : ℚ} {count : ℕ} {decimal : Decimal}
    (found : decimalOfLength value count = some decimal) :
    nearest decimal.value = some value := by
  have rounds := List.find?_some found
  simpa using rounds

/-- With enough digits a double is its own decimal. -/
theorem exists_decimalOfLength {value : ℚ} (isDouble : IsDouble value) (positive : 0 < value) :
    ∃ count, (decimalOfLength value (count + 1)).isSome = true := by
  rcases isDouble with ⟨mantissa, exponent, small, low, high, rfl⟩
  have isDouble : IsDouble (mantissa * 2 ^ exponent) :=
    ⟨mantissa, exponent, small, low, high, rfl⟩
  generalize value_eq : (mantissa : ℚ) * 2 ^ exponent = value at *
  refine ⟨(Int.log 10 value).natAbs + 1074, ?_⟩
  generalize scale_eq :
    Int.log 10 value + 1 - (((Int.log 10 value).natAbs + 1074 + 1 : ℕ) : ℤ) = scale
  have deep : scale ≤ -1074 := by
    rw [← scale_eq]
    omega
  obtain ⟨places, isPlaces⟩ := Int.le.dest deep
  obtain ⟨shift, isShift⟩ := Int.le.dest low
  -- in units of the last place the double is an integer
  have integral : value / 10 ^ scale = ((mantissa * (2 ^ (shift + places) * 5 ^ (1074 + places)) :
      ℤ) : ℚ) := by
    have scale_neg : scale = -((1074 + places : ℕ) : ℤ) := by
      push_cast
      omega
    have exponent_eq : exponent = -1074 + (shift : ℤ) := isShift.symm
    rw [← value_eq, scale_neg, zpow_neg, div_inv_eq_mul, zpow_natCast]
    have ten : (10 : ℚ) ^ (1074 + places) = 2 ^ ((1074 + places : ℕ) : ℤ) * 5 ^ (1074 + places) := by
      rw [zpow_natCast, ← mul_pow]
      norm_num
    rw [ten, mul_assoc, ← mul_assoc ((2 : ℚ) ^ exponent), ← zpow_add₀ (by norm_num)]
    have sum : exponent + ((1074 + places : ℕ) : ℤ) = ((shift + places : ℕ) : ℤ) := by
      push_cast
      omega
    rw [sum, zpow_natCast]
    push_cast
    rfl
  generalize mantissa * (2 ^ (shift + places) * 5 ^ (1074 + places)) = units at integral
  have power : (0 : ℚ) < 10 ^ scale := zpow_pos (by norm_num) _
  have units_nonneg : 0 ≤ units := by
    have scaled_pos : 0 < value / 10 ^ scale := div_pos positive power
    rw [integral] at scaled_pos
    exact_mod_cast scaled_pos.le
  obtain ⟨whole, rfl⟩ := Int.eq_ofNat_of_zero_le units_nonneg
  have floor_eq : ⌊value / 10 ^ scale⌋₊ = whole := by
    rw [integral]
    exact_mod_cast Nat.floor_natCast whole
  have exactly : value / 10 ^ scale - (whole : ℚ) = 0 := by
    rw [integral]
    push_cast
    ring
  have value_is : (⟨whole, scale⟩ : Decimal).value = value := by
    rw [Decimal.value, ← sub_eq_zero.mp exactly, div_mul_cancel₀ _ power.ne']
  have first : ((0 : ℚ) < 1 / 2 ∨ (0 : ℚ) = 1 / 2 ∧ whole % 2 = 0) := .inl (by norm_num)
  rw [decimalOfLength, neighbours, scale_eq, floor_eq, exactly, if_pos first, List.find?_cons_of_pos]
  · rfl
  · rw [value_is, decide_eq_true_eq]
    exact nearest_of_isDouble isDouble

/-- The shortest decimal that rounds to a positive double. -/
def shortest (number : Double) (positive : 0 < number.value) : Decimal :=
  (decimalOfLength number.value
    (Nat.find (exists_decimalOfLength number.isDouble positive) + 1)).get
      (Nat.find_spec (exists_decimalOfLength number.isDouble positive))

theorem nearest_shortest (number : Double) (positive : 0 < number.value) :
    nearest (shortest number positive).value = some number.value :=
  decimalOfLength_spec (Option.some_get _).symm

theorem shortest_ne_zero (number : Double) (positive : 0 < number.value) :
    (shortest number positive).digits ≠ 0 := by
  intro zero
  have rounds := nearest_shortest number positive
  rw [Decimal.value, zero, Nat.cast_zero, zero_mul, nearest_of_isDouble .zero] at rounds
  exact positive.ne (Option.some.inj rounds)

/-! ## Printing -/

/-- The text of a positive decimal; `point` is the place of the decimal point among
the digits. -/
def decimalText (digits : Text) (point : ℤ) : Text :=
  if digits.length ≤ point ∧ point ≤ 21 then
    digits ++ List.replicate (point - digits.length).toNat (unit '0')
  else if 0 < point ∧ point ≤ 21 then
    digits.take point.toNat ++ unit '.' :: digits.drop point.toNat
  else if -6 < point ∧ point ≤ 0 then
    unit '0' :: unit '.' :: List.replicate (-point).toNat (unit '0') ++ digits
  else
    digits.take 1 ++ (if digits.length = 1 then [] else unit '.' :: digits.drop 1) ++
      unit 'e' :: (if 0 ≤ point - 1 then unit '+' else unit '-') ::
        ofDigits (digitsOf (point - 1).natAbs)

/-- `Number::toString` of a positive double. -/
def positiveText (number : Double) (positive : 0 < number.value) : Text :=
  let decimal := shortest number positive
  let digits := ofDigits (digitsOf decimal.digits)
  decimalText digits (decimal.exponent + digits.length)

/-- `Number::toString`. -/
def numberText : Number → Text
  | .finite number =>
      if positive : 0 < number.value then positiveText number positive
      else if negative : 0 < number.neg.value then unit '-' :: positiveText number.neg negative
      else [unit '0']
  | .negativeZero => [unit '0']
  | .infinite negative => ofString (if negative then "-Infinity" else "Infinity")

/-! ## Reading -/

/-- The digits after a decimal point, if there is one. -/
def readFraction : Text → Option (Text × Text)
  | [] => some ([], [])
  | first :: rest =>
      if first = unit '.' then
        let (digits, rest) := rest.span isDigit
        if digits = [] then none else some (digits, rest)
      else
        some ([], first :: rest)

/-- The sign of an exponent; whether it is negative. -/
def readSign : Text → Bool × Text
  | [] => (false, [])
  | first :: rest =>
      if first = unit '-' then (true, rest)
      else if first = unit '+' then (false, rest)
      else (false, first :: rest)

/-- The exponent, if there is one. -/
def readExponent : Text → Option (ℤ × Text)
  | [] => some (0, [])
  | first :: rest =>
      if first = unit 'e' ∨ first = unit 'E' then
        let (negative, rest) := readSign rest
        let (digits, rest) := rest.span isDigit
        if digits = [] then none
        else some (if negative then -(digitsValue digits : ℤ) else digitsValue digits, rest)
      else
        some (0, first :: rest)

/-- The number nearest to a magnitude with a sign. -/
def ofMagnitude (negative : Bool) (magnitude : ℚ) : Number :=
  match rounded : nearest magnitude with
  | none => .infinite negative
  | some value =>
      let number : Double := ⟨value, nearest_isDouble rounded⟩
      if negative then
        if value = 0 then .negativeZero else .finite number.neg
      else
        .finite number

/-- A number without its sign. -/
def readUnsigned (negative : Bool) (text : Text) : Option (Number × Text) :=
  let (whole, rest) := text.span isDigit
  -- no number begins with a zero that is followed by a digit
  if whole = [] ∨ whole.head? = some (unit '0') ∧ whole.length ≠ 1 then none
  else
    match readFraction rest with
    | none => none
    | some (fraction, rest) =>
        match readExponent rest with
        | none => none
        | some (exponent, rest) =>
            let decimal : Decimal :=
              ⟨digitsValue (whole ++ fraction), exponent - fraction.length⟩
            some (ofMagnitude negative decimal.value, rest)

/-- A JSON number at the beginning of a text. -/
def readNumber : Text → Option (Number × Text)
  | [] => none
  | first :: rest =>
      if first = unit '-' then readUnsigned true rest
      else readUnsigned false (first :: rest)

/-! ## Reading a printed number -/

/-- A text that does not go on with a number. -/
def EndsNumber (text : Text) : Prop :=
  ∀ first ∈ text.head?, isDigit first = false ∧ first ≠ unit '.' ∧ first ≠ unit 'e' ∧
    first ≠ unit 'E'

theorem EndsNumber.noDigit {text : Text} (ends : EndsNumber text) : NoDigit text :=
  fun first isFirst => (ends first isFirst).1

theorem readFraction_ends {text : Text} (ends : EndsNumber text) :
    readFraction text = some ([], text) := by
  cases text with
  | nil => rfl
  | cons first rest => rw [readFraction, if_neg (ends first rfl).2.1]

theorem readExponent_ends {text : Text} (ends : EndsNumber text) :
    readExponent text = some (0, text) := by
  cases text with
  | nil => rfl
  | cons first rest =>
      have other : ¬ (first = unit 'e' ∨ first = unit 'E') :=
        not_or.mpr (ends first rfl).2.2
      rw [readExponent, if_neg other]

theorem readFraction_digits {digits rest : Text} (all : ∀ first ∈ digits, isDigit first = true)
    (nonempty : digits ≠ []) (ends : NoDigit rest) :
    readFraction (unit '.' :: (digits ++ rest)) = some (digits, rest) := by
  rw [readFraction, if_pos rfl, span_digits all ends]
  exact if_neg nonempty

theorem readExponent_digits {digits rest : Text} (negative : Bool)
    (all : ∀ first ∈ digits, isDigit first = true) (nonempty : digits ≠ [])
    (ends : NoDigit rest) :
    readExponent (unit 'e' :: (if negative then unit '-' else unit '+') :: (digits ++ rest)) =
      some (if negative then -(digitsValue digits : ℤ) else digitsValue digits, rest) := by
  have sign : readSign ((if negative then unit '-' else unit '+') :: (digits ++ rest)) =
      (negative, digits ++ rest) := by
    cases negative with
    | true => rw [if_pos rfl, readSign, if_pos rfl]
    | false => rfl
  rw [readExponent, if_pos (.inl rfl), sign]
  dsimp only
  rw [span_digits all ends]
  exact if_neg nonempty

theorem readUnsigned_parts {whole tail more fraction rest : Text} {exponent : ℤ}
    (negative : Bool) (all : ∀ first ∈ whole, isDigit first = true) (nonempty : whole ≠ [])
    (leading : whole.head? ≠ some (unit '0') ∨ whole.length = 1) (ends : NoDigit tail)
    (isFraction : readFraction tail = some (fraction, more))
    (isExponent : readExponent more = some (exponent, rest)) :
    readUnsigned negative (whole ++ tail) =
      some (ofMagnitude negative (digitsValue (whole ++ fraction) *
        10 ^ (exponent - fraction.length)), rest) := by
  have valid : ¬ (whole = [] ∨ whole.head? = some (unit '0') ∧ whole.length ≠ 1) := by
    rintro (empty | ⟨zero, long⟩)
    · exact nonempty empty
    · exact leading.elim (fun other => other zero) long
  rw [readUnsigned, span_digits all ends]
  dsimp only
  rw [if_neg valid, isFraction]
  dsimp only
  rw [isExponent]
  rfl

theorem noDigit_cons {first : CodeUnit} (rest : Text) (other : isDigit first = false) :
    NoDigit (first :: rest) := by
  intro head isHead
  cases Option.some.inj isHead
  exact other

theorem isDigit_of_mem_zeros {count : ℕ} {first : CodeUnit}
    (membership : first ∈ List.replicate count (unit '0')) : isDigit first = true := by
  rw [List.eq_of_mem_replicate membership]
  decide

section Printed

variable {digits rest : Text} (negative : Bool) (all : ∀ first ∈ digits, isDigit first = true)
  (nonempty : digits ≠ []) (leading : digits.head? ≠ some (unit '0')) (ends : EndsNumber rest)

include all nonempty leading ends

/-- An integer with zeros at the end. -/
theorem readUnsigned_integer (zeros : ℕ) :
    readUnsigned negative (digits ++ List.replicate zeros (unit '0') ++ rest) =
      some (ofMagnitude negative (digitsValue digits * 10 ^ (zeros : ℤ)), rest) := by
  have allDigits : ∀ first ∈ digits ++ List.replicate zeros (unit '0'), isDigit first = true := by
    intro first membership
    rcases List.mem_append.mp membership with isDigits | isZero
    · exact all first isDigits
    · exact isDigit_of_mem_zeros isZero
  have head : (digits ++ List.replicate zeros (unit '0')).head? ≠ some (unit '0') := by
    rwa [List.head?_append_of_ne_nil _ nonempty]
  rw [readUnsigned_parts negative allDigits (by simp [nonempty]) (.inl head) ends.noDigit
    (readFraction_ends ends) (readExponent_ends ends), List.append_nil, digitsValue_zeros]
  simp

/-- A point among the digits. -/
theorem readUnsigned_inside {point : ℕ} (positive : 0 < point) (short : point < digits.length) :
    readUnsigned negative (digits.take point ++ unit '.' :: (digits.drop point ++ rest)) =
      some (ofMagnitude negative
        (digitsValue digits * 10 ^ (point - digits.length : ℤ)), rest) := by
  have taken : digits.take point ≠ [] := by
    rw [Ne, List.take_eq_nil_iff, not_or]
    exact ⟨positive.ne', nonempty⟩
  have dropped : digits.drop point ≠ [] := by
    rw [Ne, List.drop_eq_nil_iff]
    omega
  have head : (digits.take point).head? ≠ some (unit '0') := by
    rwa [List.head?_take, if_neg positive.ne']
  have places : (0 : ℤ) - (digits.drop point).length = point - digits.length := by
    rw [List.length_drop]
    omega
  rw [readUnsigned_parts negative (fun first membership => all first (List.mem_of_mem_take membership))
    taken (.inl head) (noDigit_cons _ (by decide))
    (readFraction_digits (fun first membership => all first (List.mem_of_mem_drop membership))
      dropped ends.noDigit)
    (readExponent_ends ends), List.take_append_drop, places]

omit leading in
/-- Zeros between the point and the digits. -/
theorem readUnsigned_leading (zeros : ℕ) :
    readUnsigned negative
        (unit '0' :: unit '.' :: (List.replicate zeros (unit '0') ++ (digits ++ rest))) =
      some (ofMagnitude negative
        (digitsValue digits * 10 ^ (-zeros - digits.length : ℤ)), rest) := by
  have fraction : ∀ first ∈ List.replicate zeros (unit '0') ++ digits, isDigit first = true := by
    intro first membership
    rcases List.mem_append.mp membership with isZero | isDigits
    · exact isDigit_of_mem_zeros isZero
    · exact all first isDigits
  have value : digitsValue (List.replicate 1 (unit '0') ++
      (List.replicate zeros (unit '0') ++ digits)) = digitsValue digits := by
    rw [digitsValue_leading, digitsValue_leading]
  have places : (0 : ℤ) - (List.replicate zeros (unit '0') ++ digits).length =
      -zeros - digits.length := by
    rw [List.length_append, List.length_replicate]
    omega
  have whole : ∀ first ∈ List.replicate 1 (unit '0'), isDigit first = true :=
    fun _ => isDigit_of_mem_zeros
  have parts := readUnsigned_parts negative whole (List.cons_ne_nil _ _)
    (.inr rfl) (noDigit_cons _ (by decide))
    (readFraction_digits fraction (by simp [nonempty]) ends.noDigit) (readExponent_ends ends)
  rw [value, places, List.append_assoc] at parts
  exact parts

/-- The exponential notation. -/
theorem readUnsigned_exponential {exponent : ℤ} (far : exponent ≠ 0) :
    readUnsigned negative (digits.take 1 ++
        ((if digits.length = 1 then [] else unit '.' :: digits.drop 1) ++
          unit 'e' :: (if 0 ≤ exponent then unit '+' else unit '-') ::
            (ofDigits (digitsOf exponent.natAbs) ++ rest))) =
      some (ofMagnitude negative
        (digitsValue digits * 10 ^ (exponent + 1 - digits.length : ℤ)), rest) := by
  have positive := List.length_pos_of_ne_nil nonempty
  have exponentDigits : ∀ first ∈ ofDigits (digitsOf exponent.natAbs), isDigit first = true :=
    fun first => isDigit_of_mem_ofDigits fun digit => digitsOf_lt
  have exponentNonempty : ofDigits (digitsOf exponent.natAbs) ≠ [] := by
    rw [ofDigits, Ne, List.map_eq_nil_iff]
    exact digitsOf_ne_nil (by omega)
  have isExponent : readExponent (unit 'e' :: (if 0 ≤ exponent then unit '+' else unit '-') ::
      (ofDigits (digitsOf exponent.natAbs) ++ rest)) = some (exponent, rest) := by
    by_cases below : 0 ≤ exponent
    · have read := readExponent_digits false exponentDigits exponentNonempty ends.noDigit
      rw [digitsValue_digitsOf, if_neg Bool.false_ne_true, if_neg Bool.false_ne_true,
        Int.natAbs_of_nonneg below] at read
      rwa [if_pos below]
    · have read := readExponent_digits true exponentDigits exponentNonempty ends.noDigit
      rw [digitsValue_digitsOf, if_pos rfl, if_pos rfl] at read
      rw [if_neg below, read]
      congr 2
      omega
  by_cases single : digits.length = 1
  · have notPoint : ¬ unit 'e' = unit '.' := by decide
    have whole : digits.take 1 = digits := List.take_of_length_le (by omega)
    have noFraction : readFraction (unit 'e' ::
        (if 0 ≤ exponent then unit '+' else unit '-') ::
          (ofDigits (digitsOf exponent.natAbs) ++ rest)) =
        some ([], unit 'e' :: (if 0 ≤ exponent then unit '+' else unit '-') ::
          (ofDigits (digitsOf exponent.natAbs) ++ rest)) := by
      rw [readFraction, if_neg notPoint]
    rw [if_pos single, List.nil_append, whole, readUnsigned_parts negative all nonempty
      (.inl leading) (noDigit_cons _ (by decide)) noFraction isExponent, List.append_nil, single]
    simp
  · have taken : digits.take 1 ≠ [] := by
      rw [Ne, List.take_eq_nil_iff, not_or]
      exact ⟨one_ne_zero, nonempty⟩
    have dropped : digits.drop 1 ≠ [] := by
      rw [Ne, List.drop_eq_nil_iff]
      omega
    have head : (digits.take 1).head? ≠ some (unit '0') := by
      rwa [List.head?_take, if_neg one_ne_zero]
    have places : exponent - (digits.drop 1).length = exponent + 1 - digits.length := by
      rw [List.length_drop]
      omega
    rw [if_neg single, List.cons_append,
      readUnsigned_parts negative
        (fun first membership => all first (List.mem_of_mem_take membership)) taken (.inl head)
        (noDigit_cons _ (by decide))
        (readFraction_digits (fun first membership => all first (List.mem_of_mem_drop membership))
          dropped (noDigit_cons _ (by decide)))
        isExponent, List.take_append_drop, places]

/-- Reading a printed decimal gives its value. -/
theorem readUnsigned_decimalText (point : ℤ) :
    readUnsigned negative (decimalText digits point ++ rest) =
      some (ofMagnitude negative (digitsValue digits * 10 ^ (point - digits.length)), rest) := by
  unfold decimalText
  split
  · next whole =>
      rw [readUnsigned_integer negative all nonempty leading ends,
        Int.toNat_of_nonneg (by omega)]
  · next notWhole =>
      split
      · next inside =>
          have point_eq : (point.toNat : ℤ) = point := Int.toNat_of_nonneg (by omega)
          rw [List.append_assoc, List.cons_append,
            readUnsigned_inside negative all nonempty leading ends (by omega) (by omega), point_eq]
      · next notInside =>
          split
          · next near =>
              have point_eq : -((-point).toNat : ℤ) = point := by omega
              rw [List.append_assoc, List.cons_append, List.cons_append,
                readUnsigned_leading negative all nonempty ends, point_eq]
          · next notNear =>
              have far : point - 1 ≠ 0 := by
                have bound := List.length_pos_of_ne_nil nonempty
                omega
              have read := readUnsigned_exponential negative all nonempty leading ends far
              rw [sub_add_cancel] at read
              rw [List.append_assoc, List.append_assoc, List.cons_append, List.cons_append, read]

end Printed

theorem ofMagnitude_of_nearest {magnitude : ℚ} {number : Double} (negative : Bool)
    (rounds : nearest magnitude = some number.value) (nonzero : number.value ≠ 0) :
    ofMagnitude negative magnitude = .finite (if negative then number.neg else number) := by
  unfold ofMagnitude
  split
  · next none => cases none.symm.trans rounds
  · next value isValue =>
      cases Option.some.inj (isValue.symm.trans rounds)
      cases negative with
      | true => exact if_neg nonzero
      | false => rfl

theorem readUnsigned_positiveText (number : Double) (positive : 0 < number.value)
    (negative : Bool) {rest : Text} (ends : EndsNumber rest) :
    readUnsigned negative (positiveText number positive ++ rest) =
      some (.finite (if negative then number.neg else number), rest) := by
  have nonzero := shortest_ne_zero number positive
  have digitsNonempty : ofDigits (digitsOf (shortest number positive).digits) ≠ [] := by
    rw [ofDigits, Ne, List.map_eq_nil_iff]
    exact digitsOf_ne_nil nonzero
  have leading : (ofDigits (digitsOf (shortest number positive).digits)).head? ≠
      some (unit '0') := by
    cases split : digitsOf (shortest number positive).digits with
    | nil => exact absurd split (digitsOf_ne_nil nonzero)
    | cons digit others =>
        have small : digit < 10 := digitsOf_lt (split ▸ List.mem_cons_self)
        rw [ofDigits, List.map_cons, List.head?_cons, Ne, Option.some.injEq,
          digitUnit_eq_zero_iff small]
        exact head_digitsOf split
  rw [positiveText, readUnsigned_decimalText negative
    (fun first => isDigit_of_mem_ofDigits fun digit => digitsOf_lt) digitsNonempty leading ends,
    digitsValue_digitsOf, add_sub_cancel_right]
  exact congrArg some (Prod.ext
    (ofMagnitude_of_nearest negative (nearest_shortest number positive) positive.ne') rfl)

theorem decimalText_head {digits : Text} (all : ∀ first ∈ digits, isDigit first = true)
    (nonempty : digits ≠ []) (point : ℤ) :
    ∃ first others, decimalText digits point = first :: others ∧ isDigit first = true := by
  cases digits with
  | nil => exact absurd rfl nonempty
  | cons digit others =>
      have isFirst := all digit List.mem_cons_self
      unfold decimalText
      split
      · exact ⟨digit, _, rfl, isFirst⟩
      · split
        · next inside =>
            cases count : point.toNat with
            | zero => omega
            | succ count => exact ⟨digit, _, rfl, isFirst⟩
        · split
          · exact ⟨unit '0', _, rfl, by decide⟩
          · exact ⟨digit, _, rfl, isFirst⟩

/-- A printed positive number begins with a digit. -/
theorem positiveText_head (number : Double) (positive : 0 < number.value) :
    ∃ first others, positiveText number positive = first :: others ∧ isDigit first = true := by
  apply decimalText_head
  · exact fun first => isDigit_of_mem_ofDigits fun digit => digitsOf_lt
  · rw [ofDigits, Ne, List.map_eq_nil_iff]
    exact digitsOf_ne_nil (shortest_ne_zero number positive)

theorem readNumber_zero {rest : Text} (ends : EndsNumber rest) :
    readNumber (unit '0' :: rest) = some (.zero, rest) := by
  have digits : ∀ first ∈ [unit '0'], isDigit first = true :=
    Text.forall_mem_of_all (by decide)
  have read := readUnsigned_parts false digits (List.cons_ne_nil _ _) (.inr rfl) ends.noDigit
    (readFraction_ends ends) (readExponent_ends ends)
  have value : digitsValue [unit '0'] = 0 := by decide
  have rounds : ofMagnitude false 0 = .zero := by
    unfold ofMagnitude
    split
    · next none => cases none.symm.trans (nearest_of_isDouble .zero)
    · next value isValue =>
        cases Option.some.inj (isValue.symm.trans (nearest_of_isDouble .zero))
        rfl
  rw [List.append_nil, value, Nat.cast_zero, zero_mul, rounds] at read
  rw [readNumber, if_neg (by decide)]
  exact read

/-- Reading a printed number gives it back, without the sign of a zero. -/
theorem readNumber_numberText {number : Number} (finite : number.isFinite = true) {rest : Text}
    (ends : EndsNumber rest) :
    readNumber (numberText number ++ rest) = some (number.plain, rest) := by
  cases number with
  | infinite negative => cases finite
  | negativeZero => exact readNumber_zero ends
  | finite number =>
      rw [numberText]
      split
      · next positive =>
          have read := readUnsigned_positiveText number positive false ends
          rcases positiveText_head number positive with ⟨first, others, text, isFirst⟩
          have notMinus : ¬ first = unit '-' := by
            rintro rfl
            exact absurd isFirst (by decide)
          rw [text] at read ⊢
          rw [List.cons_append, readNumber, if_neg notMinus]
          exact read
      · next notPositive =>
          split
          · next negative =>
              have read := readUnsigned_positiveText number.neg negative true ends
              rw [List.cons_append, readNumber, if_pos rfl, read]
              congr 2
              apply congrArg Number.finite
              apply Double.ext
              exact neg_neg number.value
          · next notNegative =>
              have zero : number = ⟨0, .zero⟩ := by
                apply Double.ext
                have below : ¬ 0 < -number.value := notNegative
                exact le_antisymm (not_lt.mp notPositive) (by linarith [not_lt.mp below])
              rw [zero]
              exact readNumber_zero ends

/-- A number that is too large is read as infinite. -/
theorem ofMagnitude_overflow {magnitude : ℚ} (negative : Bool) (large : 2 ^ 1024 ≤ magnitude) :
    ofMagnitude negative magnitude = .infinite negative := by
  unfold ofMagnitude
  split
  · rfl
  · next value isValue => cases (nearest_overflow large).symm.trans isValue

/-! ## Reading before another text -/

theorem span_append {text digits rest : Text} (spans : text.span isDigit = (digits, rest))
    (nonempty : rest ≠ []) (more : Text) :
    (text ++ more).span isDigit = (digits, rest ++ more) := by
  rw [List.span_eq_takeWhile_dropWhile, Prod.mk.injEq] at spans
  rcases spans with ⟨rfl, rfl⟩
  have short : ¬ (text.takeWhile isDigit).length = text.length := by
    intro full
    have whole : text.takeWhile isDigit ++ text.dropWhile isDigit = text :=
      List.takeWhile_append_dropWhile
    have lengths := congrArg List.length whole
    rw [List.length_append, full, Nat.add_eq_left, List.length_eq_zero_iff] at lengths
    exact nonempty lengths
  rw [List.span_eq_takeWhile_dropWhile, List.takeWhile_append, if_neg short, List.dropWhile_append,
    if_neg (by simpa using nonempty)]

theorem readFraction_append {text digits rest : Text}
    (read : readFraction text = some (digits, rest)) (nonempty : rest ≠ []) (more : Text) :
    readFraction (text ++ more) = some (digits, rest ++ more) := by
  cases text with
  | nil =>
      cases read
      exact absurd rfl nonempty
  | cons first tail =>
      rw [List.cons_append, readFraction]
      rw [readFraction] at read
      split at read
      · next isPoint =>
          rcases spans : tail.span isDigit with ⟨part, after⟩
          rw [spans] at read
          dsimp only at read
          split at read
          · cases read
          · next some =>
              cases read
              rw [if_pos isPoint, span_append spans nonempty]
              exact if_neg some
      · next notPoint =>
          cases read
          rw [if_neg notPoint]
          rfl

theorem readSign_append {text rest : Text} {negative : Bool}
    (read : readSign text = (negative, rest)) (nonempty : rest ≠ []) (more : Text) :
    readSign (text ++ more) = (negative, rest ++ more) := by
  cases text with
  | nil =>
      cases read
      exact absurd rfl nonempty
  | cons first tail =>
      rw [List.cons_append, readSign]
      rw [readSign] at read
      split at read
      · next isMinus =>
          cases read
          exact if_pos isMinus
      · next notMinus =>
          rw [if_neg notMinus]
          split at read
          · next isPlus =>
              cases read
              exact if_pos isPlus
          · next notPlus =>
              cases read
              exact if_neg notPlus

theorem readExponent_append {text rest : Text} {exponent : ℤ}
    (read : readExponent text = some (exponent, rest)) (nonempty : rest ≠ []) (more : Text) :
    readExponent (text ++ more) = some (exponent, rest ++ more) := by
  cases text with
  | nil =>
      cases read
      exact absurd rfl nonempty
  | cons first tail =>
      rw [List.cons_append, readExponent]
      rw [readExponent] at read
      split at read
      · next isMark =>
          rcases sign : readSign tail with ⟨negative, signed⟩
          rcases spans : signed.span isDigit with ⟨digits, after⟩
          rw [sign] at read
          dsimp only at read
          rw [spans] at read
          dsimp only at read
          split at read
          · cases read
          · next some =>
              cases read
              have signedNonempty : signed ≠ [] := by
                rintro rfl
                cases spans
                exact nonempty rfl
              rw [if_pos isMark, readSign_append sign signedNonempty]
              dsimp only
              rw [span_append spans nonempty]
              exact if_neg some
      · next notMark =>
          cases read
          rw [if_neg notMark]
          rfl

theorem readUnsigned_append {text rest : Text} {negative : Bool} {value : Number}
    (read : readUnsigned negative text = some (value, rest)) (nonempty : rest ≠ []) (more : Text) :
    readUnsigned negative (text ++ more) = some (value, rest ++ more) := by
  rw [readUnsigned] at read ⊢
  rcases spans : text.span isDigit with ⟨whole, after⟩
  rw [spans] at read
  dsimp only at read
  split at read
  · cases read
  · next valid =>
      split at read
      · cases read
      · next fraction afterFraction isFraction =>
          split at read
          · cases read
          · next exponent last isExponent =>
              cases read
              have fractionNonempty : afterFraction ≠ [] := by
                rintro rfl
                cases isExponent
                exact nonempty rfl
              have wholeNonempty : after ≠ [] := by
                rintro rfl
                cases isFraction
                exact fractionNonempty rfl
              rw [span_append spans wholeNonempty]
              dsimp only
              rw [if_neg valid, readFraction_append isFraction fractionNonempty]
              dsimp only
              rw [readExponent_append isExponent nonempty]

/-- A number that ends before the text does is read the same before any other text. -/
theorem readNumber_append {text rest : Text} {value : Number}
    (read : readNumber text = some (value, rest)) (nonempty : rest ≠ []) (more : Text) :
    readNumber (text ++ more) = some (value, rest ++ more) := by
  cases text with
  | nil => cases read
  | cons first tail =>
      rw [List.cons_append, readNumber]
      rw [readNumber] at read
      split at read
      · next isMinus =>
          rw [if_pos isMinus]
          exact readUnsigned_append read nonempty more
      · next notMinus =>
          rw [if_neg notMinus, ← List.cons_append]
          exact readUnsigned_append read nonempty more

/-! ## Code units of printed numbers -/

/-- The code units of printed finite numbers. -/
def isNumeral (first : CodeUnit) : Bool :=
  isDigit first || first == unit '.' || first == unit 'e' || first == unit '+' ||
    first == unit '-'

theorem isNumeral_of_isDigit {first : CodeUnit} (digit : isDigit first = true) :
    isNumeral first = true := by
  rw [isNumeral, digit]
  rfl

theorem isNumeral_decimalText {digits : Text} (all : ∀ first ∈ digits, isDigit first = true)
    (point : ℤ) : ∀ first ∈ decimalText digits point, isNumeral first = true := by
  have isDigits : ∀ part : Text, part ⊆ digits → ∀ first ∈ part, isNumeral first = true :=
    fun part inside first membership => isNumeral_of_isDigit (all first (inside membership))
  have zeros : ∀ count : ℕ, ∀ first ∈ List.replicate count (unit '0'), isNumeral first = true :=
    fun count first membership => isNumeral_of_isDigit (isDigit_of_mem_zeros membership)
  have begins := isDigits _ (List.take_subset point.toNat digits)
  have ends := isDigits _ (List.drop_subset point.toNat digits)
  unfold decimalText
  split
  · rw [List.forall_mem_append]
    exact ⟨isDigits _ (List.Subset.refl _), zeros _⟩
  split
  · rw [List.forall_mem_append, List.forall_mem_cons]
    exact ⟨begins, by decide, ends⟩
  split
  · rw [List.forall_mem_append, List.forall_mem_cons, List.forall_mem_cons]
    exact ⟨⟨by decide, by decide, zeros _⟩, isDigits _ (List.Subset.refl _)⟩
  · have exponent : ∀ first ∈ ofDigits (digitsOf (point - 1).natAbs), isNumeral first = true :=
      fun first membership => isNumeral_of_isDigit
        (isDigit_of_mem_ofDigits (fun digit => digitsOf_lt) membership)
    rw [List.forall_mem_append, List.forall_mem_append, List.forall_mem_cons, List.forall_mem_cons]
    constructor
    · constructor
      · exact isDigits _ (List.take_subset 1 digits)
      · split
        · exact nofun
        · rw [List.forall_mem_cons]
          exact ⟨by decide, isDigits _ (List.drop_subset 1 digits)⟩
    · constructor
      · decide
      constructor
      · split
        · decide
        · decide
      · exact exponent

theorem isNumeral_positiveText (number : Double) (positive : 0 < number.value) :
    ∀ first ∈ positiveText number positive, isNumeral first = true :=
  isNumeral_decimalText
    (fun _ membership => isDigit_of_mem_ofDigits (fun _ => digitsOf_lt) membership) _

theorem isNumeral_numberText {number : Number} (finite : number.isFinite = true) :
    ∀ first ∈ numberText number, isNumeral first = true := by
  cases number with
  | infinite negative => cases finite
  | negativeZero =>
      rw [numberText]
      exact Text.forall_mem_of_all (by decide)
  | finite number =>
      rw [numberText]
      split
      · exact isNumeral_positiveText _ _
      split
      · rw [List.forall_mem_cons]
        exact ⟨by decide, isNumeral_positiveText _ _⟩
      · exact Text.forall_mem_of_all (by decide)

end Numerals
