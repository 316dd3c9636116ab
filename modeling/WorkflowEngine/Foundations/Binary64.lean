import Mathlib.Algebra.Order.Field.Power
import Mathlib.Data.Int.Log
import Mathlib.Data.Rat.Floor

/-!
# Double precision numbers

The finite values of the binary64 format as rational numbers, and the rounding of a
rational number to the nearest of them, ties to even.
-/

namespace Binary64

/-- A finite double: an integer of 53 bits, scaled by a power of two. -/
def IsDouble (value : ℚ) : Prop :=
  ∃ mantissa exponent : ℤ, |mantissa| < 2 ^ 53 ∧ -1074 ≤ exponent ∧ exponent ≤ 971 ∧
    value = mantissa * 2 ^ exponent

/-- The nearest integer, ties to even. -/
def roundHalfEven (value : ℚ) : ℤ :=
  let low := ⌊value⌋
  if value - low < 1 / 2 then low
  else if 1 / 2 < value - low then low + 1
  else if low % 2 = 0 then low
  else low + 1

/-- The exponent of the doubles around a number. -/
def exponentOf (value : ℚ) : ℤ := max (-1074) (Int.log 2 |value| - 52)

/-- The magnitude of the nearest double, were there no largest exponent. -/
def roundedMagnitude (value : ℚ) : ℚ :=
  roundHalfEven (|value| / 2 ^ exponentOf value) * 2 ^ exponentOf value

/-- The nearest double; nothing if the number rounds to infinity. -/
def nearest (value : ℚ) : Option ℚ :=
  if 2 ^ 1024 ≤ roundedMagnitude value then none
  else some (if value < 0 then -roundedMagnitude value else roundedMagnitude value)

/-! ## Integers -/

theorem roundHalfEven_intCast (value : ℤ) : roundHalfEven value = value := by
  have small : (value : ℚ) - (⌊(value : ℚ)⌋ : ℤ) < 1 / 2 := by
    rw [Int.floor_intCast, sub_self]
    norm_num
  rw [roundHalfEven, if_pos small, Int.floor_intCast]

theorem floor_le_roundHalfEven (value : ℚ) : ⌊value⌋ ≤ roundHalfEven value := by
  unfold roundHalfEven
  dsimp only
  split
  · exact le_refl _
  · split
    · exact (Int.lt_succ _).le
    · split
      · exact le_refl _
      · exact (Int.lt_succ _).le

theorem roundHalfEven_le (value : ℚ) : roundHalfEven value ≤ ⌊value⌋ + 1 := by
  unfold roundHalfEven
  dsimp only
  split
  · exact (Int.lt_succ _).le
  · split
    · exact le_refl _
    · split
      · exact (Int.lt_succ _).le
      · exact le_refl _

/-! ## Doubles are kept -/

theorem IsDouble.zero : IsDouble 0 := ⟨0, 0, by norm_num, by norm_num, by norm_num, by norm_num⟩

theorem IsDouble.neg {value : ℚ} (isDouble : IsDouble value) : IsDouble (-value) := by
  rcases isDouble with ⟨mantissa, exponent, small, low, high, rfl⟩
  refine ⟨-mantissa, exponent, by rwa [abs_neg], low, high, ?_⟩
  push_cast
  ring

/-- The exponent around a double is not above its own. -/
theorem exponentOf_le {mantissa exponent : ℤ} (small : |mantissa| < 2 ^ 53)
    (low : -1074 ≤ exponent) (nonzero : mantissa ≠ 0) :
    exponentOf (mantissa * 2 ^ exponent) ≤ exponent := by
  have power : (0 : ℚ) < 2 ^ exponent := zpow_pos (by norm_num) _
  have magnitude : |(mantissa : ℚ) * 2 ^ exponent| = |mantissa| * 2 ^ exponent := by
    rw [abs_mul, abs_of_pos power, Int.cast_abs]
  have positive : (0 : ℚ) < |mantissa| * 2 ^ exponent := by
    apply mul_pos _ power
    exact_mod_cast abs_pos.mpr nonzero
  have below : (|mantissa| : ℚ) * 2 ^ exponent < (2 : ℕ) ^ (53 + exponent) := by
    rw [Nat.cast_ofNat, zpow_add₀ (by norm_num)]
    apply mul_lt_mul_of_pos_right _ power
    exact_mod_cast small
  have log : Int.log 2 |(mantissa : ℚ) * 2 ^ exponent| < 53 + exponent := by
    rw [magnitude]
    exact (Int.lt_zpow_iff_log_lt (by norm_num) (by exact_mod_cast positive)).mp
      (by exact_mod_cast below)
  unfold exponentOf
  omega

/-- A double rounds to itself. -/
theorem nearest_of_isDouble {value : ℚ} (isDouble : IsDouble value) :
    nearest value = some value := by
  rcases isDouble with ⟨mantissa, exponent, small, low, high, rfl⟩
  have power : (0 : ℚ) < 2 ^ exponent := zpow_pos (by norm_num) _
  have magnitude : |(mantissa : ℚ) * 2 ^ exponent| = |mantissa| * 2 ^ exponent := by
    rw [abs_mul, abs_of_pos power, Int.cast_abs]
  have kept : roundedMagnitude (mantissa * 2 ^ exponent) = |(mantissa : ℚ) * 2 ^ exponent| := by
    by_cases nonzero : mantissa = 0
    · subst nonzero
      have none : roundHalfEven 0 = 0 := by exact_mod_cast roundHalfEven_intCast 0
      simp [roundedMagnitude, none]
    · have below := exponentOf_le small low nonzero
      obtain ⟨shift, split⟩ := Int.le.dest below
      -- in units of the rounding exponent a double is an integer
      have units : |(mantissa : ℚ) * 2 ^ exponent| /
          2 ^ exponentOf (mantissa * 2 ^ exponent) = ((|mantissa| * 2 ^ shift : ℤ) : ℚ) := by
        rw [magnitude, div_eq_iff (zpow_ne_zero _ (by norm_num))]
        push_cast
        rw [mul_assoc, ← zpow_natCast, ← zpow_add₀ (by norm_num), add_comm, split]
      rw [roundedMagnitude, units, roundHalfEven_intCast, ← units,
        div_mul_cancel₀ _ (zpow_ne_zero _ (by norm_num))]
  have bounded : ¬ (2 : ℚ) ^ 1024 ≤ roundedMagnitude (mantissa * 2 ^ exponent) := by
    rw [kept, magnitude, not_le]
    calc ((|mantissa| : ℤ) : ℚ) * 2 ^ exponent
        < 2 ^ (53 : ℤ) * 2 ^ exponent := by
          apply mul_lt_mul_of_pos_right _ power
          exact_mod_cast small
      _ = 2 ^ (53 + exponent) := (zpow_add₀ (by norm_num) _ _).symm
      _ ≤ 2 ^ (1024 : ℤ) := zpow_le_zpow_right₀ (by norm_num) (by omega)
      _ = 2 ^ 1024 := zpow_natCast _ _
  rw [nearest, if_neg bounded, kept]
  split
  · next negative => rw [abs_of_neg negative, neg_neg]
  · next positive => rw [abs_of_nonneg (not_lt.mp positive)]

/-! ## Rounding gives doubles -/

/-- Rounding does not go below the power of two under a normal number. -/
theorem zpow_log_le_roundedMagnitude {value : ℚ} (nonzero : value ≠ 0)
    (normal : exponentOf value = Int.log 2 |value| - 52) :
    (2 : ℚ) ^ Int.log 2 |value| ≤ roundedMagnitude value := by
  have power : (0 : ℚ) < 2 ^ exponentOf value := zpow_pos (by norm_num) _
  have split : (2 : ℚ) ^ Int.log 2 |value| = ((2 ^ 52 : ℤ) : ℚ) * 2 ^ exponentOf value := by
    calc (2 : ℚ) ^ Int.log 2 |value| = 2 ^ (52 + exponentOf value) := by
          congr 1
          omega
      _ = ((2 ^ 52 : ℤ) : ℚ) * 2 ^ exponentOf value := by
          rw [zpow_add₀ (by norm_num)]
          norm_num
  have below : ((2 : ℕ) : ℚ) ^ Int.log 2 |value| ≤ |value| :=
    Int.zpow_log_le_self (by norm_num) (abs_pos.mpr nonzero)
  have scaled : ((2 ^ 52 : ℤ) : ℚ) ≤ |value| / 2 ^ exponentOf value := by
    rw [le_div_iff₀ power, ← split]
    exact_mod_cast below
  have mantissa : 2 ^ 52 ≤ roundHalfEven (|value| / 2 ^ exponentOf value) :=
    le_trans (Int.le_floor.mpr scaled) (floor_le_roundHalfEven _)
  rw [split, roundedMagnitude]
  apply mul_le_mul_of_nonneg_right _ power.le
  exact_mod_cast mantissa

theorem roundedMagnitude_isDouble {value : ℚ} (bounded : roundedMagnitude value < 2 ^ 1024) :
    IsDouble (roundedMagnitude value) := by
  have power : (0 : ℚ) < 2 ^ exponentOf value := zpow_pos (by norm_num) _
  have low : -1074 ≤ exponentOf value := le_max_left _ _
  have scaled_nonneg : 0 ≤ |value| / 2 ^ exponentOf value := div_nonneg (abs_nonneg _) power.le
  have mantissa_nonneg : 0 ≤ roundHalfEven (|value| / 2 ^ exponentOf value) :=
    le_trans (Int.floor_nonneg.mpr scaled_nonneg) (floor_le_roundHalfEven _)
  have mantissa_le : roundHalfEven (|value| / 2 ^ exponentOf value) ≤ 2 ^ 53 := by
    have scaled_lt : |value| / 2 ^ exponentOf value < (2 ^ 53 : ℤ) := by
      rw [div_lt_iff₀ power]
      have above : |value| < (2 : ℕ) ^ (Int.log 2 |value| + 1) :=
        Int.lt_zpow_succ_log_self (by norm_num) _
      calc |value| < 2 ^ (Int.log 2 |value| + 1) := by exact_mod_cast above
        _ ≤ 2 ^ (53 + exponentOf value) := by
            apply zpow_le_zpow_right₀ (by norm_num)
            unfold exponentOf
            omega
        _ = ((2 ^ 53 : ℤ) : ℚ) * 2 ^ exponentOf value := by
            rw [zpow_add₀ (by norm_num)]
            norm_num
    exact le_trans (roundHalfEven_le _) (Int.floor_lt.mpr scaled_lt)
  by_cases full : roundHalfEven (|value| / 2 ^ exponentOf value) = 2 ^ 53
  · -- the mantissa rounds up to the next power of two
    have rounded : roundedMagnitude value = 2 ^ (53 + exponentOf value) := by
      rw [roundedMagnitude, full, zpow_add₀ (by norm_num)]
      norm_num
    have high : 53 + exponentOf value < 1024 := by
      rw [rounded, ← zpow_natCast] at bounded
      exact (zpow_lt_zpow_iff_right₀ (by norm_num)).mp bounded
    refine ⟨2 ^ 52, exponentOf value + 1, by norm_num, by omega, by omega, ?_⟩
    rw [rounded]
    calc (2 : ℚ) ^ (53 + exponentOf value)
        = 2 ^ (52 : ℤ) * 2 ^ (exponentOf value + 1) := by
          rw [← zpow_add₀ (by norm_num)]
          congr 1
          ring
      _ = ((2 ^ 52 : ℤ) : ℚ) * 2 ^ (exponentOf value + 1) := by norm_num
  · have small : |roundHalfEven (|value| / 2 ^ exponentOf value)| < 2 ^ 53 := by
      rw [abs_of_nonneg mantissa_nonneg]
      exact lt_of_le_of_ne mantissa_le full
    refine ⟨_, exponentOf value, small, low, ?_, rfl⟩
    by_contra above
    rw [not_le] at above
    have isLog : exponentOf value = Int.log 2 |value| - 52 := by
      unfold exponentOf at above ⊢
      omega
    have nonzero : value ≠ 0 := by
      rintro rfl
      rw [abs_zero, Int.log_zero_right] at isLog
      omega
    have huge : (2 : ℚ) ^ 1024 ≤ roundedMagnitude value := by
      calc (2 : ℚ) ^ 1024 = 2 ^ (1024 : ℤ) := (zpow_natCast _ _).symm
        _ ≤ 2 ^ Int.log 2 |value| := zpow_le_zpow_right₀ (by norm_num) (by omega)
        _ ≤ roundedMagnitude value := zpow_log_le_roundedMagnitude nonzero isLog
    exact absurd bounded (not_lt.mpr huge)

theorem nearest_isDouble {value rounded : ℚ} (isNearest : nearest value = some rounded) :
    IsDouble rounded := by
  unfold nearest at isNearest
  split at isNearest
  · cases isNearest
  · next bounded =>
      cases Option.some.inj isNearest
      have isDouble := roundedMagnitude_isDouble (not_le.mp bounded)
      split
      · exact isDouble.neg
      · exact isDouble

/-- Numbers from 2 ^ 1024 on are not represented. -/
theorem nearest_overflow {value : ℚ} (large : 2 ^ 1024 ≤ value) : nearest value = none := by
  have positive : 0 < value := lt_of_lt_of_le (by positivity) large
  have log : 1024 ≤ Int.log 2 |value| := by
    rw [← Int.zpow_le_iff_le_log (by norm_num) (abs_pos.mpr positive.ne'), abs_of_pos positive]
    exact_mod_cast large
  have normal : exponentOf value = Int.log 2 |value| - 52 := by
    unfold exponentOf
    omega
  rw [nearest, if_pos]
  calc (2 : ℚ) ^ 1024 = 2 ^ (1024 : ℤ) := (zpow_natCast _ _).symm
    _ ≤ 2 ^ Int.log 2 |value| := zpow_le_zpow_right₀ (by norm_num) log
    _ ≤ roundedMagnitude value := zpow_log_le_roundedMagnitude positive.ne' normal

end Binary64
